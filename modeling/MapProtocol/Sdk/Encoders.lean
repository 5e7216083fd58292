import MapProtocol.Js.StringEncoders
import Mathlib.Data.Bool.AllAny

/-!
# How Python and Go write strings

`json.dumps` escapes whatever is not printable ASCII. `json.Marshal` escapes what could be taken for
HTML, and the line terminators of JavaScript. `JSON.stringify` does neither.
-/

namespace MapProtocol.Sdk

open Js

/-- The escapes by two characters, which the three languages share. -/
def shortEscape (c : Char) : Option (List Char) :=
  if c = '"' then some ['\\', '"']
  else if c = '\\' then some ['\\', '\\']
  else if c.toNat = 8 then some ['\\', 'b']
  else if c.toNat = 9 then some ['\\', 't']
  else if c.toNat = 10 then some ['\\', 'n']
  else if c.toNat = 12 then some ['\\', 'f']
  else if c.toNat = 13 then some ['\\', 'r']
  else none

/-- `json.dumps` with `ensure_ascii`: what is not printable ASCII is written as code units. -/
def pythonEscape (c : Char) : List Char :=
  (shortEscape c).getD
    (if 32 ≤ c.toNat ∧ c.toNat ≤ 126 then [c] else (unitsOf c).flatMap unicodeEscape)

/-- `json.Marshal`: what could be taken for HTML or for a line terminator is escaped as well. -/
def goEscape (c : Char) : List Char :=
  (shortEscape c).getD
    (if c.toNat < 32 ∨ c ∈ ['<', '>', '&'] then unicodeEscape c.toNat
    else if c.toNat = 0x2028 ∨ c.toNat = 0x2029 then unicodeEscape c.toNat
    else [c])

theorem escapeChar_eq (c : Char) : escapeChar c =
    (shortEscape c).getD (if c.toNat < 32 then unicodeEscape c.toNat else [c]) := by
  unfold escapeChar shortEscape
  split_ifs with h1 h2 h3 h4 h5 h6 h7 h8 <;> try rfl
  have hhigh : c.toNat / 4096 % 16 = 0 ∧ c.toNat / 256 % 16 = 0 ∧
      c.toNat / 16 % 16 = c.toNat / 16 := by omega
  simp [unicodeEscape, hhigh, hexDigit]

/-- What is printable, or a control character, is ASCII below DEL. -/
def pythonPlain (c : Char) : Bool := c.toNat < 127

def goPlain (c : Char) : Bool := c ∉ ['<', '>', '&'] && c.toNat ≠ 0x2028 && c.toNat ≠ 0x2029

theorem not_html_of_toNat {c : Char} {n : Nat} (h : c.toNat = n) (hn : n < 32) :
    c ∉ ['<', '>', '&'] := by
  have hhtml : ∀ d ∈ ['<', '>', '&'], 32 ≤ d.toNat := List.all_iff_forall_prop.mp (by decide)
  intro hc
  have := hhtml c hc
  omega

theorem shortEscape_lt {c : Char} {cs : List Char} (h : shortEscape c = some cs) :
    c.toNat < 127 ∧ c ∉ ['<', '>', '&'] := by
  unfold shortEscape at h
  split_ifs at h with hquote hbackslash h8 h9 h10 h12 h13
  · subst hquote; decide
  · subst hbackslash; decide
  · exact ⟨by omega, not_html_of_toNat h8 (by decide)⟩
  · exact ⟨by omega, not_html_of_toNat h9 (by decide)⟩
  · exact ⟨by omega, not_html_of_toNat h10 (by decide)⟩
  · exact ⟨by omega, not_html_of_toNat h12 (by decide)⟩
  · exact ⟨by omega, not_html_of_toNat h13 (by decide)⟩

theorem unitsOf_eq {c : Char} (h : c.toNat < 0x10000) : unitsOf c = [c.toNat] := by
  unfold unitsOf
  rw [if_pos h]

theorem escapeChar_bare {c : Char} (hshort : shortEscape c = none) (h : 32 ≤ c.toNat) :
    escapeChar c = [c] := by
  rw [escapeChar_eq, hshort, Option.getD_none, if_neg (by omega)]

/-- `json.dumps`. -/
def python : Encoder where
  escape := pythonEscape
  plain := pythonPlain
  same c h := by
    have hlow : c.toNat < 127 := of_decide_eq_true h
    rw [escapeChar_eq]
    unfold pythonEscape
    congr 1
    by_cases hcontrol : c.toNat < 32
    · rw [if_neg (by omega), if_pos hcontrol, unitsOf_eq (by omega)]
      simp
    · rw [if_pos (by omega), if_neg hcontrol]
  units c h := by
    have hhigh : ¬ c.toNat < 127 := of_decide_eq_false h
    have hshort : shortEscape c = none :=
      Option.eq_none_iff_forall_ne_some.mpr fun _ hc => hhigh (shortEscape_lt hc).1
    unfold pythonEscape
    rw [hshort, Option.getD_none, if_neg (by omega)]
  bare c h := by
    have hhigh : ¬ c.toNat < 127 := of_decide_eq_false h
    exact escapeChar_bare
      (Option.eq_none_iff_forall_ne_some.mpr fun _ hc => hhigh (shortEscape_lt hc).1) (by omega)

theorem goPlain_iff {c : Char} : goPlain c = true ↔
    c ∉ ['<', '>', '&'] ∧ ¬ (c.toNat = 0x2028 ∨ c.toNat = 0x2029) := by
  unfold goPlain
  simp only [Bool.and_eq_true, decide_eq_true_eq, not_or, and_assoc]

theorem goPlain_eq_false {c : Char} (h : goPlain c = false) :
    c ∈ ['<', '>', '&'] ∨ c.toNat = 0x2028 ∨ c.toNat = 0x2029 := by
  have hplain := goPlain_iff.not.mp (Bool.eq_false_iff.mp h)
  by_contra hnone
  exact hplain (not_or.mp hnone)

theorem shortEscape_of_goPlain {c : Char} (h : goPlain c = false) :
    shortEscape c = none ∧ 32 ≤ c.toNat ∧ c.toNat < 0x10000 := by
  have hhtml : ∀ d ∈ ['<', '>', '&'], 32 ≤ d.toNat ∧ d.toNat < 127 :=
    List.all_iff_forall_prop.mp (by decide)
  rcases goPlain_eq_false h with hc | hc | hc
  · have hbounds := hhtml c hc
    refine ⟨Option.eq_none_iff_forall_ne_some.mpr fun _ hshort => (shortEscape_lt hshort).2 hc, ?_⟩
    omega
  all_goals
    refine ⟨Option.eq_none_iff_forall_ne_some.mpr fun _ hshort => ?_, by omega⟩
    have := (shortEscape_lt hshort).1
    omega

/-- `json.Marshal`. -/
def go : Encoder where
  escape := goEscape
  plain := goPlain
  same c h := by
    have hplain := goPlain_iff.mp h
    rw [escapeChar_eq]
    unfold goEscape
    congr 1
    by_cases hcontrol : c.toNat < 32
    · rw [if_pos (.inl hcontrol), if_pos hcontrol]
    · rw [if_neg (not_or.mpr ⟨hcontrol, hplain.1⟩), if_neg hplain.2, if_neg hcontrol]
  units c h := by
    obtain ⟨hshort, -, hbound⟩ := shortEscape_of_goPlain h
    unfold goEscape
    rw [hshort, Option.getD_none, unitsOf_eq hbound, List.flatMap_singleton]
    rcases goPlain_eq_false h with hc | hc
    · rw [if_pos (.inr hc)]
    · rw [if_pos hc, ite_self]
  bare c h := by
    obtain ⟨hshort, hlow, -⟩ := shortEscape_of_goPlain h
    exact escapeChar_bare hshort hlow

end MapProtocol.Sdk
