import MapProtocol.Js.Text

/-!
# Capital and small letters

`toUpperCase` and `toLowerCase` map each character to a text of its own. What Unicode says of the
characters beyond ASCII is a parameter.
-/

namespace MapProtocol.Js

/-- Unicode's capitals, of each character. -/
structure UpperCase where
  of    : Char → List Char
  ascii : ∀ c, c.toNat < 128 → of c = [c.toUpper]

/-- `s.toUpperCase()` -/
def UpperCase.apply (upper : UpperCase) (s : String) : String :=
  String.ofList (s.toList.flatMap upper.of)

def asciiCapitals : UpperCase := ⟨fun c => [c.toUpper], fun _ _ => rfl⟩

/-- Unicode's small letters, of each character; a sigma at the end of a word is not told apart. -/
structure LowerCase where
  of    : Char → List Char
  ascii : ∀ c, c.toNat < 128 → of c = [c.toLower]

/-- `s.toLowerCase()` -/
def LowerCase.apply (lower : LowerCase) (s : String) : String :=
  String.ofList (s.toList.flatMap lower.of)

def asciiSmall : LowerCase := ⟨fun c => [c.toLower], fun _ _ => rfl⟩

theorem toNat_toUpper (c : Char) :
    c.toUpper.toNat = if 97 ≤ c.toNat ∧ c.toNat ≤ 122 then c.toNat - 32 else c.toNat := by
  have hle : 'a'.val ≤ c.val ↔ 97 ≤ c.toNat := UInt32.le_iff_toNat_le
  have hge : c.val ≤ 'z'.val ↔ c.toNat ≤ 122 := UInt32.le_iff_toNat_le
  unfold Char.toUpper
  split
  · rename_i h
    obtain ⟨hlow, hhigh⟩ : 97 ≤ c.toNat ∧ c.toNat ≤ 122 := by rwa [← hle, ← hge]
    rw [if_pos ⟨hlow, hhigh⟩]
    show (c.val + ('A'.val - 'a'.val)).toNat = c.val.toNat - 32
    have hshift : ('A'.val - 'a'.val).toNat = 2 ^ 32 - 32 := by decide
    have hval : c.toNat = c.val.toNat := rfl
    rw [UInt32.toNat_add, hshift]
    omega
  · rename_i h
    rw [hle, hge] at h
    rw [if_neg h]

theorem flatMap_ascii {upper : UpperCase} {w : List Char} (h : ∀ c ∈ w, c.toNat < 128) :
    w.flatMap upper.of = w.map Char.toUpper := by
  rw [← List.flatMap_pure_eq_map]
  exact List.flatMap_congr fun c hc => upper.ascii c (h c hc)

theorem toList_apply {upper : UpperCase} {query : String} {w rest : List Char}
    (hquery : query.toList = w ++ rest) (hascii : ∀ c ∈ w, c.toNat < 128) :
    (upper.apply query).toList = w.map Char.toUpper ++ rest.flatMap upper.of := by
  unfold UpperCase.apply
  rw [String.toList_ofList, hquery, List.flatMap_append, flatMap_ascii hascii]

theorem toLower_of_not_capital {c : Char} (h : ¬ (65 ≤ c.toNat ∧ c.toNat ≤ 90)) : c.toLower = c := by
  have hle : 'A'.val ≤ c.val ↔ 65 ≤ c.toNat := UInt32.le_iff_toNat_le
  have hge : c.val ≤ 'Z'.val ↔ c.toNat ≤ 90 := UInt32.le_iff_toNat_le
  refine dif_neg ?_
  rwa [ge_iff_le, hle, hge]

theorem flatMap_small {lower : LowerCase} {w : List Char}
    (h : ∀ c ∈ w, c.toNat < 128 ∧ ¬ (65 ≤ c.toNat ∧ c.toNat ≤ 90)) : w.flatMap lower.of = w := by
  have hsame : ∀ c ∈ w, lower.of c = [c] := by
    intro c hc
    obtain ⟨hascii, hsmall⟩ := h c hc
    rw [lower.ascii c hascii, toLower_of_not_capital hsmall]
  rw [List.flatMap_congr hsame, List.flatMap_singleton']

theorem apply_small {lower : LowerCase} {s : String}
    (h : ∀ c ∈ s.toList, c.toNat < 128 ∧ ¬ (65 ≤ c.toNat ∧ c.toNat ≤ 90)) : lower.apply s = s := by
  unfold LowerCase.apply
  rw [flatMap_small h, String.ofList_toList]

theorem startsWith_apply_small {lower : LowerCase} {s opening : String}
    (hsmall : ∀ c ∈ opening.toList, c.toNat < 128 ∧ ¬ (65 ≤ c.toNat ∧ c.toNat ≤ 90))
    (h : startsWith s opening = true) : startsWith (lower.apply s) opening = true := by
  unfold startsWith at h ⊢
  rw [List.isPrefixOf_iff_prefix] at h ⊢
  obtain ⟨rest, hs⟩ := h
  unfold LowerCase.apply
  rw [String.toList_ofList, ← hs, List.flatMap_append, flatMap_small hsmall]
  exact List.prefix_append ..

end MapProtocol.Js
