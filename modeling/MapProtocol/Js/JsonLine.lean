import MapProtocol.Js.JsonNumbers

/-!
# A JSON text is one line

`JSON.stringify` without an indent writes no line feed: there is none in a number, a string literal
escapes it, and between values only brackets, commas and colons stand.
-/

namespace MapProtocol.Js

/-! ## Numbers -/

section

variable {c : Char}

theorem notMem_toString (hc : isDigit c = false) (n : Nat) : c ∉ (toString n).toList := by
  intro h
  rw [isDigit_of_mem_toString h] at hc
  cases hc

/-- The characters of a number besides its digits. -/
def numberMarks : List Char := ['-', '.', 'e', '+', '/']

theorem notMem_layoutNumber {digits : List Char} (hc : isDigit c = false) (hmarks : c ∉ numberMarks)
    (hdigits : c ∉ digits) (point : Int) : c ∉ (layoutNumber digits point).toList := by
  simp only [numberMarks, List.mem_cons, List.not_mem_nil, or_false, not_or] at hmarks
  have hzero : c ≠ '0' := by
    rintro rfl
    exact absurd hc (by decide)
  have htake : c ∉ digits.take point.toNat := fun h => hdigits (List.mem_of_mem_take h)
  have hdrop : c ∉ digits.drop point.toNat := fun h => hdigits (List.mem_of_mem_drop h)
  have hexponent : c ∉ ((if 0 ≤ point - 1 then "e+" else "e-") ++
      toString (point - 1).natAbs).toList := by
    rw [String.toList_append, List.mem_append, not_or]
    refine ⟨?_, notMem_toString hc _⟩
    split <;> simp [hmarks]
  unfold layoutNumber
  dsimp only
  split
  · simp [hdigits, hzero]
  · split
    · simp [htake, hdrop, hmarks]
    · split
      · simp [hdigits, hzero, hmarks]
      · generalize (if 0 ≤ point - 1 then "e+" else "e-") ++ toString (point - 1).natAbs = exponent
          at hexponent
        cases digits with
        | nil => simp [hzero]
        | cons d ds =>
            simp only [List.mem_cons, not_or] at hdigits
            cases ds with
            | nil => simp [hdigits, hexponent]
            | cons d' ds => simp_all

theorem notMem_numberToString (hc : isDigit c = false) (hmarks : c ∉ numberMarks) (q : Rat) :
    c ∉ (numberToString q).toList := by
  have hall := hmarks
  simp only [numberMarks, List.mem_cons, List.not_mem_nil, or_false, not_or] at hmarks
  have hsign : c ∉ (if q < 0 then "-" else "").toList := by
    split <;> simp [hmarks]
  unfold numberToString
  split
  · have hzero : c ≠ '0' := by
      rintro rfl
      exact absurd hc (by decide)
    simp [hzero]
  · dsimp only
    split
    · simp only [String.toList_append, List.mem_append, not_or]
      exact ⟨⟨⟨hsign, notMem_toString hc _⟩, by simp [hmarks]⟩, notMem_toString hc _⟩
    · rw [String.toList_append, List.mem_append, not_or]
      exact ⟨hsign, notMem_layoutNumber hc hall (notMem_toString hc _) _⟩

end

/-! ## Texts -/

theorem newline_notMem_escapeChar (c : Char) : '\n' ∉ escapeChar c := by
  have hhex : ∀ n, hexDigit n ≠ '\n' := by
    intro n
    unfold hexDigit
    rcases Nat.lt_or_ge n 16 with hn | hn
    · exact (by decide : ∀ i : Fin 16, "0123456789abcdef".toList.getD i.val '0' ≠ '\n') ⟨n, hn⟩
    · rw [List.getD_eq_getElem?_getD, List.getElem?_eq_none hn]
      decide
  unfold escapeChar
  split_ifs with _ _ _ _ hfeed <;> try simp [Ne.symm (hhex _)]
  rintro rfl
  exact hfeed rfl

theorem newline_notMem_quote (s : String) : '\n' ∉ (quote s).toList := by
  simp only [quote, String.toList_ofList, List.mem_cons, List.mem_append, List.mem_flatMap,
    List.not_mem_nil, or_false, not_or, not_exists, not_and]
  exact ⟨by decide, fun c _ => newline_notMem_escapeChar c, by decide⟩

theorem newline_notMem_commaSeparated {ts : List String} (h : ∀ t ∈ ts, '\n' ∉ t.toList) :
    '\n' ∉ (commaSeparated ts).toList := by
  induction ts with
  | nil => decide
  | cons t ts ih =>
      have ht := h t List.mem_cons_self
      have hts := ih fun t' ht' => h t' (List.mem_cons_of_mem t ht')
      cases ts with
      | nil => exact ht
      | cons t' ts =>
          simp only [commaSeparated, String.toList_append, List.mem_append, not_or]
          exact ⟨⟨ht, by decide⟩, hts⟩

mutual

/-- **A JSON text is one line.** -/
theorem newline_notMem_stringify? : ∀ v t, stringify? v = some t → '\n' ∉ t.toList
  | .undefined, _, h => nomatch h
  | .inherited _, _, h => nomatch h
  | .null, _, h => by
      cases h
      decide
  | .bool b, _, h => by
      cases h
      cases b <;> decide
  | .num q, _, h => by
      cases h
      exact notMem_numberToString (by decide) (by decide) q
  | .str s, _, h => by
      cases h
      exact newline_notMem_quote s
  | .arr xs, _, h => by
      cases h
      have hxs := newline_notMem_commaSeparated (newline_notMem_elements xs)
      simp [hxs]
  | .obj es, _, h => by
      cases h
      have hes := newline_notMem_commaSeparated (newline_notMem_members es)
      simp [hes]

theorem newline_notMem_elements : ∀ vs, ∀ t ∈ stringifyElements vs, '\n' ∉ t.toList
  | [], _, h => nomatch h
  | v :: vs, t, h => by
      rcases List.mem_cons.mp h with rfl | ht
      · cases hv : stringify? v with
        | none => decide
        | some s => exact newline_notMem_stringify? v s hv
      · exact newline_notMem_elements vs t ht

theorem newline_notMem_members : ∀ es, ∀ t ∈ stringifyMembers es, '\n' ∉ t.toList
  | [], _, h => nomatch h
  | (k, v) :: es, t, h => by
      cases hv : stringify? v with
      | none =>
          rw [stringifyMembers, hv] at h
          exact newline_notMem_members es t h
      | some s =>
          rw [stringifyMembers, hv] at h
          rcases List.mem_cons.mp h with rfl | ht
          · have hs := newline_notMem_stringify? v s hv
            have hk := newline_notMem_quote k
            simp [hk, hs]
          · exact newline_notMem_members es t ht

end

theorem toList_stringify (o : JsObject) :
    (stringify o).toList = '\x7b' :: ((commaSeparated (stringifyMembers o)).toList ++ ['\x7d']) := by
  simp [stringify, stringify?]

theorem newline_notMem_stringify (o : JsObject) : '\n' ∉ (stringify o).toList :=
  newline_notMem_stringify? (.obj o) _ rfl

end MapProtocol.Js
