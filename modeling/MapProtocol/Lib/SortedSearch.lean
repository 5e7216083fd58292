import Mathlib.Data.List.Sort
import MapProtocol.Lib.FirstMatch

/-!
# Searching a sorted list

Sorting by a total preorder keeps the order of elements that are equal in it. It does not matter
whether a list is filtered before or after (`filter_mergeSort`), and what a search of the sorted list
meets is told by the preorder and the places of the elements in the list (`upToFirst_mergeSort_iff`).
-/

namespace MapProtocol

variable {α : Type}

section Stable

variable {le : α → α → Bool}
variable {x : α} {p good : α → Prop} {xs : List α}

/-- A list has one place at most before which nothing has `p` and behind which everything has. -/
theorem append_inj_of_split {p : α → Bool} {as bs cs ds : List α} (h : as ++ bs = cs ++ ds)
    (has : ∀ a ∈ as, p a = false) (hbs : ∀ b ∈ bs, p b = true) (hcs : ∀ c ∈ cs, p c = false)
    (hds : ∀ d ∈ ds, p d = true) : as = cs ∧ bs = ds := by
  have hfront : ∀ xs ys : List α, (∀ x ∈ xs, p x = false) → (∀ y ∈ ys, p y = true) →
      (xs ++ ys).filter p = ys := by
    intro xs ys hxs hys
    rw [List.filter_append, List.filter_eq_nil_iff.mpr fun x hx => by simp [hxs x hx],
      List.filter_eq_self.mpr hys, List.nil_append]
  have hsame : bs = ds := by
    rw [← hfront as bs has hbs, h, hfront cs ds hcs hds]
  exact ⟨List.append_cancel_right (hsame ▸ h), hsame⟩

/-- Behind an element of a sorted list stand only those that it may precede. -/
theorem le_of_behind (htrans : ∀ a b c, le a b = true → le b c = true → le a c = true)
    (htotal : ∀ a b, (le a b || le b a) = true) {xs front rest : List α}
    (h : xs.mergeSort le = front ++ x :: rest) : ∀ b ∈ rest, le x b = true := by
  have hpairwise := List.pairwise_mergeSort htrans htotal xs
  rw [h] at hpairwise
  exact (List.pairwise_cons.mp (List.pairwise_append.mp hpairwise).2.1).1

theorem filter_mergeSort {p : α → Bool} (htrans : ∀ a b c, le a b = true → le b c = true → le a c = true)
    (htotal : ∀ a b, (le a b || le b a) = true) (xs : List α) :
    (xs.mergeSort le).filter p = (xs.filter p).mergeSort le := by
  induction xs with
  | nil => simp
  | cons x xs ih =>
      obtain ⟨front, rest, hsorted, htail, hfront⟩ := List.mergeSort_cons htrans htotal x xs
      rw [hsorted]
      rw [htail, List.filter_append] at ih
      by_cases hx : p x = true
      · rw [List.filter_cons_of_pos hx, List.filter_append, List.filter_cons_of_pos hx]
        obtain ⟨front', rest', hsorted', htail', hfront'⟩ :=
          List.mergeSort_cons htrans htotal x (xs.filter p)
        rw [htail'] at ih
        rw [hsorted']
        -- `x` stands before the elements that it may precede, in both
        have hafter := le_of_behind htrans htotal hsorted
        have hafter' := le_of_behind htrans htotal hsorted'
        obtain ⟨hsame, hsame'⟩ := append_inj_of_split ih
          (fun a ha => by simpa using hfront a (List.mem_of_mem_filter ha))
          (fun b hb => hafter b (List.mem_of_mem_filter hb))
          (fun a ha => by simpa using hfront' a ha) hafter'
        rw [hsame, hsame']
      · rw [List.filter_cons_of_neg hx, List.filter_append, List.filter_cons_of_neg hx, ih]

/-- An element with `p` stands before place `j`, where `x` is, once the list is sorted. -/
def Preceded (le : α → α → Bool) (p : α → Prop) (xs : List α) (j : Nat) (x : α) : Prop :=
  ∃ i y, xs[i]? = some y ∧ p y ∧ (le x y = false ∨ le y x = true ∧ i < j)

theorem preceded_cons_zero (hrefl : le x x = true) :
    Preceded le p (x :: xs) 0 x ↔ ∃ y ∈ xs, p y ∧ le x y = false := by
  constructor
  · rintro ⟨i, y, hy, hp, hbelow | ⟨-, hi⟩⟩
    · cases i with
      | zero =>
          obtain rfl : x = y := by simpa using hy
          rw [hrefl] at hbelow
          cases hbelow
      | succ i => exact ⟨y, List.mem_of_getElem? (by simpa using hy), hp, hbelow⟩
    · exact absurd hi (Nat.not_lt_zero i)
  · rintro ⟨y, hy, hp, hbelow⟩
    obtain ⟨i, hi⟩ := List.mem_iff_getElem?.mp hy
    exact ⟨i + 1, y, by simpa using hi, hp, .inl hbelow⟩

theorem preceded_cons_succ {a x : α} {j : Nat} (htotal : (le a x || le x a) = true) :
    Preceded le p (a :: xs) (j + 1) x ↔ Preceded le p xs j x ∨ p a ∧ le a x = true := by
  constructor
  · rintro ⟨i, y, hy, hp, hbefore⟩
    cases i with
    | zero =>
        obtain rfl : a = y := by simpa using hy
        refine .inr ⟨hp, ?_⟩
        rcases hbefore with hbelow | ⟨hle, -⟩
        · simpa [hbelow] using htotal
        · exact hle
    | succ i =>
        exact .inl ⟨i, y, by simpa using hy, hp, hbefore.imp_right
          fun h => ⟨h.1, Nat.lt_of_succ_lt_succ h.2⟩⟩
  · rintro (⟨i, y, hy, hp, hbefore⟩ | ⟨hp, hle⟩)
    · exact ⟨i + 1, y, by simpa using hy, hp, hbefore.imp_right fun h => ⟨h.1, Nat.succ_lt_succ h.2⟩⟩
    · exact ⟨0, a, rfl, hp, .inr ⟨hle, Nat.succ_pos j⟩⟩

/-- Of a sorted list, what precedes its first element is what stands before it afterwards. -/
theorem preceded_head_iff {p : α → Prop} {xs front rest : List α} {x : α}
    (hrefl : le x x = true) (hmem : ∀ y, y ∈ xs ↔ y ∈ front ∨ y ∈ rest)
    (hfront : ∀ y ∈ front, le x y = false) (hrest : ∀ y ∈ rest, le x y = true) :
    Preceded le p (x :: xs) 0 x ↔ ∃ y ∈ front, p y := by
  rw [preceded_cons_zero hrefl]
  constructor
  · rintro ⟨y, hy, hp, hbelow⟩
    rcases (hmem y).mp hy with hbefore | hbehind
    · exact ⟨y, hbefore, hp⟩
    · rw [hrest y hbehind] at hbelow
      cases hbelow
  · rintro ⟨y, hy, hp⟩
    exact ⟨y, (hmem y).mpr (.inl hy), hp, hfront y hy⟩

/-- The places of a list are its first one and those of the rest, where the first element precedes what
it may precede if it has `p`. -/
theorem forall_places_cons (htotal : ∀ a b, (le a b || le b a) = true) {a : α} :
    (∀ j x, (a :: xs)[j]? = some x → good x ∨ Preceded le p (a :: xs) j x) ↔
      (good a ∨ Preceded le p (a :: xs) 0 a) ∧
        ∀ j x, xs[j]? = some x → (good x ∨ p a ∧ le a x = true) ∨ Preceded le p xs j x := by
  constructor
  · intro h
    refine ⟨h 0 a rfl, fun j x hx => ?_⟩
    have hlater := h (j + 1) x (by simpa using hx)
    rw [preceded_cons_succ (htotal a x)] at hlater
    tauto
  · rintro ⟨hfirst, hlater⟩ j x hx
    cases j with
    | zero =>
        obtain rfl : a = x := by simpa using hx
        exact hfirst
    | succ j =>
        have hx' := hlater j x (by simpa using hx)
        rw [preceded_cons_succ (htotal a x)]
        tauto

/-- **A search of the sorted list meets only good elements when an element with `p` stands before
each of the others.** -/
theorem upToFirst_mergeSort_iff (htrans : ∀ a b c, le a b = true → le b c = true → le a c = true)
    (htotal : ∀ a b, (le a b || le b a) = true) :
    UpToFirst p good (xs.mergeSort le) ↔
      ∀ j x, xs[j]? = some x → good x ∨ Preceded le p xs j x := by
  induction xs generalizing good with
  | nil => simp [UpToFirst]
  | cons a xs ih =>
      obtain ⟨front, rest, hsorted, htail, hfront⟩ := List.mergeSort_cons htrans htotal a xs
      have hbefore : ∀ y ∈ front, le a y = false := fun y hy => by simpa using hfront y hy
      have hafter := le_of_behind htrans htotal hsorted
      have hmem : ∀ y, y ∈ xs ↔ y ∈ front ∨ y ∈ rest := fun y => by
        rw [← List.mem_append, ← htail, List.mem_mergeSort]
      have hhead := @preceded_head_iff _ _ p _ _ _ _ (by simpa using htotal a a) hmem hbefore hafter
      -- with `p a`, only what stands before `a` matters
      have hsearch := @ih fun x => good x ∨ p a ∧ le a x = true
      rw [htail, UpToFirst.append_iff] at hsearch
      have hsame : UpToFirst p (fun x => good x ∨ p a ∧ le a x = true) front ↔
          UpToFirst p good front :=
        UpToFirst.congr fun x hx => by simp [hbefore x hx]
      have hnone : (∀ x ∈ front, ¬ p x) ↔ ¬ ∃ y ∈ front, p y := by simp
      rw [hsorted, UpToFirst.append_iff, UpToFirst, forall_places_cons htotal, hhead, ← hsearch, hsame,
        hnone]
      have hfirst : (¬ (∃ y ∈ front, p y) → good a) → good a ∨ ∃ y ∈ front, p y := fun h =>
        (Classical.em (∃ y ∈ front, p y)).symm.imp_left h
      by_cases hp : p a
      · have hrest : UpToFirst p (fun x => good x ∨ p a ∧ le a x = true) rest :=
          .of_forall fun x hx => .inr ⟨hp, hafter x hx⟩
        exact ⟨fun h => ⟨hfirst fun hnot => (h.2 hnot).1, h.1, fun _ => hrest⟩,
          fun h => ⟨h.2.1, fun hnot => ⟨h.1.resolve_right hnot, fun hnot' => absurd hp hnot'⟩⟩⟩
      · have hrest : UpToFirst p (fun x => good x ∨ p a ∧ le a x = true) rest ↔
            UpToFirst p good rest :=
          UpToFirst.congr fun x _ => by simp [hp]
        exact ⟨fun h => ⟨hfirst fun hnot => (h.2 hnot).1, h.1,
            fun hnot => hrest.mpr ((h.2 hnot).2 hp)⟩,
          fun h => ⟨h.2.1, fun hnot => ⟨h.1.resolve_right hnot, fun _ => hrest.mp (h.2.2 hnot)⟩⟩⟩

/-- Of what is appended, only what is strictly greater precedes an element of the list. -/
theorem preceded_append_iff {xs ys : List α} {j : Nat} (hj : j < xs.length) :
    Preceded le p (xs ++ ys) j x ↔ Preceded le p xs j x ∨ ∃ y ∈ ys, p y ∧ le x y = false := by
  constructor
  · rintro ⟨i, y, hy, hp, hbefore⟩
    rcases Nat.lt_or_ge i xs.length with hi | hi
    · rw [List.getElem?_append_left hi] at hy
      exact .inl ⟨i, y, hy, hp, hbefore⟩
    · rw [List.getElem?_append_right hi] at hy
      rcases hbefore with hbelow | ⟨-, hlt⟩
      · exact .inr ⟨y, List.mem_of_getElem? hy, hp, hbelow⟩
      · omega
  · rintro (⟨i, y, hy, hp, hbefore⟩ | ⟨y, hy, hp, hbelow⟩)
    · have hi := (List.getElem?_eq_some_iff.mp hy).1
      exact ⟨i, y, by rw [List.getElem?_append_left hi, hy], hp, hbefore⟩
    · obtain ⟨i, hi⟩ := List.mem_iff_getElem?.mp hy
      refine ⟨xs.length + i, y, ?_, hp, .inl hbelow⟩
      rw [List.getElem?_append_right (Nat.le_add_right ..), Nat.add_sub_cancel_left, hi]

/-- Only the places of the first list matter if the second one is good. -/
theorem forall_places_append {xs ys : List α} (hgood : ∀ y ∈ ys, good y) :
    (∀ j x, (xs ++ ys)[j]? = some x → good x ∨ Preceded le p (xs ++ ys) j x) ↔
      ∀ j x, xs[j]? = some x →
        good x ∨ Preceded le p xs j x ∨ ∃ y ∈ ys, p y ∧ le x y = false := by
  constructor
  · intro h j x hx
    have hj := (List.getElem?_eq_some_iff.mp hx).1
    rw [← preceded_append_iff hj]
    exact h j x (by rw [List.getElem?_append_left hj, hx])
  · intro h j x hx
    rcases Nat.lt_or_ge j xs.length with hj | hj
    · rw [List.getElem?_append_left hj] at hx
      rw [preceded_append_iff hj]
      exact h j x hx
    · rw [List.getElem?_append_right hj] at hx
      exact .inl (hgood x (List.mem_of_getElem? hx))

end Stable

end MapProtocol
