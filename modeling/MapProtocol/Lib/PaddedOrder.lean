import Mathlib.Data.List.Sort
import Mathlib.Order.Compare

/-!
# Lists filled up with zeros

`comparePadded` compares two lists element by element from the front, as if each were followed by
zeros for ever. It is a total preorder, and says which of two sequences is less at the first place
where they differ (`comparePadded_eq_lt_iff`).

In a list that is sorted by a total preorder, the greatest first, the first element that a test takes
is the greatest one that it takes (`find?_sortedBy`).
-/

namespace MapProtocol

open Std (TransCmp OrientedCmp OrientedOrd ReflCmp)

variable {α : Type}

/-- The element at place `i` of the list and the zeros behind it. -/
def paddedAt (zero : α) (xs : List α) (i : Nat) : α := xs[i]?.getD zero

theorem paddedAt_zero (zero : α) (xs : List α) : paddedAt zero xs 0 = xs.head?.getD zero := by
  cases xs <;> rfl

theorem paddedAt_succ (zero : α) (xs : List α) (i : Nat) :
    paddedAt zero xs (i + 1) = paddedAt zero xs.tail i := by
  simp [paddedAt]

section Padded

variable [LinearOrder α]

def comparePadded (zero : α) : List α → List α → Ordering
  | [], []           => .eq
  | a :: as, []      => (compare a zero).then (comparePadded zero as [])
  | [], b :: bs      => (compare zero b).then (comparePadded zero [] bs)
  | a :: as, b :: bs => (compare a b).then (comparePadded zero as bs)

theorem comparePadded_step (zero : α) (xs ys : List α) :
    comparePadded zero xs ys =
      (compare (xs.head?.getD zero) (ys.head?.getD zero)).then
        (comparePadded zero xs.tail ys.tail) := by
  cases xs <;> cases ys <;> simp [comparePadded]

theorem comparePadded_eq_swap (zero : α) (xs ys : List α) :
    comparePadded zero xs ys = (comparePadded zero ys xs).swap := by
  induction xs, ys using comparePadded.induct with
  | case1 => simp [comparePadded]
  | case2 a as ih => simp only [comparePadded, Ordering.swap_then, ← ih, ← OrientedOrd.eq_swap]
  | case3 b bs ih => simp only [comparePadded, Ordering.swap_then, ← ih, ← OrientedOrd.eq_swap]
  | case4 a as b bs ih => simp only [comparePadded, Ordering.swap_then, ← ih, ← OrientedOrd.eq_swap]

/-- The two are equal at every place. -/
theorem comparePadded_eq_eq_iff {zero : α} {xs ys : List α} :
    comparePadded zero xs ys = .eq ↔ ∀ i, paddedAt zero xs i = paddedAt zero ys i := by
  induction hn : max xs.length ys.length generalizing xs ys with
  | zero =>
      obtain ⟨hxs, hys⟩ : xs = [] ∧ ys = [] := by
        rw [← List.length_eq_zero_iff, ← List.length_eq_zero_iff]
        omega
      subst hxs hys
      simp [comparePadded]
  | succ n ih =>
      rw [comparePadded_step, Ordering.then_eq_eq, compare_eq_iff_eq,
        ih (by simp only [List.length_tail]; omega)]
      constructor
      · rintro ⟨hhead, htail⟩ i
        cases i with
        | zero => rw [paddedAt_zero, paddedAt_zero, hhead]
        | succ i => rw [paddedAt_succ, paddedAt_succ, htail]
      · intro h
        refine ⟨?_, fun i => ?_⟩
        · rw [← paddedAt_zero, ← paddedAt_zero, h]
        · rw [← paddedAt_succ, ← paddedAt_succ, h]

/-- **The first place that differs decides.** -/
theorem comparePadded_eq_lt_iff {zero : α} {xs ys : List α} :
    comparePadded zero xs ys = .lt ↔
      ∃ i, (∀ j < i, paddedAt zero xs j = paddedAt zero ys j) ∧
        paddedAt zero xs i < paddedAt zero ys i := by
  induction hn : max xs.length ys.length generalizing xs ys with
  | zero =>
      obtain ⟨hxs, hys⟩ : xs = [] ∧ ys = [] := by
        rw [← List.length_eq_zero_iff, ← List.length_eq_zero_iff]
        omega
      subst hxs hys
      simp [comparePadded]
  | succ n ih =>
      rw [comparePadded_step, Ordering.then_eq_lt, compare_lt_iff_lt, compare_eq_iff_eq,
        ih (by simp only [List.length_tail]; omega)]
      constructor
      · rintro (hhead | ⟨hhead, i, hsame, hless⟩)
        · exact ⟨0, fun j hj => absurd hj (Nat.not_lt_zero j), by simpa only [paddedAt_zero]⟩
        · refine ⟨i + 1, fun j hj => ?_, by simpa only [paddedAt_succ]⟩
          cases j with
          | zero => rw [paddedAt_zero, paddedAt_zero, hhead]
          | succ j => rw [paddedAt_succ, paddedAt_succ, hsame j (Nat.lt_of_succ_lt_succ hj)]
      · rintro ⟨i, hsame, hless⟩
        cases i with
        | zero => exact .inl (by simpa only [paddedAt_zero] using hless)
        | succ i =>
            refine .inr ⟨?_, i, fun j hj => ?_, by simpa only [paddedAt_succ] using hless⟩
            · rw [← paddedAt_zero, ← paddedAt_zero, hsame 0 (Nat.succ_pos i)]
            · rw [← paddedAt_succ, ← paddedAt_succ, hsame (j + 1) (Nat.succ_lt_succ hj)]

instance (zero : α) : TransCmp (comparePadded zero) where
  eq_swap := comparePadded_eq_swap zero _ _
  isLE_trans {xs ys zs} hxy hyz := by
    rw [Ordering.isLE_iff_eq_lt_or_eq_eq] at *
    rw [comparePadded_eq_lt_iff, comparePadded_eq_eq_iff] at *
    rcases hxy with ⟨i, hsame, hless⟩ | hequal
    · rcases hyz with ⟨j, hsame', hless'⟩ | hequal'
      · -- the earlier of the two places decides
        left
        rcases lt_trichotomy i j with hij | rfl | hji
        · exact ⟨i, fun k hk => (hsame k hk).trans (hsame' k (hk.trans hij)),
            hless.trans_eq (hsame' i hij)⟩
        · exact ⟨i, fun k hk => (hsame k hk).trans (hsame' k hk), hless.trans hless'⟩
        · exact ⟨j, fun k hk => (hsame k (hk.trans hji)).trans (hsame' k hk),
            (hsame j hji).trans_lt hless'⟩
      · exact .inl ⟨i, fun k hk => (hsame k hk).trans (hequal' k), hless.trans_eq (hequal' i)⟩
    · rcases hyz with ⟨j, hsame', hless'⟩ | hequal'
      · exact .inl ⟨j, fun k hk => (hequal k).trans (hsame' k hk), (hequal j).trans_lt hless'⟩
      · exact .inr fun k => (hequal k).trans (hequal' k)

end Padded

/-! ## Sorted by a comparison -/

/-- The greatest elements first; those that compare equal stay in order. -/
def sortedBy (cmp : α → α → Ordering) (xs : List α) : List α :=
  xs.mergeSort fun a b => (cmp b a).isLE

section Sorted

variable {cmp : α → α → Ordering} {xs : List α} {p : α → Bool}

theorem mem_sortedBy {a : α} : a ∈ sortedBy cmp xs ↔ a ∈ xs :=
  (List.mergeSort_perm xs _).mem_iff

theorem pairwise_sortedBy [TransCmp cmp] (xs : List α) :
    (sortedBy cmp xs).Pairwise fun a b => (cmp b a).isLE = true := by
  refine List.pairwise_mergeSort (fun a b c hab hbc => ?_) (fun a b => ?_) xs
  · exact TransCmp.isLE_trans hbc hab
  · have hswap : cmp b a = (cmp a b).swap := OrientedCmp.eq_swap
    rw [hswap]
    cases cmp a b <;> rfl

/-- Sorting only asks how the elements compare. -/
theorem sortedBy_congr {cmp' : α → α → Ordering} (h : ∀ a ∈ xs, ∀ b ∈ xs, cmp a b = cmp' a b) :
    sortedBy cmp xs = sortedBy cmp' xs := by
  have hmap := List.map_mergeSort (r := fun a b => (cmp b a).isLE) (s := fun a b => (cmp' b a).isLE)
    (f := id) (l := xs) fun a ha b hb => by rw [h b hb a ha, id, id]
  simpa only [List.map_id, sortedBy] using hmap

/-- The element is the greatest in the list that the test takes. -/
structure IsBest (cmp : α → α → Ordering) (p : α → Bool) (xs : List α) (a : α) : Prop where
  mem   : a ∈ xs
  takes : p a = true
  best  : ∀ b ∈ xs, p b = true → (cmp b a).isLE = true

theorem find?_sortedBy [TransCmp cmp] {a : α} (h : (sortedBy cmp xs).find? p = some a) :
    IsBest cmp p xs a := by
  obtain ⟨htakes, front, rest, hsplit, hfront⟩ := List.find?_eq_some_iff_append.mp h
  have hmem : a ∈ sortedBy cmp xs := List.mem_of_find?_eq_some h
  refine ⟨mem_sortedBy.mp hmem, htakes, fun b hb hpb => ?_⟩
  have hsorted : (sortedBy cmp xs).Pairwise fun a b => (cmp b a).isLE = true :=
    pairwise_sortedBy xs
  have hb' : b ∈ sortedBy cmp xs := mem_sortedBy.mpr hb
  rw [hsplit] at hsorted hb'
  obtain ⟨-, htail, -⟩ := List.pairwise_append.mp hsorted
  rcases List.mem_append.mp hb' with hbefore | hafter
  · have hnot := hfront b hbefore
    rw [hpb] at hnot
    cases hnot
  · rcases List.mem_cons.mp hafter with rfl | hrest
    · exact ReflCmp.isLE_rfl
    · exact (List.pairwise_cons.mp htail).1 b hrest

theorem find?_sortedBy_eq_none :
    (sortedBy cmp xs).find? p = none ↔ ∀ a ∈ xs, ¬ p a = true := by
  rw [List.find?_eq_none]
  simp only [mem_sortedBy]

theorem IsBest.congr {cmp' : α → α → Ordering} {q : α → Bool} {ys : List α} {a : α}
    (h : IsBest cmp p xs a) (hmem : ∀ b, b ∈ ys ↔ b ∈ xs) (htakes : ∀ b ∈ xs, q b = p b)
    (hcmp : ∀ b ∈ xs, cmp' b a = cmp b a) : IsBest cmp' q ys a where
  mem := (hmem a).mpr h.mem
  takes := (htakes a h.mem).trans h.takes
  best b hb hqb := by
    have hb' := (hmem b).mp hb
    rw [hcmp b hb']
    exact h.best b hb' ((htakes b hb').symm.trans hqb)

/-- Two best elements compare equal. -/
theorem IsBest.equal [TransCmp cmp] {a b : α} (ha : IsBest cmp p xs a) (hb : IsBest cmp p xs b) :
    cmp a b = .eq :=
  OrientedCmp.isLE_antisymm (hb.best a ha.mem ha.takes) (ha.best b hb.mem hb.takes)

end Sorted

end MapProtocol
