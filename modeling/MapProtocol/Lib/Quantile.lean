import Mathlib.Order.Bounds.Basic
import Mathlib.Data.Rat.Floor

/-!
# Quantiles

The sample at a place of the samples in order is the least of those that enough samples do not
exceed; at the place `⌈q * n⌉ - 1` of `n` samples, enough are a `q`th of them.
-/

namespace MapProtocol

variable {α : Type} [LinearOrder α]

/-- The samples, least first. -/
def ascending (samples : List α) : List α := samples.mergeSort fun a b => decide (a ≤ b)

theorem ascending_perm (samples : List α) : (ascending samples).Perm samples :=
  List.mergeSort_perm _ _

theorem length_ascending (samples : List α) : (ascending samples).length = samples.length :=
  (ascending_perm samples).length_eq

theorem pairwise_ascending (samples : List α) : (ascending samples).Pairwise (· ≤ ·) := by
  refine (List.pairwise_mergeSort ?_ ?_ samples).imp of_decide_eq_true
  · intro a b c hab hbc
    exact decide_eq_true ((of_decide_eq_true hab).trans (of_decide_eq_true hbc))
  · intro a b
    simpa using le_total a b

/-- **The sample at place `i`** is the least that more than `i` samples do not exceed. -/
theorem isLeast_of_getElem?_ascending {samples : List α} {i : Nat} {q : α}
    (h : (ascending samples)[i]? = some q) :
    IsLeast {x | x ∈ samples ∧ i < samples.countP (· ≤ x)} q := by
  obtain ⟨hi, hq⟩ := List.getElem?_eq_some_iff.mp h
  have hsorted := List.pairwise_iff_getElem.mp (pairwise_ascending samples)
  have hcount : ∀ x, samples.countP (· ≤ x) = (ascending samples).countP (· ≤ x) :=
    fun x => ((ascending_perm samples).countP_eq _).symm
  constructor
  · refine ⟨(ascending_perm samples).mem_iff.mp (hq ▸ List.getElem_mem hi), ?_⟩
    -- The samples up to place `i` are none of them greater.
    have htake : ∀ x ∈ (ascending samples).take (i + 1), x ≤ q := by
      intro x hx
      obtain ⟨j, hj, rfl⟩ := List.mem_take_iff_getElem.mp hx
      rcases Nat.lt_or_ge j i with hlt | hge
      · exact hq ▸ hsorted j i _ hi hlt
      · obtain rfl : j = i := by omega
        exact hq.le
    have hlength : ((ascending samples).take (i + 1)).length = i + 1 := by
      rw [List.length_take]
      omega
    have hall : ((ascending samples).take (i + 1)).countP (· ≤ q) = i + 1 := by
      rw [List.countP_eq_length.mpr fun x hx => decide_eq_true (htake x hx), hlength]
    have hsub := (List.take_sublist (i + 1) (ascending samples)).countP_le (p := (· ≤ q))
    rw [hall, ← hcount] at hsub
    exact hsub
  · rintro x ⟨_, hx⟩
    by_contra hlt
    -- The samples from place `i` on are all of them greater than `x`.
    have hdrop : ((ascending samples).drop i).countP (· ≤ x) = 0 := by
      refine List.countP_eq_zero.mpr fun y hy => ?_
      obtain ⟨j, hj, rfl⟩ := List.mem_drop_iff_getElem.mp hy
      have hle : q ≤ (ascending samples)[i + j] := by
        rcases Nat.eq_zero_or_pos j with rfl | hpos
        · exact hq.ge
        · exact hq ▸ hsorted i (i + j) hi _ (by omega)
      simpa using (not_le.mp hlt).trans_le hle
    have hfew : samples.countP (· ≤ x) ≤ i := by
      rw [hcount, ← List.take_append_drop i (ascending samples), List.countP_append, hdrop,
        Nat.add_zero]
      exact List.countP_le_length.trans (List.length_take_le _ _)
    omega

/-- More than `⌈x⌉ - 1` are at least `x`. -/
theorem ceil_pred_lt_iff {x : Rat} (hx : 0 < x) (n : Nat) : (⌈x⌉ - 1).toNat < n ↔ x ≤ n := by
  have hpos : 0 < ⌈x⌉ := Int.ceil_pos.mpr hx
  have hcast : x ≤ n ↔ ⌈x⌉ ≤ (n : Int) := by
    rw [Int.ceil_le]
    norm_cast
  rw [hcast]
  omega

end MapProtocol
