import Mathlib.Data.List.Nodup

/-!
# Stable sorting

A stable sort puts two lists with the same elements into the same order, if those that tie stand in
the same order in both (`mergeSort_eq_of_ties`).
-/

namespace MapProtocol

variable {α : Type} {le : α → α → Bool} {l l' : List α} {a b : α}

/-- The one stands before the other in a list. -/
def Before (l : List α) (a b : α) : Prop := [a, b].Sublist l

theorem before_or_before (ha : a ∈ l) (hb : b ∈ l) (hne : a ≠ b) : Before l a b ∨ Before l b a := by
  induction l with
  | nil => cases ha
  | cons c l ih =>
      rcases List.mem_cons.mp ha with rfl | hal
      · have hbl := (List.mem_cons.mp hb).resolve_left (Ne.symm hne)
        exact .inl ((List.singleton_sublist.mpr hbl).cons_cons a)
      · rcases List.mem_cons.mp hb with rfl | hbl
        · exact .inr ((List.singleton_sublist.mpr hal).cons_cons b)
        · exact (ih hal hbl).imp (fun h => h.cons c) (fun h => h.cons c)

theorem Before.asymm (hnodup : l.Nodup) (h : Before l a b) : ¬ Before l b a := by
  induction l with
  | nil => cases h
  | cons c l ih =>
      obtain ⟨hc, hl⟩ := List.nodup_cons.mp hnodup
      intro h'
      cases h with
      | cons _ h =>
          cases h' with
          | cons _ h' => exact ih hl h h'
          | cons_cons _ h' => exact hc (h.subset (by simp))
      | cons_cons _ h =>
          cases h' with
          | cons _ h' => exact hc (h'.subset (by simp))
          | cons_cons _ h' => exact hc (h.subset (by simp))

section

variable (trans : ∀ a b c, le a b = true → le b c = true → le a c = true)
  (total : ∀ a b, (le a b || le b a) = true)

include trans total

/-- Elements that tie are left in their order. -/
theorem before_of_before_mergeSort (hnodup : l.Nodup) (h : Before (l.mergeSort le) a b)
    (htie : le b a = true) : Before l a b := by
  have hsorted : (l.mergeSort le).Nodup := (List.mergeSort_perm l le).nodup_iff.mpr hnodup
  have hmem : ∀ c ∈ [a, b], c ∈ l := fun c hc => (List.mergeSort_perm l le).subset (h.subset hc)
  have hne : a ≠ b := by
    rintro rfl
    exact Before.asymm hsorted h h
  refine (before_or_before (hmem a (by simp)) (hmem b (by simp)) hne).resolve_right ?_
  intro hback
  exact Before.asymm hsorted h (List.pair_sublist_mergeSort trans total htie hback)

/-- **Sorting is determined by the elements and the order of those that tie.** -/
theorem mergeSort_eq_of_ties (hnodup : l.Nodup) (hperm : l.Perm l')
    (hties : ∀ a b, le a b = true → le b a = true → Before l a b → Before l' a b) :
    l.mergeSort le = l'.mergeSort le := by
  have hnodup' : l'.Nodup := hperm.nodup_iff.mp hnodup
  have hpairs : ∀ k : List α, (∀ a b, le a b = true → le b a = true →
      Before (k.mergeSort le) a b → Before l' a b) →
      (k.mergeSort le).Pairwise fun a b => le a b = true ∧ (le b a = true → Before l' a b) := by
    intro k hk
    have hsorted := List.pairwise_mergeSort trans total k
    rw [List.pairwise_iff_forall_sublist] at hsorted ⊢
    intro a b hab
    exact ⟨hsorted hab, fun htie => hk a b (hsorted hab) htie hab⟩
  -- both are sorted by `le`, ties by the order in `l'`; that leaves one arrangement
  refine List.Perm.eq_of_pairwise ?_ (hpairs l ?_) (hpairs l' ?_) ?_
  · intro a b _ _ hab hba
    exact absurd (hba.2 hab.1) (Before.asymm hnodup' (hab.2 hba.1))
  · intro a b hle htie h
    exact hties a b hle htie (before_of_before_mergeSort trans total hnodup h htie)
  · intro a b _ htie h
    exact before_of_before_mergeSort trans total hnodup' h htie
  · exact ((List.mergeSort_perm l le).trans hperm).trans (List.mergeSort_perm l' le).symm

end

end MapProtocol
