import Mathlib.Data.List.Sort

/-!
# Descending lists

Lists whose keys fall strictly from one element to the next. Such a list is the only descending order
of its elements, so that sorting any arrangement of them gives it back (`sortDescending_eq`), and the
elements below one of them are those that follow it (`filter_below`).
-/

namespace MapProtocol

variable {α β κ : Type} [LinearOrder κ]

/-- The elements with the greatest key first; those of one key stay in order. -/
def sortDescending (key : α → κ) (xs : List α) : List α :=
  xs.mergeSort fun a b => decide (key b ≤ key a)

/-- The keys fall strictly. -/
def Descending (key : α → κ) (xs : List α) : Prop := xs.Pairwise fun a b => key b < key a

theorem sortDescending_perm (key : α → κ) (xs : List α) : (sortDescending key xs).Perm xs :=
  List.mergeSort_perm xs _

theorem pairwise_sortDescending (key : α → κ) (xs : List α) :
    (sortDescending key xs).Pairwise fun a b => key b ≤ key a := by
  have htrans (a b c : α) (hab : decide (key b ≤ key a) = true)
      (hbc : decide (key c ≤ key b) = true) : decide (key c ≤ key a) = true := by
    simp only [decide_eq_true_eq] at *
    exact le_trans hbc hab
  have htotal (a b : α) : (decide (key b ≤ key a) || decide (key a ≤ key b)) = true := by
    simpa using le_total (key b) (key a)
  have hsorted := List.pairwise_mergeSort htrans htotal xs
  exact hsorted.imp fun h => of_decide_eq_true h

namespace Descending

variable {key : α → κ} {xs ys : List α}

theorem eq_of_key_eq (h : Descending key xs) {a b : α} (ha : a ∈ xs) (hb : b ∈ xs)
    (hkey : key a = key b) : a = b := by
  induction xs with
  | nil => cases ha
  | cons x xs ih =>
      obtain ⟨hx, hxs⟩ := List.pairwise_cons.mp h
      rcases List.mem_cons.mp ha with rfl | hmem
      · rcases List.mem_cons.mp hb with rfl | hb
        · rfl
        · exact absurd hkey (ne_of_gt (hx b hb))
      · rcases List.mem_cons.mp hb with rfl | hb
        · exact absurd hkey (ne_of_lt (hx a hmem))
        · exact ih hxs hmem hb

/-- Sorting brings the elements back into their order. -/
theorem sortDescending_eq (h : Descending key xs) (hperm : ys.Perm xs) :
    sortDescending key ys = xs := by
  have hall := (sortDescending_perm key ys).trans hperm
  have hxs : xs.Pairwise fun a b => key b ≤ key a := h.imp le_of_lt
  refine List.Perm.eq_of_pairwise ?_ (pairwise_sortDescending key ys) hxs hall
  intro a b ha hb hle hge
  exact h.eq_of_key_eq (hall.subset ha) hb (le_antisymm hge hle)

/-- Below an element are those that follow it. -/
theorem filter_below {front rest : List α} {c : α} (h : Descending key (front ++ c :: rest)) :
    ((front ++ c :: rest).filter fun a => decide (key a < key c)) = rest := by
  obtain ⟨-, htail, hcross⟩ := List.pairwise_append.mp h
  obtain ⟨hrest, -⟩ := List.pairwise_cons.mp htail
  have hfront : (front.filter fun a => decide (key a < key c)) = [] := by
    rw [List.filter_eq_nil_iff]
    intro a ha
    have habove := hcross a ha c List.mem_cons_self
    simpa using le_of_lt habove
  have hbelow : (rest.filter fun a => decide (key a < key c)) = rest := by
    rw [List.filter_eq_self]
    intro a ha
    exact decide_eq_true (hrest a ha)
  rw [List.filter_append, hfront, List.nil_append, List.filter_cons_of_neg (by simp), hbelow]

theorem map_iff {f : β → α} {zs : List β} :
    Descending key (zs.map f) ↔ Descending (key ∘ f) zs :=
  List.pairwise_map

end Descending

end MapProtocol
