import Mathlib.Data.List.Basic
import Mathlib.Data.List.Forall2

/-!
# First match

`FirstMatch p xs r` says that `r` is the first element of `xs` with `p`, or `none` where there is no
such element. `find?` computes it, and two predicates have the same first match when they agree on
the elements that the search meets.
-/

namespace MapProtocol

variable {α β : Type}
variable {p good good' : α → Prop} {xs : List α}

inductive FirstMatch (p : α → Prop) : List α → Option α → Prop where
  | nil : FirstMatch p [] none
  | here {x : α} {xs : List α} : p x → FirstMatch p (x :: xs) (some x)
  | later {x : α} {xs : List α} {r : Option α} :
      ¬ p x → FirstMatch p xs r → FirstMatch p (x :: xs) r

/-- Every element up to the first one with `p`, that one included, has `good`. -/
def UpToFirst (p good : α → Prop) : List α → Prop
  | []      => True
  | x :: xs => good x ∧ (¬ p x → UpToFirst p good xs)

theorem UpToFirst.mono (hle : ∀ x ∈ xs, good x → good' x) (h : UpToFirst p good xs) :
    UpToFirst p good' xs := by
  induction xs with
  | nil => trivial
  | cons x xs ih =>
      obtain ⟨hx, hxs⟩ := List.forall_mem_cons.mp hle
      exact ⟨hx h.1, fun hnot => ih hxs (h.2 hnot)⟩

theorem UpToFirst.and_iff :
    UpToFirst p (fun x => good x ∧ good' x) xs ↔ UpToFirst p good xs ∧ UpToFirst p good' xs := by
  induction xs with
  | nil => simp [UpToFirst]
  | cons x xs ih =>
      simp only [UpToFirst, ih]
      tauto

theorem UpToFirst.append_iff {p good : α → Prop} {xs ys : List α} :
    UpToFirst p good (xs ++ ys) ↔
      UpToFirst p good xs ∧ ((∀ x ∈ xs, ¬ p x) → UpToFirst p good ys) := by
  induction xs with
  | nil => simp [UpToFirst]
  | cons x xs ih =>
      simp only [List.cons_append, UpToFirst, ih, List.forall_mem_cons]
      tauto

theorem UpToFirst.of_forall (h : ∀ x ∈ xs, good x) :
    UpToFirst p good xs := by
  induction xs with
  | nil => trivial
  | cons x xs ih =>
      obtain ⟨hx, hxs⟩ := List.forall_mem_cons.mp h
      exact ⟨hx, fun _ => ih hxs⟩

theorem UpToFirst.congr (h : ∀ x ∈ xs, good x ↔ good' x) :
    UpToFirst p good xs ↔ UpToFirst p good' xs :=
  ⟨UpToFirst.mono fun x hx => (h x hx).mp, UpToFirst.mono fun x hx => (h x hx).mpr⟩

/-- A search that meets only elements on which the two agree finds with both, or with neither. -/
theorem UpToFirst.exists_congr {p q : α → Prop} (h : UpToFirst q (fun x => p x ↔ q x) xs) :
    (∃ x ∈ xs, p x) ↔ ∃ x ∈ xs, q x := by
  induction xs with
  | nil => simp
  | cons x xs ih =>
      obtain ⟨hx, hxs⟩ := h
      rw [List.exists_mem_cons_iff, List.exists_mem_cons_iff, hx]
      by_cases hq : q x
      · exact iff_of_true (.inl hq) (.inl hq)
      · exact or_congr_right (ih (hxs hq))

theorem UpToFirst.forall_congr {p q : α → Prop}
    (h : UpToFirst (fun x => ¬ q x) (fun x => p x ↔ q x) xs) : (∀ x ∈ xs, p x) ↔ ∀ x ∈ xs, q x := by
  have hnot := (h.mono fun _ _ hx => not_congr hx).exists_congr
  simpa using not_congr hnot

namespace FirstMatch

variable {p q : α → Prop} {xs : List α} {r s : Option α}

theorem of_find? {f : α → Bool} : FirstMatch (fun x => f x = true) xs (xs.find? f) := by
  induction xs with
  | nil => exact .nil
  | cons x xs ih =>
      cases hx : f x with
      | true =>
          rw [List.find?_cons_of_pos hx]
          exact .here hx
      | false =>
          rw [List.find?_cons_of_neg (by simp [hx])]
          exact .later (by simp [hx]) ih

theorem unique (hr : FirstMatch p xs r) (hs : FirstMatch p xs s) : r = s := by
  induction hr with
  | nil =>
      cases hs
      rfl
  | here hx =>
      cases hs with
      | here => rfl
      | later hnot => exact absurd hx hnot
  | later hnot _ ih =>
      cases hs with
      | here hx => exact absurd hx hnot
      | later _ hs => exact ih hs

theorem mem (h : FirstMatch p xs (some x)) : x ∈ xs := by
  generalize hr : some x = r at h
  induction h with
  | nil => cases hr
  | here => exact Option.some.inj hr ▸ List.mem_cons_self ..
  | later _ _ ih => exact List.mem_cons_of_mem _ (ih hr)

theorem holds (h : FirstMatch p xs (some x)) : p x := by
  generalize hr : some x = r at h
  induction h with
  | nil => cases hr
  | here hx => exact Option.some.inj hr ▸ hx
  | later _ _ ih => exact ih hr

theorem none_iff : FirstMatch p xs none ↔ ∀ x ∈ xs, ¬ p x := by
  constructor
  · intro h
    generalize hr : (none : Option α) = r at h
    induction h with
    | nil => simp
    | here => cases hr
    | later hnot _ ih => exact List.forall_mem_cons.mpr ⟨hnot, ih hr⟩
  · intro h
    induction xs with
    | nil => exact .nil
    | cons x xs ih =>
        obtain ⟨hx, hxs⟩ := List.forall_mem_cons.mp h
        exact .later hx (ih hxs)

theorem cons_some_iff {x y : α} :
    FirstMatch p (x :: xs) (some y) ↔ p x ∧ x = y ∨ ¬ p x ∧ FirstMatch p xs (some y) := by
  constructor
  · intro h
    cases h with
    | here hx => exact .inl ⟨hx, rfl⟩
    | later hnot h => exact .inr ⟨hnot, h⟩
  · rintro (⟨hx, rfl⟩ | ⟨hnot, h⟩)
    · exact .here hx
    · exact .later hnot h

/-- The search meets only elements on which the two agree. -/
theorem congr_upTo (hagree : UpToFirst q (fun x => p x ↔ q x) xs) :
    FirstMatch p xs r ↔ FirstMatch q xs r := by
  induction xs with
  | nil =>
      constructor <;> intro h <;> cases h <;> exact .nil
  | cons x xs ih =>
      obtain ⟨hx, hrest⟩ := hagree
      constructor
      · intro h
        cases h with
        | here hp => exact .here (hx.mp hp)
        | later hnot h =>
            have hq : ¬ q x := fun hq => hnot (hx.mpr hq)
            exact .later hq ((ih (hrest hq)).mp h)
      · intro h
        cases h with
        | here hq => exact .here (hx.mpr hq)
        | later hq h => exact .later (fun hp => hq (hx.mp hp)) ((ih (hrest hq)).mpr h)

/-- Where no element occurs twice, only predicates that agree so far have the same first match. -/
theorem agree_of_same (hxs : xs.Nodup) (hp : FirstMatch p xs r) (hq : FirstMatch q xs r) :
    UpToFirst q (fun x => p x ↔ q x) xs := by
  induction hp with
  | nil => trivial
  | here hx =>
      cases hq with
      | here hx' => exact ⟨iff_of_true hx hx', fun hnot => absurd hx' hnot⟩
      | later _ hq => exact absurd hq.mem (List.nodup_cons.mp hxs).1
  | later hnot hp ih =>
      cases hq with
      | here => exact absurd hp.mem (List.nodup_cons.mp hxs).1
      | later hnot' hq =>
          exact ⟨iff_of_false hnot hnot', fun _ => ih (List.nodup_cons.mp hxs).2 hq⟩

/-- A narrower predicate that still has the first match has the same one. -/
theorem narrow (hle : ∀ x ∈ xs, q x → p x) (h : FirstMatch p xs r)
    (hkept : ∀ x, r = some x → q x) : FirstMatch q xs r := by
  induction h with
  | nil => exact .nil
  | here hx => exact .here (hkept _ rfl)
  | later hnot _ ih =>
      obtain ⟨hx, hxs⟩ := List.forall_mem_cons.mp hle
      exact .later (fun hq => hnot (hx hq)) (ih hxs hkept)

/-- Two lists that correspond element by element have corresponding first matches. -/
theorem transfer {R : α → β → Prop} {q : β → Prop} {xs : List α} {ys : List β} {r : Option β}
    (hlists : List.Forall₂ R xs ys) (hiff : ∀ x y, R x y → (p x ↔ q y))
    (h : FirstMatch q ys r) : ∃ s, FirstMatch p xs s ∧ Option.Rel R s r := by
  induction hlists generalizing r with
  | nil =>
      cases h
      exact ⟨_, .nil, .none⟩
  | cons hxy _ ih =>
      cases h with
      | here hq => exact ⟨_, .here ((hiff _ _ hxy).mpr hq), .some hxy⟩
      | later hnot h =>
          obtain ⟨s, hs, hrel⟩ := ih h
          exact ⟨s, .later (fun hp => hnot ((hiff _ _ hxy).mp hp)) hs, hrel⟩

end FirstMatch

end MapProtocol
