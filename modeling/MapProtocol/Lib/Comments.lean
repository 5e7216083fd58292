import Mathlib.Data.List.Infix

/-!
# Block comments

`commentEnd` reads on behind a `/*` and gives what follows the comment. In some languages comments nest,
in others the first `*/` ends them (`nests`). A text `StaysOpen` when a comment that holds it is as open
behind it as before, which in a flat language is to have no `*/` (`staysOpen_flat_iff`).
-/

namespace MapProtocol

/-- Within a comment: how many more are open around the place, and the character before it, unless that
is part of a mark. -/
abbrev CommentPlace := Nat × Option Char

/-- The place behind a character, unless the comment ends with it. -/
def commentStep (nests : Bool) (place : CommentPlace) (c : Char) : Option CommentPlace :=
  if place.2 = some '*' ∧ c = '/' then
    match place.1 with
    | 0         => none
    | depth + 1 => some (depth, none)
  else if nests ∧ place.2 = some '/' ∧ c = '*' then some (place.1 + 1, none)
  else some (place.1, some c)

def commentEnd (nests : Bool) (place : CommentPlace) : List Char → Option (List Char)
  | []      => none
  | c :: cs =>
      match commentStep nests place c with
      | none       => some cs
      | some place => commentEnd nests place cs

/-- The place behind the text, unless the comment ends in it. -/
def openAfter (nests : Bool) (place : CommentPlace) : List Char → Option CommentPlace
  | []      => some place
  | c :: cs => (commentStep nests place c).bind fun place => openAfter nests place cs

variable {nests : Bool} {place : CommentPlace}

theorem commentEnd_append_of_open {xs : List Char} {place' : CommentPlace}
    (h : openAfter nests place xs = some place') (ys : List Char) :
    commentEnd nests place (xs ++ ys) = commentEnd nests place' ys := by
  induction xs generalizing place with
  | nil =>
      obtain rfl := Option.some.inj h
      rfl
  | cons c xs ih =>
      rw [openAfter] at h
      rw [List.cons_append, commentEnd]
      cases hstep : commentStep nests place c with
      | none => simp [hstep] at h
      | some next =>
          rw [hstep] at h
          exact ih h

theorem commentEnd_append_of_closed {xs : List Char} (h : openAfter nests place xs = none) :
    ∃ rest, ∀ ys, commentEnd nests place (xs ++ ys) = some (rest ++ ys) := by
  induction xs generalizing place with
  | nil => cases h
  | cons c xs ih =>
      rw [openAfter] at h
      cases hstep : commentStep nests place c with
      | none => exact ⟨xs, fun ys => by rw [List.cons_append, commentEnd, hstep]⟩
      | some next =>
          rw [hstep] at h
          obtain ⟨rest, hrest⟩ := ih h
          exact ⟨rest, fun ys => by rw [List.cons_append, commentEnd, hstep]; exact hrest ys⟩

/-- Behind the text a comment is as open as before it. -/
def StaysOpen (nests : Bool) (text : List Char) : Prop :=
  ∃ before, openAfter nests (0, some ' ') text = some (0, before)

/-- **Between blanks, the comment around a text ends with the mark behind it exactly when the text stays
open.** -/
theorem commentEnd_iff_staysOpen {text : List Char} :
    commentEnd nests (0, none) (' ' :: (text ++ [' ', '*', '/'])) = some [] ↔ StaysOpen nests text := by
  have hblank (place : CommentPlace) : commentStep nests place ' ' = some (place.1, some ' ') := by
    simp [commentStep]
  have hstar (depth : Nat) : commentStep nests (depth, some ' ') '*' = some (depth, some '*') := by
    simp [commentStep]
  rw [commentEnd, hblank]
  dsimp only
  cases hopen : openAfter nests (0, some ' ') text with
  | none =>
      obtain ⟨rest, hrest⟩ := commentEnd_append_of_closed hopen
      rw [hrest]
      exact iff_of_false (by simp) fun ⟨_, h⟩ => by rw [hopen] at h; cases h
  | some place =>
      obtain ⟨depth, before⟩ := place
      rw [commentEnd_append_of_open hopen, commentEnd, hblank]
      dsimp only
      rw [commentEnd, hstar]
      dsimp only
      unfold StaysOpen
      rw [hopen]
      cases depth with
      | zero => exact iff_of_true (by simp [commentEnd, commentStep]) ⟨before, rfl⟩
      | succ depth => exact iff_of_false (by simp [commentEnd, commentStep]) (by simp)

/-- In a flat language, a text stays open exactly when no `*/` is in it. -/
theorem staysOpen_flat_iff {text : List Char} : StaysOpen false text ↔ ¬ ['*', '/'] <:+: text := by
  have hgeneral : ∀ before : Char, (∃ after, openAfter false (0, some before) text = some (0, after)) ↔
      ¬ ['*', '/'] <:+: before :: text := by
    induction text with
    | nil => intro before; simp [openAfter, List.infix_cons_iff]
    | cons c cs ih =>
        intro before
        rw [openAfter, List.infix_cons_iff, not_or, ← ih c]
        by_cases hclose : before = '*' ∧ c = '/'
        · obtain ⟨rfl, rfl⟩ := hclose
          simp [commentStep]
        · have hstep : commentStep false (0, some before) c = some (0, some c) := by
            simp [commentStep, hclose]
          have hcloses : ¬ ['*', '/'] <+: before :: c :: cs := by
            simpa [eq_comm] using hclose
          rw [hstep]
          simp [hcloses]
  unfold StaysOpen
  rw [hgeneral ' ', List.infix_cons_iff]
  simp

end MapProtocol
