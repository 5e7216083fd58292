import Mathlib.Data.List.Basic

/-!
# Glob patterns

A glob over an alphabet is a word of letters and stars. A letter stands for itself and a star for
any run of letters that the alphabet lets it cover. `GlobMatches` says which words a glob matches,
`globMatch` decides it.
-/

namespace MapProtocol

variable {α : Type}

inductive GlobToken (α : Type) where
  | letter (a : α)
  | star
  deriving DecidableEq

inductive GlobMatches (covers : α → Bool) : List (GlobToken α) → List α → Prop where
  | nil : GlobMatches covers [] []
  | letter (a : α) {ts : List (GlobToken α)} {xs : List α} :
      GlobMatches covers ts xs → GlobMatches covers (.letter a :: ts) (a :: xs)
  | stop {ts : List (GlobToken α)} {xs : List α} :
      GlobMatches covers ts xs → GlobMatches covers (.star :: ts) xs
  | more (a : α) {ts : List (GlobToken α)} {xs : List α} :
      covers a = true → GlobMatches covers (.star :: ts) xs →
      GlobMatches covers (.star :: ts) (a :: xs)

/-- Is the word, after some run of covered letters, one that `accepts` accepts? -/
def afterRun (covers : α → Bool) (accepts : List α → Bool) : List α → Bool
  | []      => accepts []
  | x :: xs => accepts (x :: xs) || (covers x && afterRun covers accepts xs)

def globMatch [DecidableEq α] (covers : α → Bool) : List (GlobToken α) → List α → Bool
  | [], xs                  => xs.isEmpty
  | .letter _ :: _, []      => false
  | .letter a :: ts, x :: xs => decide (a = x) && globMatch covers ts xs
  | .star :: ts, xs         => afterRun covers (fun ys => globMatch covers ts ys) xs

/-! ## What a star covers -/

theorem afterRun_iff {covers : α → Bool} {accepts : List α → Bool} {xs : List α} :
    afterRun covers accepts xs = true ↔
      ∃ run rest, xs = run ++ rest ∧ (∀ a ∈ run, covers a = true) ∧ accepts rest = true := by
  induction xs with
  | nil => simp [afterRun]
  | cons x xs ih =>
      simp only [afterRun, Bool.or_eq_true, Bool.and_eq_true, ih]
      constructor
      · rintro (haccepts | ⟨hcovers, run, rest, rfl, hrun, hrest⟩)
        · exact ⟨[], x :: xs, rfl, by simp, haccepts⟩
        · refine ⟨x :: run, rest, rfl, fun a ha => ?_, hrest⟩
          rcases List.mem_cons.mp ha with rfl | ha
          · exact hcovers
          · exact hrun a ha
      · rintro ⟨run, rest, hsplit, hrun, hrest⟩
        cases run with
        | nil =>
            obtain rfl : x :: xs = rest := hsplit
            exact .inl hrest
        | cons y run =>
            obtain ⟨rfl, rfl⟩ := List.cons.inj hsplit
            refine .inr ⟨hrun x (List.mem_cons_self ..), run, rest, rfl, fun a ha => ?_, hrest⟩
            exact hrun a (List.mem_cons_of_mem _ ha)

theorem GlobMatches.star_iff {covers : α → Bool} {ts : List (GlobToken α)} {xs : List α} :
    GlobMatches covers (.star :: ts) xs ↔
      ∃ run rest, xs = run ++ rest ∧ (∀ a ∈ run, covers a = true) ∧ GlobMatches covers ts rest := by
  constructor
  · intro h
    generalize hword : GlobToken.star :: ts = word at h
    induction h with
    | nil => cases hword
    | letter => cases hword
    | stop hrest =>
        obtain ⟨-, rfl⟩ := List.cons.inj hword
        exact ⟨[], _, rfl, by simp, hrest⟩
    | more a hcovers _ ih =>
        obtain ⟨run, rest, rfl, hrun, hrest⟩ := ih hword
        refine ⟨a :: run, rest, rfl, fun b hb => ?_, hrest⟩
        rcases List.mem_cons.mp hb with rfl | hb
        · exact hcovers
        · exact hrun b hb
  · rintro ⟨run, rest, rfl, hrun, hrest⟩
    induction run with
    | nil => exact .stop hrest
    | cons a run ih =>
        refine .more a (hrun a (List.mem_cons_self ..)) (ih fun b hb => ?_)
        exact hrun b (List.mem_cons_of_mem _ hb)

theorem globMatch_iff [DecidableEq α] {covers : α → Bool} {ts : List (GlobToken α)} {xs : List α} :
    globMatch covers ts xs = true ↔ GlobMatches covers ts xs := by
  induction ts generalizing xs with
  | nil =>
      cases xs with
      | nil => simp [globMatch, GlobMatches.nil]
      | cons x xs =>
          simp only [globMatch, List.isEmpty_cons, Bool.false_eq_true, false_iff]
          intro h
          cases h
  | cons t ts ih =>
      cases t with
      | star =>
          simp only [globMatch, afterRun_iff, GlobMatches.star_iff, ih]
      | letter a =>
          cases xs with
          | nil =>
              simp only [globMatch, Bool.false_eq_true, false_iff]
              intro h
              cases h
          | cons x xs =>
              simp only [globMatch, Bool.and_eq_true, decide_eq_true_eq, ih]
              constructor
              · rintro ⟨rfl, h⟩
                exact .letter a h
              · intro h
                cases h with
                | letter _ h => exact ⟨rfl, h⟩

/-! ## Special globs -/

/-- A glob without a star matches its own letters only. -/
theorem GlobMatches.letters_iff {covers : α → Bool} {as xs : List α} :
    GlobMatches covers (as.map .letter) xs ↔ as = xs := by
  induction as generalizing xs with
  | nil =>
      constructor
      · intro h
        cases h
        rfl
      · rintro rfl
        exact .nil
  | cons a as ih =>
      constructor
      · intro h
        cases h with
        | letter _ h => rw [ih.mp h]
      · rintro rfl
        exact .letter a (ih.mpr rfl)

/-- A lone star matches whatever it covers. -/
theorem GlobMatches.star {covers : α → Bool} {xs : List α} (h : ∀ a ∈ xs, covers a = true) :
    GlobMatches covers [.star] xs :=
  GlobMatches.star_iff.mpr ⟨xs, [], (List.append_nil xs).symm, h, .nil⟩

/-- A star that may cover more matches no less. -/
theorem GlobMatches.mono {covers covers' : α → Bool} (hle : ∀ a, covers a = true → covers' a = true)
    {ts : List (GlobToken α)} {xs : List α} (h : GlobMatches covers ts xs) :
    GlobMatches covers' ts xs := by
  induction h with
  | nil => exact .nil
  | letter a _ ih => exact .letter a ih
  | stop _ ih => exact .stop ih
  | more a ha _ ih => exact .more a (hle a ha) ih

end MapProtocol
