import Mathlib.Logic.Relation

/-!
# Runs of a deterministic machine

A machine is a step function `σ → ℓ → σ`: a state and a label give the next state. The scheduler
that picks the labels is the only source of nondeterminism, so a *run* is a list of labels and
"for every interleaving" is "for every list of labels".

Two notions are developed. `run` folds a list of labels over a state, and `StepsMeet C` says that
every step of the run meets the condition `C`, read at the state *before* the step. The main rule
is `run_invariant`: what one step preserves under `C`, a run whose steps all meet `C` preserves.
-/

namespace MapProtocol.Transition

variable {σ ℓ : Type*}
variable {C : σ → ℓ → Prop} {I : σ → Prop} {s : σ} {ls : List ℓ}

/-- The state after the labels `ls`, from `s`. -/
def run (step : σ → ℓ → σ) (s : σ) (ls : List ℓ) : σ := ls.foldl step s

/-- Every step of the run of `ls` from `s` meets `C`, at the state before that step. -/
def StepsMeet (step : σ → ℓ → σ) (C : σ → ℓ → Prop) : σ → List ℓ → Prop
  | _, []      => True
  | s, l :: ls => C s l ∧ StepsMeet step C (step s l) ls

/-- Whether a concrete run meets a decidable condition is decided by running it. -/
instance instDecidableStepsMeet (step : σ → ℓ → σ) (C : σ → ℓ → Prop) [∀ s l, Decidable (C s l)] :
    (s : σ) → (ls : List ℓ) → Decidable (StepsMeet step C s ls)
  | _, []      => isTrue trivial
  | s, l :: ls =>
      have : Decidable (StepsMeet step C (step s l) ls) :=
        instDecidableStepsMeet step C (step s l) ls
      inferInstanceAs (Decidable (C s l ∧ StepsMeet step C (step s l) ls))

variable {step : σ → ℓ → σ}

@[simp] theorem run_nil (s : σ) : run step s [] = s := rfl

@[simp] theorem run_cons (s : σ) (l : ℓ) (ls : List ℓ) :
    run step s (l :: ls) = run step (step s l) ls := rfl

theorem run_append (s : σ) (ls ks : List ℓ) :
    run step s (ls ++ ks) = run step (run step s ls) ks := by
  simp [run, List.foldl_append]

@[simp] theorem stepsMeet_nil (s : σ) : StepsMeet step C s [] := trivial

@[simp] theorem stepsMeet_cons (s : σ) (l : ℓ) (ls : List ℓ) :
    StepsMeet step C s (l :: ls) ↔ C s l ∧ StepsMeet step C (step s l) ls := Iff.rfl

theorem stepsMeet_append (s : σ) (ls ks : List ℓ) :
    StepsMeet step C s (ls ++ ks) ↔
      StepsMeet step C s ls ∧ StepsMeet step C (run step s ls) ks := by
  induction ls generalizing s with
  | nil => simp
  | cons l ls ih => simp [ih, and_assoc]

/-- Weakening the condition keeps the run admissible. -/
theorem StepsMeet.mono {C D : σ → ℓ → Prop} (h : ∀ s l, C s l → D s l) {s : σ} {ls : List ℓ}
    (hm : StepsMeet step C s ls) : StepsMeet step D s ls := by
  induction ls generalizing s with
  | nil => trivial
  | cons l ls ih => exact ⟨h s l hm.1, ih hm.2⟩

/-- A condition that every step meets is met by every run. -/
theorem stepsMeet_of_forall (h : ∀ s l, C s l) (s : σ) (ls : List ℓ) :
    StepsMeet step C s ls := by
  induction ls generalizing s with
  | nil => trivial
  | cons l ls ih => exact ⟨h s l, ih _⟩

/-- **The invariant rule under a condition.** What one admissible step preserves, a run of
admissible steps preserves. -/
theorem run_invariant (hstep : ∀ s l, I s → C s l → I (step s l)) (hs : I s)
    (hm : StepsMeet step C s ls) : I (run step s ls) := by
  induction ls generalizing s with
  | nil => exact hs
  | cons l ls ih => exact ih (hstep s l hs hm.1) hm.2

/-- **The exact condition of a property.** Let `I` be an invariant under `C` that gives `J`, and let
a step from `I` that reaches `J` meet `C`. Then a run meets `C` step by step exactly when `J` holds
in every state it reaches. -/
theorem stepsMeet_iff_of {I J : σ → Prop} (hJ : ∀ s, I s → J s)
    (hI : ∀ s l, I s → C s l → I (step s l)) (hC : ∀ s l, I s → J (step s l) → C s l) (hs : I s) :
    StepsMeet step C s ls ↔ ∀ ks, ks <+: ls → J (run step s ks) := by
  induction ls generalizing s with
  | nil =>
      refine ⟨fun _ ks hks => ?_, fun _ => trivial⟩
      rw [List.prefix_nil.mp hks]
      exact hJ s hs
  | cons l ls ih =>
      constructor
      · rintro ⟨hc, hrest⟩ ks hks
        cases ks with
        | nil => exact hJ s hs
        | cons k ks =>
            obtain ⟨rfl, htail⟩ := List.cons_prefix_cons.mp hks
            exact (ih (hI s k hs hc)).mp hrest ks htail
      · intro hall
        have hc : C s l := hC s l hs (hall [l] (by simp))
        refine ⟨hc, (ih (hI s l hs hc)).mpr fun ks hks => ?_⟩
        exact hall (l :: ks) (List.cons_prefix_cons.mpr ⟨rfl, hks⟩)

/-- **The exact condition of an invariant.** Where one step preserves `I` exactly under `C`, a run
meets `C` step by step exactly when `I` holds in every state it reaches. -/
theorem stepsMeet_iff (hstep : ∀ s l, I s → (I (step s l) ↔ C s l)) (hs : I s) :
    StepsMeet step C s ls ↔ ∀ ks, ks <+: ls → I (run step s ks) :=
  stepsMeet_iff_of (fun _ h => h) (fun s l h => (hstep s l h).mpr) (fun s l h => (hstep s l h).mp) hs

/-- A run meets `C` step by step exactly when each of its steps does. -/
theorem stepsMeet_iff_forall :
    StepsMeet step C s ls ↔ ∀ ks l, ks ++ [l] <+: ls → C (run step s ks) l := by
  induction ls generalizing s with
  | nil => simp
  | cons a ls ih =>
      rw [stepsMeet_cons, ih]
      constructor
      · rintro ⟨hfirst, hrest⟩ ks l hks
        cases ks with
        | nil =>
            obtain ⟨rfl, -⟩ := List.cons_prefix_cons.mp hks
            exact hfirst
        | cons k ks =>
            obtain ⟨rfl, htail⟩ := List.cons_prefix_cons.mp hks
            exact hrest ks l htail
      · intro hall
        refine ⟨hall [] a (by simp), fun ks l hks => ?_⟩
        exact hall (a :: ks) l (List.cons_prefix_cons.mpr ⟨rfl, hks⟩)

theorem StepsMeet.of_prefix {ls ks : List ℓ} (h : StepsMeet step C s ls) (hks : ks <+: ls) :
    StepsMeet step C s ks := by
  obtain ⟨js, rfl⟩ := hks
  exact ((stepsMeet_append s ks js).mp h).1

/-- **The exact condition of a relation.** Where one step keeps the preorder `R` exactly under `C`,
a run meets `C` step by step exactly when any two of its states, taken in order, are related. -/
theorem stepsMeet_iff_kept {R : σ → σ → Prop} (hrefl : ∀ s, R s s)
    (htrans : ∀ a b c, R a b → R b c → R a c) (hstep : ∀ s l, R s (step s l) ↔ C s l) (s : σ)
    (ls : List ℓ) :
    StepsMeet step C s ls ↔
      ∀ ks js, ks ++ js <+: ls → R (run step s ks) (run step s (ks ++ js)) := by
  have hrun : ∀ (js : List ℓ) (s : σ), StepsMeet step C s js → R s (run step s js) := by
    intro js
    induction js with
    | nil => exact fun s _ => hrefl s
    | cons j js ih => exact fun s h => htrans _ _ _ ((hstep s j).mpr h.1) (ih _ h.2)
  constructor
  · intro h ks js hprefix
    have hmeet := (stepsMeet_append s ks js).mp (h.of_prefix hprefix)
    rw [run_append]
    exact hrun js _ hmeet.2
  · intro hall
    induction ls generalizing s with
    | nil => trivial
    | cons l ls ih =>
        refine ⟨(hstep s l).mp (hall [] [l] (by simp)), ih _ fun ks js hprefix => ?_⟩
        exact hall (l :: ks) js (List.cons_prefix_cons.mpr ⟨rfl, hprefix⟩)

/-- **The rule of a kept relation.** Where admissible steps keep the invariant `I` and the preorder
`R`, the ends of an admissible run are related. -/
theorem run_related {C : σ → ℓ → Prop} {I : σ → Prop} {R : σ → σ → Prop} (hrefl : ∀ s, R s s)
    (htrans : ∀ a b c, R a b → R b c → R a c)
    (hstep : ∀ s l, I s → C s l → I (step s l) ∧ R s (step s l)) {s : σ} {ls : List ℓ} (hs : I s)
    (hm : StepsMeet step C s ls) : I (run step s ls) ∧ R s (run step s ls) := by
  induction ls generalizing s with
  | nil => exact ⟨hs, hrefl s⟩
  | cons l ls ih =>
      obtain ⟨hnext, hrelated⟩ := hstep s l hs hm.1
      obtain ⟨hlast, hrest⟩ := ih hnext hm.2
      exact ⟨hlast, htrans _ _ _ hrelated hrest⟩

/-- **The invariant rule.** What every step preserves, every run preserves. -/
theorem run_preserves (hstep : ∀ s l, I s → I (step s l)) (ls : List ℓ) (hs : I s) :
    I (run step s ls) :=
  run_invariant (C := fun _ _ => True) (fun s l h _ => hstep s l h) hs
    (stepsMeet_of_forall (fun _ _ => trivial) s ls)

end MapProtocol.Transition
