import Mathlib.Algebra.Ring.Nat
import Mathlib.Data.List.Forall2
import Mathlib.Data.List.Nodup

/-!
# Jobs served in turn

A queue of jobs is served from its head. A job that is not done after its turn goes behind the others.
The jobs share a state, of which each reads and changes its own view. So what a job comes to does not
depend on the others: serving the queue ends exactly if each job, served alone, gets done, and leaves
of each the view that it has then (`serves_iff`).
-/

namespace MapProtocol

/-- Jobs that act on a state, each on its own view. -/
structure Jobs (α ι ω σ : Type) where
  key   : α → ι
  act   : α → ω → ω × Bool
  view  : α → ω → σ
  turn  : α → σ → σ × Bool
  own   : ∀ j w, (view j (act j w).1, (act j w).2) = turn j (view j w)
  frame : ∀ j k w, key j ≠ key k → view k (act j w).1 = view k w

namespace Jobs

variable {α ι ω σ : Type} (jobs : Jobs α ι ω σ)

/-- Serve a queue, with at most `fuel` turns. -/
def serve : Nat → List α → ω → Option ω
  | _, [], w            => some w
  | 0, _ :: _, _        => none
  | fuel + 1, j :: js, w =>
      match jobs.act j w with
      | (w, true)  => serve fuel js w
      | (w, false) => serve fuel (js ++ [j]) w

/-- Served alone, the job is done after so many turns. -/
inductive Ends (j : α) : Nat → σ → σ → Prop where
  | done {v v' : σ} : jobs.turn j v = (v', true) → Ends j 1 v v'
  | again {n : Nat} {v v' v'' : σ} : jobs.turn j v = (v', false) → Ends j n v' v'' →
      Ends j (n + 1) v v''

variable {jobs} {j k : α} {js : List α} {w w' : ω} {v v' v'' : σ} {n m fuel : Nat}

theorem Ends.pos (h : jobs.Ends j n v v') : 0 < n := by
  cases h <;> omega

theorem Ends.unique (h : jobs.Ends j n v v') (h' : jobs.Ends j m v v'') : v' = v'' := by
  induction h generalizing m with
  | done hdone =>
      cases h' with
      | done hdone' => exact congrArg Prod.fst (hdone.symm.trans hdone')
      | again hagain => cases hdone.symm.trans hagain
  | again hagain _ ih =>
      cases h' with
      | done hdone => cases hagain.symm.trans hdone
      | again hagain' h' =>
          cases hagain.symm.trans hagain'
          exact ih h'

/-- The turn that a job's view takes as the job acts. -/
theorem turn_of_act {done : Bool} (h : jobs.act j w = (w', done)) :
    jobs.turn j (jobs.view j w) = (jobs.view j w', done) := by
  rw [← jobs.own, h]

theorem view_of_act {done : Bool} (h : jobs.act j w = (w', done)) (hne : jobs.key j ≠ jobs.key k) :
    jobs.view k w' = jobs.view k w := by
  have hframe := jobs.frame j k w hne
  rwa [h] at hframe

theorem key_ne_of_nodup (hnodup : ((j :: js).map jobs.key).Nodup) (hk : k ∈ js) :
    jobs.key j ≠ jobs.key k := by
  intro heq
  exact (List.nodup_cons.mp hnodup).1 (heq ▸ List.mem_map_of_mem hk)

theorem nodup_rotate (hnodup : ((j :: js).map jobs.key).Nodup) :
    ((js ++ [j]).map jobs.key).Nodup :=
  ((List.perm_append_singleton j js).map jobs.key).nodup_iff.mpr hnodup

/-- Serving a queue changes the view of its own jobs only. -/
theorem view_of_serve (h : jobs.serve fuel js w = some w') (hk : jobs.key k ∉ js.map jobs.key) :
    jobs.view k w' = jobs.view k w := by
  induction fuel generalizing js w with
  | zero =>
      cases js with
      | nil =>
          cases h
          rfl
      | cons j js => cases h
  | succ fuel ih =>
      cases js with
      | nil =>
          cases h
          rfl
      | cons j js =>
          obtain ⟨hj, hjs⟩ := not_or.mp (mt List.mem_cons.mpr hk)
          rw [serve] at h
          split at h
          · rename_i w₁ hact
            rw [ih h hjs, view_of_act hact (Ne.symm hj)]
          · rename_i w₁ hact
            have hrotate : jobs.key k ∉ (js ++ [j]).map jobs.key := by
              rw [((List.perm_append_singleton j js).map jobs.key).mem_iff]
              exact hk
            rw [ih h hrotate, view_of_act hact (Ne.symm hj)]

/-- **When serving ends**, each job was done, as if it had been served alone. -/
theorem ends_of_serve (hnodup : (js.map jobs.key).Nodup) (h : jobs.serve fuel js w = some w')
    (hk : k ∈ js) : ∃ n, jobs.Ends k n (jobs.view k w) (jobs.view k w') := by
  induction fuel generalizing js w with
  | zero =>
      cases js with
      | nil => cases hk
      | cons j js => cases h
  | succ fuel ih =>
      cases js with
      | nil => cases hk
      | cons j js =>
          have htail : (js.map jobs.key).Nodup := (List.nodup_cons.mp hnodup).2
          rw [serve] at h
          split at h
          · rename_i w₁ hact
            rcases List.mem_cons.mp hk with rfl | hk
            · -- the view that it is left with stays
              have hview := view_of_serve h (List.nodup_cons.mp hnodup).1
              rw [hview]
              exact ⟨1, .done (turn_of_act hact)⟩
            · have hends := ih htail h hk
              rwa [view_of_act hact (key_ne_of_nodup hnodup hk)] at hends
          · rename_i w₁ hact
            rcases List.mem_cons.mp hk with rfl | hk
            · obtain ⟨n, hends⟩ := ih (nodup_rotate hnodup) h (by simp)
              exact ⟨n + 1, .again (turn_of_act hact) hends⟩
            · have hends := ih (nodup_rotate hnodup) h (List.mem_append_left _ hk)
              rwa [view_of_act hact (key_ne_of_nodup hnodup hk)] at hends

/-- How many turns each job of the queue takes alone. -/
def TakeTurns (jobs : Jobs α ι ω σ) (js : List α) (ns : List Nat) (w : ω) : Prop :=
  List.Forall₂ (fun j n => ∃ v, jobs.Ends j n (jobs.view j w) v) js ns

theorem TakeTurns.of_view {ns : List Nat} (h : jobs.TakeTurns js ns w)
    (hview : ∀ k ∈ js, jobs.view k w' = jobs.view k w) : jobs.TakeTurns js ns w' := by
  induction h with
  | nil => exact .nil
  | cons hj _ ih =>
      obtain ⟨hfirst, hrest⟩ := List.forall_mem_cons.mp hview
      refine .cons ?_ (ih hrest)
      rwa [hfirst]

/-- The turns that the jobs take alone are enough to serve them all. -/
theorem serve_of_takeTurns {ns : List Nat} (hnodup : (js.map jobs.key).Nodup)
    (h : jobs.TakeTurns js ns w) (hfuel : ns.sum = fuel) : ∃ w', jobs.serve fuel js w = some w' := by
  induction fuel generalizing js ns w with
  | zero =>
      cases h with
      | nil => exact ⟨w, rfl⟩
      | cons hj _ =>
          obtain ⟨v, hends⟩ := hj
          have hpos := hends.pos
          rw [List.sum_cons] at hfuel
          omega
  | succ fuel ih =>
      cases h with
      | nil => exact ⟨w, rfl⟩
      | @cons j n js ns hj hjs =>
          obtain ⟨v, hends⟩ := hj
          rw [List.sum_cons] at hfuel
          rw [serve]
          split
          · rename_i w₁ hact
            have hview : ∀ k ∈ js, jobs.view k w₁ = jobs.view k w := fun k hk =>
              view_of_act hact (key_ne_of_nodup hnodup hk)
            -- the job is done, so this was its only turn
            have hsum : ns.sum = fuel := by
              cases hends with
              | done _ => omega
              | again hagain _ => cases hagain.symm.trans (turn_of_act hact)
            exact ih (List.nodup_cons.mp hnodup).2 (TakeTurns.of_view hjs hview) hsum
          · rename_i w₁ hact
            have hview : ∀ k ∈ js, jobs.view k w₁ = jobs.view k w := fun k hk =>
              view_of_act hact (key_ne_of_nodup hnodup hk)
            cases hends with
            | done hdone => cases hdone.symm.trans (turn_of_act hact)
            | @again m _ v' _ hagain hends =>
                cases hagain.symm.trans (turn_of_act hact)
                -- it goes to the back with one turn fewer to take
                refine ih (nodup_rotate hnodup) (?_ : jobs.TakeTurns _ (ns ++ [m]) _) ?_
                · exact List.rel_append (TakeTurns.of_view hjs hview) (.cons ⟨v, hends⟩ .nil)
                · rw [List.sum_append, List.sum_singleton]
                  omega

/-- **Serving a queue** ends exactly if each job, served alone, gets done, and leaves each with the
view that it then has. -/
theorem serves_iff (jobs : Jobs α ι ω σ) (hnodup : (js.map jobs.key).Nodup) (w : ω) (P : α → σ → Prop) :
    (∃ fuel w', jobs.serve fuel js w = some w' ∧ ∀ j ∈ js, P j (jobs.view j w')) ↔
      ∀ j ∈ js, ∃ n v, jobs.Ends j n (jobs.view j w) v ∧ P j v := by
  constructor
  · rintro ⟨fuel, w', h, hP⟩ j hj
    obtain ⟨n, hends⟩ := ends_of_serve hnodup h hj
    exact ⟨n, _, hends, hP j hj⟩
  · intro h
    have hturns : ∃ ns, jobs.TakeTurns js ns w := by
      clear hnodup
      induction js with
      | nil => exact ⟨[], .nil⟩
      | cons j js ih =>
          obtain ⟨hj, hjs⟩ := List.forall_mem_cons.mp h
          obtain ⟨n, v, hends, -⟩ := hj
          obtain ⟨ns, hns⟩ := ih hjs
          exact ⟨n :: ns, .cons ⟨v, hends⟩ hns⟩
    obtain ⟨ns, hns⟩ := hturns
    obtain ⟨w', hserve⟩ := serve_of_takeTurns hnodup hns rfl
    refine ⟨ns.sum, w', hserve, fun j hj => ?_⟩
    obtain ⟨n, v, hends, hP⟩ := h j hj
    obtain ⟨m, hends'⟩ := ends_of_serve hnodup hserve hj
    rwa [hends'.unique hends]

end Jobs

end MapProtocol
