import MapProtocol.ControlPlane.World

/-!
# The phases of a task

Every method of the orchestrator, every turn of the queue and every answer of an executor may write
to the record of a task. Seen from outside, they play a machine of three phases: a task is not there,
then it has the status that its submission begins with, then it is over and keeps the status that it
ended with. It may skip the middle phase, and no phase comes back.
-/

namespace MapProtocol

namespace Transition

variable {σ ℓ : Type*} {step : σ → ℓ → σ} {P : σ → Prop} {s : σ} {ls : List ℓ}

/-- **The onset of what lasts.** What never ends once it holds, holds from some moment on. -/
theorem exists_onset (hlasts : ∀ ks js, P (run step s ks) → P (run step s (ks ++ js))) :
    ∃ i, ∀ n ≤ ls.length, P (run step s (ls.take n)) ↔ i ≤ n := by
  classical
  have hsome : ∃ i, ls.length < i ∨ P (run step s (ls.take i)) := ⟨_, .inl (Nat.lt_succ_self _)⟩
  refine ⟨Nat.find hsome, fun n hn => ⟨fun hP => Nat.find_min' hsome (.inr hP), fun hle => ?_⟩⟩
  rcases Nat.find_spec hsome with hlong | hP
  · omega
  · have htake : ls.take n = ls.take (Nat.find hsome) ++ (ls.drop (Nat.find hsome)).take
        (n - Nat.find hsome) := by
      rw [← List.take_add, Nat.add_sub_cancel' hle]
    rw [htake]
    exact hlasts _ _ hP

end Transition

namespace Orchestrator

variable {env : OrchestratorEnv}

/-- The status of a task, if it is there. -/
def taskStatus (t : String) (s : World) : Option TaskStatus :=
  (s.outer.taskStore.get t).map (·.status)

/-! ## What lasts -/

theorem run_keeps_record {s : World} (h : WorldLedger env s) {t : String}
    (hthere : taskStatus t s ≠ none) (ls : List Label) : taskStatus t (run env s ls) ≠ none := by
  obtain ⟨status, hstatus⟩ := Option.ne_none_iff_exists'.mp hthere
  obtain ⟨record, hget, -⟩ := Option.map_eq_some_iff.mp hstatus
  obtain ⟨submission, envelope, capability, ⟨call, hcreated⟩, rfl, -⟩ :=
    (h.ledger.records t record hget).origin
  have hlater := run_history_subset h ls hcreated
  obtain ⟨record', hget'⟩ := (run_worldLedger h ls).ledger.onRecord _ _ _ ⟨call, hlater⟩
  unfold taskStatus
  rw [hget']
  exact Option.some_ne_none _

theorem run_keeps_end {s : World} (h : WorldLedger env s) {t : String} {status : TaskStatus}
    (hend : isEnd status) (hstatus : taskStatus t s = some status) (ls : List Label) :
    taskStatus t (run env s ls) = some status := by
  obtain ⟨record, hget, rfl⟩ := Option.map_eq_some_iff.mp hstatus
  have hkept := (run_of_moves (g := .any)
    (I := fun w => ∃ record', w.taskStore.get t = some record' ∧ record'.status = record.status)
    (fun now w w' hledger hrecord hm => ?_) h ⟨record, hget, rfl⟩
    (Transition.stepsMeet_of_forall (allowed_any env) s ls)).2
  · obtain ⟨record', hget', hsame⟩ := hkept
    exact Option.map_eq_some_iff.mpr ⟨record', hget', hsame⟩
  · obtain ⟨old, hold, hsame⟩ := hrecord
    have hterminal : isTerminal old.status = true := hsame ▸ hend.isTerminal
    obtain ⟨record', hget', hsame'⟩ := hm.keeps_terminal hledger hold hterminal
    exact ⟨record', hget', hsame'.trans hsame⟩

theorem run_take_drop (s : World) (ls : List Label) (n : Nat) :
    run env (run env s (ls.take n)) (ls.drop n) = run env s ls := by
  unfold run
  rw [← Transition.run_append, List.take_append_drop]

/-! ## The life of a task -/

theorem exists_submission {s : World} (h : WorldLedger env s) (t : String) :
    ∃ submission, ∀ kind envelope capability, Created s.outer.history kind envelope capability →
      envelope.taskId = t → kind = submission := by
  by_cases hever : ∃ kind envelope capability,
      Created s.outer.history kind envelope capability ∧ envelope.taskId = t
  · obtain ⟨kind, envelope, capability, hcreated, rfl⟩ := hever
    exact ⟨kind, fun _ _ _ hother ht => (h.ledger.created_unique hother hcreated ht).1⟩
  · exact ⟨.sync, fun kind envelope capability hcreated ht =>
      absurd ⟨kind, envelope, capability, hcreated, ht⟩ hever⟩

theorem exists_final {s : World} (h : WorldLedger env s) (t : String) (ls : List Label) :
    ∃ final, isEnd final ∧ ∀ n status, isEnd status →
      taskStatus t (run env s (ls.take n)) = some status → status = final := by
  have hkept : ∀ n status, isEnd status → taskStatus t (run env s (ls.take n)) = some status →
      taskStatus t (run env s ls) = some status := by
    intro n status hend hstatus
    rw [← run_take_drop s ls n]
    exact run_keeps_end (run_worldLedger h _) hend hstatus (ls.drop n)
  by_cases hever : ∃ status, isEnd status ∧ taskStatus t (run env s ls) = some status
  · obtain ⟨final, hfinal, hlast⟩ := hever
    refine ⟨final, hfinal, fun n status hend hstatus => ?_⟩
    exact Option.some.inj ((hkept n status hend hstatus).symm.trans hlast)
  · exact ⟨.completed, .inl rfl, fun n status hend hstatus =>
      absurd ⟨status, hend, hkept n status hend hstatus⟩ hever⟩

/-- The status at moment `n` of a task that is created at moment `i` and over at moment `j`. -/
def phaseAt (submission : Submission) (final : TaskStatus) (i j n : Nat) : Option TaskStatus :=
  if n < i then none else if n < j then some submission.initial else some final

/-- **The life of a task**: in every run, a task is first not there, then as its submission begins,
then over, and its status never changes otherwise. -/
theorem task_life (env : OrchestratorEnv) (policy : PolicyDocument)
    (deadLetters : List DeadLetterRecord) (now : Millis) (ls : List Label) (t : String) :
    ∃ submission final i j, isEnd final ∧ i ≤ j ∧
      (∀ kind envelope capability,
        Created (run env (init env policy deadLetters now) ls).outer.history kind envelope capability →
          envelope.taskId = t → kind = submission) ∧
      ∀ n ≤ ls.length, taskStatus t (run env (init env policy deadLetters now) (ls.take n)) =
        phaseAt submission final i j n := by
  have hledger := run_worldLedger (init_worldLedger env policy deadLetters now)
  generalize init env policy deadLetters now = s at hledger ⊢
  -- the moment from which the task is there
  obtain ⟨i, hi⟩ := @Transition.exists_onset _ _ (step env) (fun s => taskStatus t s ≠ none) s ls
    fun ks js hthere => by
      rw [Transition.run_append]
      exact run_keeps_record (hledger ks) hthere js
  -- the moment from which it is over
  obtain ⟨j, hj⟩ := @Transition.exists_onset _ _ (step env)
    (fun s => ∃ status, isEnd status ∧ taskStatus t s = some status) s ls fun ks js hover => by
      obtain ⟨status, hend, hstatus⟩ := hover
      rw [Transition.run_append]
      exact ⟨status, hend, run_keeps_end (hledger ks) hend hstatus js⟩
  obtain ⟨submission, hsubmission⟩ := exists_submission (hledger ls) t
  obtain ⟨final, hfinal, hover⟩ := exists_final (hledger []) t ls
  refine ⟨submission, final, i, max i j, hfinal, Nat.le_max_left i j, hsubmission, fun n hn => ?_⟩
  unfold phaseAt
  split
  · rename_i hbefore
    by_contra hthere
    exact absurd ((hi n hn).mp hthere) (Nat.not_le.mpr hbefore)
  · rename_i hafter
    have hthere : taskStatus t (run env s (ls.take n)) ≠ none :=
      (hi n hn).mpr (Nat.not_lt.mp hafter)
    obtain ⟨status, hstatus⟩ := Option.ne_none_iff_exists'.mp hthere
    rw [hstatus]
    split
    · rename_i hopen
      -- it has the status of its submission, or it would be over
      obtain ⟨record, hget, rfl⟩ := Option.map_eq_some_iff.mp hstatus
      obtain ⟨kind, envelope, capability, hcreated, ht, -, -, -, hfits⟩ :=
        ((hledger (ls.take n)).ledger.records t record hget).origin
      have hlater := hcreated.mono (run_history_subset (hledger (ls.take n)) (ls.drop n))
      rw [run_take_drop] at hlater
      obtain rfl := hsubmission _ _ _ hlater ht
      rcases hfits with hinitial | hisEnd
      · exact congrArg some hinitial
      · have hle := (hj n hn).mp ⟨_, hisEnd, hstatus⟩
        omega
    · rename_i hclosed
      obtain ⟨status', hisEnd, hstatus'⟩ := (hj n hn).mpr (by omega)
      obtain rfl : status = status' := Option.some.inj (hstatus.symm.trans hstatus')
      exact congrArg some (hover n status hisEnd hstatus)

end Orchestrator

end MapProtocol
