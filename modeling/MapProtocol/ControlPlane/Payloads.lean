import MapProtocol.ControlPlane.Answers

/-!
# Repeated dispatches

A dispatch that reuses an idempotency key, or else a task id, is held against the dispatch that
created the record it finds. They have to agree on the requester, its tenant, the capability and the
agent; their intents and constraints are not compared.
-/

namespace MapProtocol

open Js

namespace Orchestrator

variable {env : OrchestratorEnv}

theorem SameIdentity.refl (envelope : TaskEnvelope) (capability : String) :
    SameIdentity envelope capability envelope capability := ⟨rfl, rfl, rfl, rfl, rfl⟩

/-- **How a dispatch made in `s` is held against earlier ones**, as far as `final` shows: whatever it
is answered with is about a task that a dispatch of the same identity created, and a record of
another identity refuses it, with nothing changed. -/
structure HeldAgainst (env : OrchestratorEnv) (s final : World) (request : DispatchRequest)
    (faults : Faults) : Prop where
  answered : ∀ outcome, .answered s.outer.nextCall outcome ∈ final.outer.history →
    ∃ envelope submission creator created, Reads env request envelope ∧
      Created final.outer.history submission creator created ∧
      creator.taskId = outcome.result.taskId ∧
      SameIdentity creator created envelope request.capability
  refused  : ∀ envelope record creator created, Reads env request envelope →
    Found s.outer.taskStore envelope record → CreatedAs s.outer.history record creator created →
    ¬ SameIdentity creator created envelope request.capability →
      step env s (.dispatch request faults) = { s with
        outer := log (.threw s.outer.nextCall .dispatch request.envelope.taskId
            (some (conflict s.outer.taskStore envelope)))
          { s.outer with nextCall := s.outer.nextCall + 1 } }

theorem step_dispatch_error {s : World} {request : DispatchRequest} {faults : Faults}
    {message : String}
    (h : planDispatch env s.outer.policy s.outer.taskStore s.now
      (s.queue.hasCapacity env.queueOptions) s.outer.nextUuid request = .error message) :
    step env s (.dispatch request faults) = { s with
      outer := log (.threw s.outer.nextCall .dispatch request.envelope.taskId (some message))
        { s.outer with nextCall := s.outer.nextCall + 1 } } := by
  unfold step
  dsimp only
  rw [dispatch_error h]

/-- **Dispatches are held to their identity**, in every run. -/
theorem repeats_held_to_identity (env : OrchestratorEnv) (policy : PolicyDocument)
    (deadLetters : List DeadLetterRecord) (now : Millis) (ls later : List Label)
    (request : DispatchRequest) (faults : Faults) :
    HeldAgainst env (run env (init env policy deadLetters now) ls)
      (run env (init env policy deadLetters now) (ls ++ .dispatch request faults :: later))
      request faults := by
  have hledger := run_worldLedger (init_worldLedger env policy deadLetters now) ls
  have hnamed := run_resultsNamed (init_worldLedger env policy deadLetters now)
    (init_resultsNamed env policy deadLetters now) ls
  have hfinal : run env (init env policy deadLetters now) (ls ++ .dispatch request faults :: later) =
      run env (run env (init env policy deadLetters now) ls) (.dispatch request faults :: later) :=
    Transition.run_append _ _ _
  rw [hfinal]
  generalize run env (init env policy deadLetters now) ls = s at hledger hnamed
  have hlast := run_worldLedger hledger (.dispatch request faults :: later)
  constructor
  · intro outcome hanswered
    have hledger' := (step_moves hledger (allowed_any env s (.dispatch request faults))).2
    have hsub : (step env s (.dispatch request faults)).outer.history ⊆
        (run env s (.dispatch request faults :: later)).outer.history :=
      run_history_subset hledger' later
    cases about_dispatch hledger hnamed later (.answered hanswered rfl) with
    | @found stored hplan htask =>
        obtain ⟨envelope, record, creator, created, hreads, hfound, hstored, hc, hidentity⟩ :=
          planDispatch_stored hledger.ledger hplan
        obtain ⟨t, hget⟩ := hfound.get
        obtain ⟨⟨submission, hcreated⟩, hid⟩ := hc
        refine ⟨envelope, submission, creator, created, hreads, ?_, ?_, hidentity⟩
        · exact hcreated.mono (run_history_subset hledger (.dispatch request faults :: later))
        · rw [hid, ← htask]
          exact (stored_taskId hledger.ledger hnamed hget hstored).symm
    | creates hplan htask hcreated =>
        obtain ⟨envelope, hreads⟩ := reads_of_plan hplan
        have hplanned := planDispatch_submit hplan
        obtain rfl := Except.ok.inj (hplanned.validated.symm.trans hreads.validated)
        refine ⟨_, _, _, _, hreads, ⟨_, hsub hcreated⟩, htask, ?_⟩
        rw [hplanned.capability]
        exact .refl _ _
  · intro envelope record creator created hreads hfound hc hidentity
    obtain ⟨-, hother⟩ := hledger.ledger.findStored hfound hc request.capability
    exact step_dispatch_error
      (planDispatch_error ((hreads.readDispatch _ _ _).1 _ (hother hidentity)))

/-- A dispatch by alice, with or without an idempotency key. -/
def sampleRepeat (taskId intent : String) (metadata : Option JsObject) : Label :=
  .dispatch ⟨{ sampleEnvelope "alice" intent metadata with taskId := taskId }, "ops.restart", none,
    none⟩ {}

/-- The second of two dispatches was answered about a task that was created with the intent. -/
def AnsweredAbout (ls : List Label) (intent : String) : Prop :=
  ∃ outcome creator capability,
    .answered 1 outcome ∈ (run (sampleEnv "ops.restart" noCrypto)
      (sampleInit .requireApproval) ls).outer.history ∧
    Created (run (sampleEnv "ops.restart" noCrypto) (sampleInit .requireApproval) ls).outer.history
      .approval creator capability ∧
    creator.taskId = outcome.result.taskId ∧ creator.intent = intent

/-- **Another intent is answered from the store**, whether the key is reused or the task id. -/
theorem other_intent_answered :
    AnsweredAbout [sampleRepeat "t1" "restart web" (some [("idempotency_key", .str "k")]),
      sampleRepeat "t2" "restart db" (some [("idempotency_key", .str "k")])] "restart web" ∧
    AnsweredAbout [sampleRepeat "t1" "restart web" none, sampleRepeat "t1" "restart db" none]
      "restart web" :=
  ⟨⟨_, _, _, List.mem_of_head? rfl, ⟨0, List.mem_of_getLast? rfl⟩, rfl, rfl⟩,
    ⟨_, _, _, List.mem_of_head? rfl, ⟨0, List.mem_of_getLast? rfl⟩, rfl, rfl⟩⟩

end Orchestrator

end MapProtocol
