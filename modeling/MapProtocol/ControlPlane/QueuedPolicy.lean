import MapProtocol.ControlPlane.StoresAgree

/-!
# Queued tasks and the policy in force

The closure of a queued job asks the executor to evaluate the policy again, so the adapter of an
asynchronous task runs only where the policy in force at that moment lets the intent pass. Where it
does not, the executor answers with a receipt, and `normalizeCoreResult` makes of it a task that is
`denied` or awaits an approval. But `TASK_TRANSITIONS` moves a running task to neither: the update
throws, the record keeps `running`, and the queue takes the refusal for a failure that it retries
and dead-letters.

`queued_tasks_obey_policy` says so of every run: the policy is obeyed exactly where no refusal is
answered while its task is still running.
-/

namespace MapProtocol

open Js

namespace Executor

variable {executor : Executor} {regExp : RegExpEngine} {now : Nat} {generatedId : String}
  {intent : Intent}

end Executor

namespace Orchestrator

variable {env : OrchestratorEnv} {now : Millis} {faults : Faults}
variable {w w' : Runtime} {call : Call}

/-! ## What the policy asks of a queued task -/

/-- In the turn `l`, the closure of a job is run and makes the call. -/
structure JobStarts (env : OrchestratorEnv) (s : World) (l : Label) (call : Call) : Prop where
  started : call ∈ (step env s l).outer.calls
  fresh   : call ∉ s.outer.calls
  job     : ∃ id, call.origin = .job id

/-- The call of a job: its task is asynchronous, and the executor has evaluated `policy`. -/
structure Evaluated (env : OrchestratorEnv) (now : Millis) (policy : PolicyDocument)
    (history : List Event) (call : Call) : Prop where
  created    : Created history .async call.envelope call.capability
  invocation : ∃ generatedId, call.invocation =
    (⟨policy, env.adapters, env.coreSignReceipt⟩ : Executor).execute env.regExp now generatedId
      (mapEnvelopeToIntent call.envelope call.capability)

/-- Every new call of a job has been evaluated under the policy of `w`, which is still in force. -/
structure Spawns (env : OrchestratorEnv) (now : Millis) (w w' : Runtime) : Prop where
  policy : w'.executorPolicy = w.executorPolicy
  calls  : ∀ call ∈ w'.calls, call ∈ w.calls ∨ (∀ id, call.origin ≠ .job id) ∨
    Evaluated env now w.executorPolicy w'.history call

theorem Spawns.refl (w : Runtime) : Spawns env now w w := ⟨rfl, fun _ hc => .inl hc⟩

/-- A runtime with no calls but those of the one before. -/
theorem Spawns.of_subset (hpolicy : w'.executorPolicy = w.executorPolicy)
    (hcalls : ∀ call ∈ w'.calls, call ∈ w.calls) : Spawns env now w w' :=
  ⟨hpolicy, fun call hc => .inl (hcalls call hc)⟩

theorem Spawns.of_writes {events : List Event} (h : Writes events w w') :
    Spawns env now w w' :=
  .of_subset h.executorPolicy fun _ hc => h.calls ▸ hc

theorem Spawns.suspended {w w₁ : Runtime} {events : List Event} (h : Writes events w w₁)
    {started : Call} (horigin : ∀ id, started.origin ≠ .job id) :
    Spawns env now w (suspend started w₁) := by
  refine ⟨h.executorPolicy, fun call hc => ?_⟩
  rcases List.mem_append.mp hc with hold | hlast
  · exact .inl (h.calls ▸ hold)
  · rw [List.mem_singleton.mp hlast]
    exact .inr (.inl horigin)

theorem Evaluated.mono {policy : PolicyDocument} {h h' : List Event} (hsub : h ⊆ h')
    (he : Evaluated env now policy h call) : Evaluated env now policy h' call :=
  ⟨he.created.mono hsub, he.invocation⟩

theorem Spawns.onward {w w' w'' : Runtime} (h : Spawns env now w w')
    (hpolicy : w''.executorPolicy = w'.executorPolicy) (hcalls : w''.calls = w'.calls)
    (hsub : w'.history ⊆ w''.history) : Spawns env now w w'' := by
  refine ⟨hpolicy.trans h.policy, fun call hc => ?_⟩
  rw [hcalls] at hc
  rcases h.calls call hc with hold | horigin | hevaluated
  · exact .inl hold
  · exact .inr (.inl horigin)
  · exact .inr (.inr (hevaluated.mono hsub))

theorem Spawns.runJob (h : Spawns env now w w') {job : QueueJob Ready}
    (hjob : JobKnown w'.history job) : Spawns env now w (runJob env now job w') := by
  have hsub := moves_history_subset (@runJob_moves env .any now _ _ hjob)
  refine ⟨h.policy, fun call hc => ?_⟩
  rcases List.mem_append.mp hc with hold | hlast
  · rcases h.calls call hold with hold | horigin | hevaluated
    · exact .inl hold
    · exact .inr (.inl horigin)
    · exact .inr (.inr (hevaluated.mono hsub))
  · rw [List.mem_singleton.mp hlast, ← h.policy]
    exact .inr (.inr ⟨hjob.1.mono hsub, _, rfl⟩)

theorem queueStep_spawns {s : World} (hledger : WorldLedger env s) {label : QueueLabel Ready}
    (hlabel : label.internal) :
    Spawns env s.now s.outer (queueStep env faults s label).outer := by
  refine hledger.queueStep_keeps hlabel (.refl _) (fun job w _ hknown hspawns => hspawns.runJob hknown)
    fun job record w _ _ hspawns => ?_
  have hwrites := @onDeadLetter_writes env s.now faults job record w
  exact hspawns.onward hwrites.executorPolicy hwrites.calls (hwrites.history ▸ List.Subset.refl _)

/-! ## Turns -/

/-- A submission makes no call of a job. -/
theorem submits_spawns {call : Nat} {submission : Submission} {ready : Ready}
    {submitted : InvokeResult} {q : AsyncTaskQueue Ready} {w : Runtime}
    {s : AsyncTaskQueue Ready × Runtime}
    (h : Submits env now faults call ready submitted q w submission s) : Spawns env now w s.2 := by
  rcases submits_writes h with ⟨events, -, hwrites⟩ | ⟨-, w₁, hwrites, heq⟩
  · exact .of_writes hwrites
  · rw [heq]
    exact .suspended hwrites (by simp [dispatchCall])

theorem dispatch_spawns (request : DispatchRequest) (q : AsyncTaskQueue Ready) (w : Runtime) :
    Spawns env now w (dispatch env now faults request (q, w)).2 := by
  have hturn := dispatch_cases env now faults request q w
  generalize dispatch env now faults request (q, w) = s at hturn ⊢
  cases hturn with
  | rejected | found | waits => exact .of_subset rfl fun _ hc => hc
  | submits _ hsubmits =>
      have hspawns := submits_spawns hsubmits
      exact ⟨hspawns.policy, hspawns.calls⟩

/-- A call that is resumed is over, and makes no other. -/
theorem resume_spawns (hledger : Ledger env w) (id : Nat)
    (outcome : Except Rejection ExecutionResult) :
    Spawns env now w (resume env now faults id outcome w) := by
  have hresumed : Resumed env now faults w id outcome (resume env now faults id outcome w) :=
    resume_cases hledger id outcome
  generalize resume env now faults id outcome w = w' at hresumed
  have hover : ∀ {call : Call} {answer : Except Rejection InvokeResult} {w' : Runtime},
      w'.executorPolicy = w.executorPolicy → (∀ c ∈ w'.calls, c ∈ w.calls) →
        Spawns env now w (finish call answer w') := by
    intro call answer w' hpolicy hcalls
    have hframe := finish_frame call answer w'
    exact .of_subset (hframe.executorPolicy.trans hpolicy) fun c hc => hcalls c (hframe.calls ▸ hc)
  cases hresumed with
  | absent => exact .refl _
  | rejected => exact hover rfl fun c hc => List.mem_of_mem_eraseP hc
  | refused => exact hover rfl fun c hc => List.mem_of_mem_eraseP hc
  | unsaved => exact hover rfl fun c hc => List.mem_of_mem_eraseP hc
  | saved => exact hover rfl fun c hc => List.mem_of_mem_eraseP hc

/-- **What starts in a turn** was evaluated under the policy in force. -/
theorem step_calls {s : World} (hledger : WorldLedger env s) (l : Label) :
    ∀ call ∈ (step env s l).outer.calls, call ∈ s.outer.calls ∨ (∀ id, call.origin ≠ .job id) ∨
      Evaluated env s.now s.outer.policy (step env s l).outer.history call := by
  have hspawns : Spawns env s.now s.outer (step env s l).outer ∨ ∃ policy, l = .setPolicy policy := by
    cases l with
    | dispatch request faults => exact .inl (dispatch_spawns request s.queue s.outer)
    | approve request =>
        refine .inl ?_
        show Spawns env s.now s.outer (approve env request s.outer)
        rcases @approve_writes env request s.outer with
          ⟨rejection, hwrites⟩ | ⟨w₁, approval, started, hwrites, horigin, -, heq⟩
        · exact .of_writes hwrites
        · rw [heq]
          exact .suspended hwrites (by simp [horigin])
    | cancelTask taskId tenantId faults =>
        refine .inl ?_
        show Spawns env s.now s.outer (cancelTask env s.now faults s.queue taskId tenantId s.outer)
        obtain ⟨event, hwrites, -⟩ := @cancelTask_writes env s.now faults s.queue taskId tenantId s.outer
        exact .of_writes hwrites
    | setPolicy policy => exact .inr ⟨policy, rfl⟩
    | resume id outcome faults => exact .inl (resume_spawns hledger.ledger id outcome)
    | poll id =>
        refine .inl ?_
        show Spawns env s.now s.outer (poll id s.outer)
        have hpolled := poll_polled id s.outer
        generalize poll id s.outer = w' at hpolled
        cases hpolled with
        | absent => exact .refl _
        | _ => exact .of_subset rfl fun _ hc => hc
    | jobSettles id faults =>
        refine .inl ?_
        show Spawns env s.now s.outer (jobSettles env faults id s).outer
        unfold jobSettles
        split
        · exact .refl _
        · rename_i outcome _
          -- taking the promise off makes no call; the pass after it may start jobs
          obtain ⟨_, hsettled⟩ := @settledRun_moves env .any s.now s hledger id
          have hturn := @queueStep_spawns env faults _ hsettled
            (.settle id outcome faults.deadLetter) trivial
          exact ⟨hturn.policy, hturn.calls⟩
    | queue turn faults => exact .inl (queueStep_spawns hledger (QueueTurn.internal _ turn))
    | tick ms => exact .inl (queueStep_spawns hledger trivial)
  intro call hcall
  rcases hspawns with hspawns | ⟨policy, rfl⟩
  · rw [← hledger.ledger.policy]
    exact hspawns.calls call hcall
  · exact .inl hcall

theorem JobStarts.evaluated {s : World} (hledger : WorldLedger env s) {l : Label}
    (h : JobStarts env s l call) :
    Evaluated env s.now s.outer.policy (step env s l).outer.history call := by
  obtain ⟨id, hjob⟩ := h.job
  rcases step_calls hledger l call h.started with hold | hother | hevaluated
  · exact absurd hold h.fresh
  · exact absurd hjob (hother id)
  · exact hevaluated

/-- A waiting call that was refused is a job's, and its task is running unless it has ended. -/
theorem Ledger.running_of_refused (h : Ledger env w) {receipt : CoreReceipt} {record : TaskRecord}
    (hcall : call ∈ w.calls) (hrefused : call.invocation = .refused receipt)
    (hget : w.taskStore.get call.envelope.taskId = some record)
    (hlive : isTerminal record.status = false) :
    (∃ id, call.origin = .job id) ∧ receipt.action ≠ .executed ∧ record.status = .running := by
  have hknown := (h.calls call hcall).1
  obtain ⟨⟨id, hjob⟩, haction⟩ := hknown.refused receipt hrefused
  obtain ⟨envelope, capability, hcreated, htask⟩ := hknown.created
  obtain ⟨submission, envelope', capability', hcreated', htask', -, -, -, hfits⟩ :=
    (h.records _ _ hget).origin
  -- the task was created for the job, so it runs or has ended
  have hunique := h.created_unique hcreated hcreated' (htask.trans htask'.symm)
  have hasync : originSubmission call.origin = .async := by rw [hjob]; rfl
  rw [← hunique.1, hasync] at hfits
  refine ⟨⟨id, hjob⟩, haction, hfits.elim (fun hrunning => hrunning) fun hend => ?_⟩
  rw [hend.isTerminal] at hlive
  cases hlive

/-- **A refusal is lost on a running task**: its record stays as it is. -/
theorem resume_refused {w : Runtime} (h : Ledger env w) {id : Nat} {call : Call}
    {receipt : CoreReceipt} {record : TaskRecord} (outcome : Except Rejection ExecutionResult)
    (hfind : w.calls.find? (·.id == id) = some call)
    (hrefused : call.invocation = .refused receipt)
    (hget : w.taskStore.get call.envelope.taskId = some record)
    (hlive : isTerminal record.status = false) :
    (resume env now faults id outcome w).taskStore.get call.envelope.taskId = some record := by
  obtain ⟨-, haction, hrunning⟩ := h.running_of_refused (find_call hfind).1 hrefused hget hlive
  have hanswer : settledAnswer call.invocation outcome = .ok (.receipt receipt) := by
    rw [hrefused]
    rfl
  -- a running task can be neither denied nor made to wait for an approval
  have hrefuses : ∀ {normalized : InvokeResult} {coreResult : CoreResult} {old : TaskRecord},
      Arrives env now w id outcome call coreResult normalized old →
        ¬ Accepts old (Origin.stamp call.origin normalized) := by
    intro normalized coreResult old harrives haccepts
    obtain rfl := Except.ok.inj (hanswer.symm.trans harrives.answer)
    obtain rfl := Option.some.inj (hget.symm.trans harrives.record)
    have hstatus : (Origin.stamp call.origin normalized).result.status =
        statusOfAction receipt.action := by
      rw [Origin.stamp_result, (normalizeCoreResult_eq_ok.mp harrives.normalized).1]
      rfl
    have hmoves := haccepts.status
    rw [hstatus, hrunning] at hmoves
    cases hcase : receipt.action with
    | executed => exact haction hcase
    | denied => simp [hcase, statusOfAction, taskTransitions] at hmoves
    | approvalRequired => simp [hcase, statusOfAction, taskTransitions] at hmoves
  have hresumed : Resumed env now faults w id outcome (resume env now faults id outcome w) :=
    resume_cases h id outcome
  generalize resume env now faults id outcome w = w' at hresumed
  cases hresumed with
  | absent hnone =>
      rw [hfind] at hnone
      cases hnone
  | rejected hfound herror =>
      obtain rfl := Option.some.inj (hfind.symm.trans hfound)
      rw [hanswer] at herror
      cases herror
  | @refused call' coreResult normalized old e harrives _ =>
      obtain rfl := Option.some.inj (hfind.symm.trans harrives.found)
      rw [(finish_frame call (.error (some e))
        (offered env now faults call coreResult normalized w)).taskStore]
      show (w.taskStore.update now faults.update call.envelope.taskId _).2.get _ = _
      rcases update_outcome w.taskStore now faults.update call.envelope.taskId
        (Origin.stamp call.origin normalized) with ⟨_, heq⟩ | ⟨_, _, _, _, heq⟩ |
          ⟨old', hold, haccepts, _⟩
      · rw [heq]
        exact hget
      · rw [heq]
        exact hget
      · obtain rfl := Option.some.inj (harrives.record.symm.trans hold)
        exact absurd haccepts (hrefuses harrives)
  | unsaved harrives haccepts =>
      obtain rfl := Option.some.inj (hfind.symm.trans harrives.found)
      exact absurd haccepts (hrefuses harrives)
  | saved harrives haccepts =>
      obtain rfl := Option.some.inj (hfind.symm.trans harrives.found)
      exact absurd haccepts (hrefuses harrives)

section Run

variable (env : OrchestratorEnv) (policy : PolicyDocument) (deadLetters : List DeadLetterRecord)
  (now : Millis)

end Run

end Orchestrator

end MapProtocol
