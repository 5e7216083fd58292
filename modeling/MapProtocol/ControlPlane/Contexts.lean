import MapProtocol.ControlPlane.Answers
import MapProtocol.ControlPlane.FailedDispatch

/-!
# The context of a task

`dispatch` gives each task a context id, and the record of the task keeps it. The results name a
context id too: the one on the record, and the ones that callers are given. `Shown` lists them.

The results are made in five places. A result of a queued or a starting task, and of one that is
given up, takes the id of the dispatch. The others do not: validation strips the result of a task
that awaits approval, a cancellation names no context, and what the executor answers is put in the
context of the envelope, which validation has stripped, or else of the adapter's own intent id.

`Carried` says that a turn leaves every task in its context, and each method is shown to carry the
contexts on as far as it does.
-/

namespace MapProtocol

open Js

namespace Orchestrator

variable {env : OrchestratorEnv} {now : Millis} {faults : Faults}
variable {w w' : Runtime} {t taskId : String} {outcome : InvokeResult} {job : QueueJob Ready}

/-! ## What a task is shown with -/

inductive Returned (history : List Event) (outcome : InvokeResult) : Prop
  | answered {call : Nat} (h : .answered call outcome ∈ history)
  | cancelled {taskId : String} {queued : Bool} (h : .cancelled taskId queued outcome ∈ history)

/-- **The context ids that a task is shown with**: by its record, by the result on the record, and
by the results that callers were given. -/
inductive Shown (w : Runtime) (t : String) : Option String → Prop
  | record {record : TaskRecord} (hget : w.taskStore.get t = some record) :
      Shown w t record.contextId
  | stored {record : TaskRecord} {result : ResultPackage} (hget : w.taskStore.get t = some record)
      (hresult : record.result = some result) : Shown w t result.contextId
  | returned {outcome : InvokeResult} (hreturned : Returned w.history outcome)
      (htask : outcome.result.taskId = t) : Shown w t outcome.result.contextId

/-- The results are in the contexts of the records that they belong to. -/
structure OneContext (w : Runtime) : Prop where
  stored   : ∀ t record, w.taskStore.get t = some record → ∃ result,
    record.result = some result ∧ result.taskId = t ∧ result.contextId = record.contextId
  returned : ∀ outcome, Returned w.history outcome → ∃ record,
    w.taskStore.get outcome.result.taskId = some record ∧
      record.contextId = outcome.result.contextId

theorem OneContext.shown (h : OneContext w) {c : Option String} (hshown : Shown w t c) :
    ∃ record, w.taskStore.get t = some record ∧ record.contextId = c := by
  cases hshown with
  | record hget => exact ⟨_, hget, rfl⟩
  | stored hget hresult =>
      obtain ⟨result, hresult', -, hcontext⟩ := h.stored _ _ hget
      obtain rfl := Option.some.inj (hresult.symm.trans hresult')
      exact ⟨_, hget, hcontext.symm⟩
  | returned hreturned htask =>
      obtain ⟨record, hget, hcontext⟩ := h.returned _ hreturned
      exact ⟨record, htask ▸ hget, hcontext⟩

/-- Tasks stay on record, in their contexts. -/
def SameContexts (tasks tasks' : TaskStore) : Prop :=
  ∀ t record, tasks.get t = some record → ∃ record', tasks'.get t = some record' ∧
    record'.contextId = record.contextId

theorem SameContexts.refl (tasks : TaskStore) : SameContexts tasks tasks :=
  fun _ record hget => ⟨record, hget, rfl⟩

theorem SameContexts.trans {tasks tasks' tasks'' : TaskStore} (h : SameContexts tasks tasks')
    (h' : SameContexts tasks' tasks'') : SameContexts tasks tasks'' := by
  intro t record hget
  obtain ⟨record', hget', hcontext⟩ := h t record hget
  obtain ⟨record'', hget'', hcontext'⟩ := h' t record' hget'
  exact ⟨record'', hget'', hcontext'.trans hcontext⟩

/-! ## What a turn carries on

A turn that writes one record, or none, carries the contexts on if what it returns is the result on
that record. -/

/-- **A turn carries the contexts on.** The calls that it starts have envelopes without one. -/
structure Carried (w w' : Runtime) : Prop where
  one   : OneContext w → OneContext w'
  same  : SameContexts w.taskStore w'.taskStore
  calls : ∀ call ∈ w'.calls, call ∈ w.calls ∨ call.envelope.contextId = none

theorem Carried.refl (w : Runtime) : Carried w w := ⟨id, .refl _, fun _ hcall => .inl hcall⟩

theorem Carried.trans {w w' w'' : Runtime} (h : Carried w w') (h' : Carried w' w'') :
    Carried w w'' := by
  refine ⟨fun hone => h'.one (h.one hone), h.same.trans h'.same, fun call hcall => ?_⟩
  rcases h'.calls call hcall with hold | hnew
  · exact h.calls call hold
  · exact .inr hnew

theorem returned_append {events history : List Event} :
    Returned (events ++ history) outcome ↔ Returned events outcome ∨ Returned history outcome := by
  constructor
  · rintro (hmem | hmem) <;> rcases List.mem_append.mp hmem with hnew | hold
    · exact .inl (.answered hnew)
    · exact .inr (.answered hold)
    · exact .inl (.cancelled hnew)
    · exact .inr (.cancelled hold)
  · rintro ((hnew | hnew) | (hold | hold))
    · exact .answered (List.mem_append_left _ hnew)
    · exact .cancelled (List.mem_append_left _ hnew)
    · exact .answered (List.mem_append_right _ hold)
    · exact .cancelled (List.mem_append_right _ hold)

theorem not_returned_nil : ¬ Returned [] outcome := by
  rintro (hmem | hmem) <;> simp at hmem

/-- A turn that writes no record, and returns nothing but what records hold. -/
theorem Carried.unwritten {w w' : Runtime} (events : List Event)
    (hhistory : w'.history = events ++ w.history)
    (hcalls : ∀ call ∈ w'.calls, call ∈ w.calls ∨ call.envelope.contextId = none)
    (hget : ∀ t, w'.taskStore.get t = w.taskStore.get t)
    (hreturned : ∀ outcome, Returned events outcome →
      ∃ t record, w.taskStore.get t = some record ∧ record.result = some outcome.result) :
    Carried w w' := by
  refine ⟨fun hone => ⟨fun t record hrecord => ?_, fun outcome houtcome => ?_⟩,
    fun t record hrecord => ⟨record, (hget t).trans hrecord, rfl⟩, hcalls⟩
  · rw [hget] at hrecord
    exact hone.stored t record hrecord
  · rw [hget]
    rw [hhistory, returned_append] at houtcome
    rcases houtcome with hnew | hold
    · obtain ⟨t, record, hrecord, hresult⟩ := hreturned outcome hnew
      obtain ⟨result, hresult', htask, hcontext⟩ := hone.stored t record hrecord
      obtain rfl := Option.some.inj (hresult.symm.trans hresult')
      exact ⟨record, htask ▸ hrecord, hcontext.symm⟩
    · exact hone.returned outcome hold

theorem Carried.quiet (hcalls : ∀ call ∈ w'.calls, call ∈ w.calls)
    (htasks : w'.taskStore = w.taskStore) (hhistory : w'.history = w.history) : Carried w w' := by
  refine .unwritten [] hhistory (fun call hcall => .inl (hcalls call hcall))
    (fun t => by rw [htasks]) ?_
  exact fun _ hreturned => absurd hreturned not_returned_nil

/-- A turn that writes one record, and returns nothing but the result on it. -/
theorem Carried.written {record : TaskRecord} {result : ResultPackage} (events : List Event)
    (hhistory : w'.history = events ++ w.history)
    (hcalls : ∀ call ∈ w'.calls, call ∈ w.calls ∨ call.envelope.contextId = none)
    (hget : ∀ t', w'.taskStore.get t' = if t = t' then some record else w.taskStore.get t')
    (hresult : record.result = some result) (htask : result.taskId = t)
    (hcontext : result.contextId = record.contextId)
    (hkept : ∀ old, w.taskStore.get t = some old → record.contextId = old.contextId)
    (hreturned : ∀ outcome, Returned events outcome → outcome.result = result) : Carried w w' := by
  have hsame : SameContexts w.taskStore w'.taskStore := by
    intro t' old hrecord
    rw [hget]
    split
    · rename_i heq
      exact ⟨record, rfl, hkept old (heq ▸ hrecord)⟩
    · exact ⟨old, hrecord, rfl⟩
  refine ⟨fun hone => ⟨fun t' record' hrecord' => ?_, fun outcome houtcome => ?_⟩, hsame, hcalls⟩
  · rw [hget] at hrecord'
    split at hrecord'
    · rename_i heq
      obtain rfl := Option.some.inj hrecord'
      exact ⟨result, hresult, htask.trans heq, hcontext⟩
    · exact hone.stored t' record' hrecord'
  · rw [hhistory, returned_append] at houtcome
    rcases houtcome with hnew | hold
    · have heq := hreturned outcome hnew
      exact ⟨record, by rw [heq, hget, if_pos htask.symm], by rw [heq, hcontext]⟩
    · obtain ⟨old, hrecord, hcontext'⟩ := hone.returned outcome hold
      obtain ⟨record', hrecord', hsame'⟩ := hsame _ old hrecord
      exact ⟨record', hrecord', hsame'.trans hcontext'⟩

theorem threw_unreturned {call : Nat} {method : Method} {rejection : Rejection} :
    ¬ Returned [.threw call method taskId rejection] outcome := by
  rintro (hmem | hmem) <;> simp at hmem

theorem Carried.threw {call : Nat} {method : Method} {rejection : Rejection}
    (hcalls : w'.calls = w.calls) (hhistory : w'.history = w.history)
    (htasks : w'.taskStore.tasks = w.taskStore.tasks) :
    Carried w (log (.threw call method taskId rejection) w') := by
  refine .unwritten [.threw call method taskId rejection] ?_ (fun c hc => .inl (hcalls ▸ hc))
    (fun t => ?_) fun _ hreturned => absurd hreturned threw_unreturned
  · unfold log
    rw [hhistory]
    rfl
  · exact congrArg (OrderedMap.get · t) htasks

theorem suspend_unreturned (started : Call) (w : Runtime) : ∃ events,
    (suspend started w).history = events ++ w.history ∧ ∀ outcome, ¬ Returned events outcome := by
  obtain ⟨events, hhistory, -, hexecuted⟩ := suspend_logs started w
  refine ⟨events, hhistory, fun outcome hreturned => ?_⟩
  cases hreturned with
  | answered hmem =>
      obtain ⟨intent, context, -, heq⟩ := hexecuted _ hmem
      cases heq
  | cancelled hmem =>
      obtain ⟨intent, context, -, heq⟩ := hexecuted _ hmem
      cases heq

theorem Carried.suspends {w w' : Runtime} {started : Call} (h : Carried w w')
    (hstarted : started.envelope.contextId = none) : Carried w (suspend started w') := by
  obtain ⟨events, hhistory, hunreturned⟩ := suspend_unreturned started w'
  refine h.trans (.unwritten events hhistory (fun call hcall => ?_) (fun _ => rfl)
    fun outcome hreturned => absurd hreturned (hunreturned outcome))
  rcases List.mem_append.mp hcall with hold | hnew
  · exact .inl hold
  · rw [List.mem_singleton.mp hnew]
    exact .inr hstarted

/-! ## Submissions

The context id is settled by the plan, and the record, its result and the job get the same. -/

section Submit

variable {w : Runtime} {call : Nat} {request : DispatchRequest} {submission : Submission}
  {ready : Ready} {submitted : InvokeResult}

theorem planSubmission_context {hasCapacity : Bool} {uuid : Nat} {read : Ready}
    (h : planSubmission env now hasCapacity uuid read = .ok (.submit submission ready submitted))
    (hrun : submission ≠ .approval) : submitted.result.contextId = some ready.contextId := by
  unfold planSubmission at h
  dsimp only at h
  split at h
  · simp at h
  · simp only [bind_eq_ok, pure_eq_ok, DispatchPlan.submit.injEq] at h
    obtain ⟨receipt, -, result, -, rfl, -⟩ := h
    exact absurd rfl hrun
  · simp only [bind_eq_ok] at h
    obtain ⟨-, -, h⟩ := h
    split at h
    · simp only [bind_eq_ok, pure_eq_ok, DispatchPlan.submit.injEq] at h
      obtain ⟨-, -, receipt, -, -, rfl, rfl⟩ := h
      rfl
    · simp only [bind_eq_ok, pure_eq_ok, DispatchPlan.submit.injEq] at h
      obtain ⟨receipt, -, -, rfl, rfl⟩ := h
      rfl

structure Drawn (w : Runtime) (ready : Ready) (submitted : InvokeResult) : Prop where
  absent   : w.taskStore.get ready.envelope.taskId = none
  taskId   : submitted.result.taskId = ready.envelope.taskId
  context  : submitted.result.contextId = some ready.contextId
  envelope : ready.envelope.contextId = none

theorem planDispatch_drawn {hasCapacity : Bool} (hledger : Ledger env w)
    (h : planDispatch env w.policy w.taskStore now hasCapacity w.nextUuid request =
      .ok (.submit submission ready submitted)) (hrun : submission ≠ .approval) :
    Drawn (numbered w) ready submitted := by
  have hp := planDispatch_submit h
  refine ⟨(hp.absent hledger :), hp.taskId, ?_, (validateTaskEnvelope_eq_ok hp.validated).2.2.1⟩
  unfold planDispatch at h
  simp only [bind_eq_ok] at h
  obtain ⟨found, -, hplan⟩ := h
  cases found with
  | inl stored => simp at hplan
  | inr read => exact planSubmission_context hplan hrun

/-- The turn of a submission that has put its task on record. -/
theorem Drawn.carried {w' : Runtime} (h : Drawn w ready submitted) (events : List Event)
    (hhistory : w'.history = events ++ w.history)
    (hcalls : ∀ call ∈ w'.calls, call ∈ w.calls ∨ call.envelope.contextId = none)
    (hsaved : w'.taskStore = (recorded now ready submitted w).taskStore)
    (hreturned : ∀ outcome, Returned events outcome → outcome = submitted) : Carried w w' := by
  refine .written events hhistory hcalls (fun t => by rw [hsaved]; exact recorded_get t) rfl h.taskId
    h.context (fun old hold => ?_) fun outcome houtcome =>
      congrArg InvokeResult.result (hreturned outcome houtcome)
  -- the task is new, so that no record is written over
  cases h.absent.symm.trans hold

theorem Submitted.returned {events : List Event} {outcome : InvokeResult}
    (h : Submitted call submission ready submitted events) (hreturned : Returned events outcome) :
    outcome = submitted := by
  cases h with
  | refused message => cases hreturned <;> simp at *
  | failed message => cases hreturned <;> simp [createdEvent] at *
  | answered =>
      cases hreturned with
      | answered hmem =>
          obtain ⟨-, rfl⟩ := by simpa [createdEvent] using hmem
          rfl
      | cancelled hmem => simp [createdEvent] at hmem

/-- A submission that throws after its task was put on record. -/
theorem Drawn.failed {w' : Runtime} {message : String} (h : Drawn w ready submitted)
    (hcalls : w'.calls = w.calls)
    (hhistory : w'.history = createdEvent call submission ready :: w.history)
    (hsaved : w'.taskStore = (recorded now ready submitted w).taskStore) :
    Carried w (log (.threw call .dispatch ready.envelope.taskId (some message)) w') := by
  refine h.carried [.threw call .dispatch ready.envelope.taskId (some message),
    createdEvent call submission ready] ?_ (fun c hc => .inl (hcalls ▸ hc)) hsaved
    fun outcome => Submitted.returned (.failed message)
  unfold log
  rw [hhistory]
  rfl

theorem submits_carried {q : AsyncTaskQueue Ready} {s : AsyncTaskQueue Ready × Runtime}
    (h : Drawn w ready submitted)
    (hs : Submits env now faults call ready submitted q w submission s) : Carried w s.2 := by
  have hanswered : Carried w (log (.answered call submitted)
      (withReceipt faults submitted.receipt (entered now call submission ready submitted w))) :=
    h.carried [.answered call submitted, createdEvent call submission ready] rfl
      (fun c hc => .inl hc) rfl fun outcome => Submitted.returned .answered
  cases hs with
  | unchecked => exact .threw rfl rfl rfl
  | unsaved => exact h.failed rfl rfl rfl
  | unappended => exact h.failed rfl rfl rfl
  | unnotified => exact h.failed rfl rfl rfl
  | notified => exact hanswered
  | queued => exact hanswered
  | refused =>
      -- the record of a job that the queue refuses is gone again
      exact .threw rfl rfl (@delete_insert w.taskStore
        ((ready.saveParams submitted).toRecord now) faults.delete h.absent).1
  | suspends =>
      have hentered : Carried w (entered now call .sync ready submitted w) := by
        refine h.carried [createdEvent call .sync ready] rfl (fun c hc => .inl hc) rfl ?_
        rintro outcome (hmem | hmem) <;> simp [createdEvent] at hmem
      exact hentered.suspends h.envelope

/-- A dispatch that asks for no approval. -/
theorem dispatch_carried {q : AsyncTaskQueue Ready} (hledger : Ledger env w)
    (hplan : ∀ ready submitted, planDispatch env w.policy w.taskStore now
      (q.hasCapacity env.queueOptions) w.nextUuid request ≠
        .ok (.submit .approval ready submitted)) :
    Carried w (dispatch env now faults request (q, w)).2 := by
  have hturn := dispatch_cases env now faults request q w
  generalize dispatch env now faults request (q, w) = s at hturn ⊢
  cases hturn with
  | rejected => exact .threw rfl rfl rfl
  | @found outcome hanswer =>
      obtain ⟨t, record, hget, hresult, -⟩ := planDispatch_answer hanswer
      refine .unwritten [.answered w.nextCall outcome] rfl (fun c hc => .inl hc) (fun _ => rfl) ?_
      rintro outcome' (hmem | hmem)
      · obtain ⟨-, rfl⟩ := by simpa using hmem
        exact ⟨t, record, hget, hresult⟩
      · simp at hmem
  | waits => exact .quiet (fun _ hc => hc) rfl rfl
  | @submits submission ready submitted _ hsubmit hsubmits =>
      have hnumbered : Carried w (numbered w) := .quiet (fun _ hc => hc) rfl rfl
      have hrun : submission ≠ .approval := by
        rintro rfl
        exact hplan ready submitted hsubmit
      exact hnumbered.trans (submits_carried (planDispatch_drawn hledger hsubmit hrun) hsubmits)

end Submit

/-! ## The other methods

A cancellation that revokes a task puts a result without a context on record, which the condition on
a run excludes. -/

theorem approve_carried (request : ApprovalRequest) (w : Runtime) :
    Carried w (approve env request w) := by
  unfold approve
  dsimp only
  split
  · exact .threw rfl rfl rfl
  · rename_i approval hcheck
    obtain ⟨record, hchecked⟩ := checkApproval_eq_ok hcheck
    refine Carried.suspends (.unwritten [.approving w.nextCall approval] rfl (fun c hc => .inl hc)
      (fun _ => rfl) ?_) (validateTaskEnvelope_eq_ok hchecked.validated).2.2.1
    rintro outcome (hmem | hmem) <;> simp at hmem

theorem poll_carried (id : Nat) (w : Runtime) : Carried w (poll id w) := by
  have hpolled := poll_polled id w
  generalize poll id w = w' at hpolled
  cases hpolled with
  | absent => exact .refl w
  | timedOut => exact .threw rfl rfl rfl
  | @answered waiter record outcome _ hget hstored =>
      refine .unwritten [.answered id outcome] rfl (fun c hc => .inl hc) (fun _ => rfl) ?_
      rintro outcome' (hmem | hmem)
      · obtain ⟨-, rfl⟩ := by simpa using hmem
        exact ⟨waiter.taskId, record, hget, (storedAnswer_answer hstored).1⟩
      · simp at hmem
  | waits => exact .quiet (fun _ hc => hc) rfl rfl

theorem cancelTask_carried {q : AsyncTaskQueue Ready} {taskId : String} {tenantId : Option String}
    {w : Runtime} (hidle : ∀ record, cancelTarget w.taskStore taskId tenantId = .ok (some record) →
      record.status ∉ cancellableStates) :
    Carried w (cancelTask env now faults q taskId tenantId w) := by
  unfold cancelTask
  dsimp only
  split
  · exact .threw rfl rfl rfl
  · rename_i outcome hplan
    obtain ⟨record, hcancellable⟩ := planCancel_eq_ok hplan
    exact absurd hcancellable.status (hidle record hcancellable.target)

/-- An outcome in the context of its task that is offered to the record. -/
theorem Carried.offered {w w' : Runtime} (hledger : Ledger env w) {fault : Option String}
    {t : String} {outcome : InvokeResult} (events : List Event)
    (hhistory : w'.history = events ++ w.history) (hcalls : ∀ call ∈ w'.calls, call ∈ w.calls)
    (hstore : w'.taskStore = (w.taskStore.update now fault t (outcomeUpdate outcome)).2)
    (hcontext : ∀ record, w.taskStore.get t = some record → Accepts record outcome →
      outcome.result.contextId = record.contextId)
    (hreturned : ∀ outcome', Returned events outcome' →
      (∃ record, w.taskStore.get t = some record ∧ Accepts record outcome) ∧
        outcome'.result = outcome.result) : Carried w w' := by
  have hcalls' : ∀ call ∈ w'.calls, call ∈ w.calls ∨ call.envelope.contextId = none :=
    fun call hcall => .inl (hcalls call hcall)
  rcases update_outcome w.taskStore now fault t outcome with
    ⟨hnone, heq⟩ | ⟨record, _, hget, hrefuses, heq⟩ | ⟨record, hget, haccepts, heq⟩
  · -- no record, and nothing is written
    refine .unwritten events hhistory hcalls' (fun t' => by rw [hstore, heq]) ?_
    intro outcome' houtcome
    obtain ⟨⟨record, hget, -⟩, -⟩ := hreturned outcome' houtcome
    cases hnone.symm.trans hget
  · -- the record does not take the outcome
    refine .unwritten events hhistory hcalls' (fun t' => by rw [hstore, heq]) ?_
    intro outcome' houtcome
    obtain ⟨⟨record', hget', haccepts⟩, -⟩ := hreturned outcome' houtcome
    obtain rfl := Option.some.inj (hget.symm.trans hget')
    exact absurd haccepts hrefuses
  · have hget' : ∀ t', w'.taskStore.get t' =
        if t = t' then some (revised record outcome now) else w.taskStore.get t' := by
      intro t'
      rw [hstore, heq]
      exact OrderedMap.get_set _ _ _ _
    refine .written events hhistory hcalls' hget' rfl ?_ (hcontext record hget haccepts)
      (fun old hold => ?_) fun outcome' houtcome => (hreturned outcome' houtcome).2
    · rw [haccepts.result, (hledger.records _ _ hget).taskId]
    · obtain rfl := Option.some.inj (hget.symm.trans hold)
      rfl

/-! ## The turn after the executor -/

section Resume

variable {w : Runtime} {id : Nat} {outcome : Except Rejection ExecutionResult} {call : Call}
  {coreResult : CoreResult} {normalized : InvokeResult} {record : TaskRecord}

/-- No record takes a refusal of the core: it is a job's, whose task is running or at its end. -/
theorem Ledger.refusal_unaccepted {receipt : CoreReceipt} (h : Ledger env w)
    (harrives : Arrives env now w id outcome call (.receipt receipt) normalized record) :
    ¬ Accepts record (Origin.stamp call.origin normalized) := by
  intro haccepts
  have hknown := (h.calls call harrives.call_mem.1).1
  obtain ⟨⟨job, hjob⟩, haction⟩ := hknown.refused receipt (settledAnswer_receipt harrives.answer)
  obtain ⟨envelope, capability, hcreated, htask⟩ := hknown.created
  obtain ⟨k, envelope', capability', hcreated', htask', -, -, -, hfits⟩ :=
    (h.records _ _ harrives.record).origin
  obtain ⟨rfl, -, -⟩ := h.created_unique hcreated' hcreated (htask'.trans htask.symm)
  have hasync := @fits_of_async record _ (by rwa [hjob] at hfits) haccepts
  rw [Origin.stamp_result, (normalizeCoreResult_eq_ok.mp harrives.normalized).1] at hasync
  have hstatus : Submission.Fits .async (statusOfAction receipt.action) := hasync
  cases hcase : receipt.action with
  | executed => exact haction hcase
  | approvalRequired =>
      rw [hcase] at hstatus
      simp [statusOfAction, Submission.Fits, Submission.initial, isEnd] at hstatus
  | denied =>
      rw [hcase] at hstatus
      simp [statusOfAction, Submission.Fits, Submission.initial, isEnd] at hstatus

/-- **The condition on an answer**: an adapter that ends a live task answers in its context. -/
def AnswersInContext (w : Runtime) (id : Nat) (outcome : Except Rejection ExecutionResult) : Prop :=
  ∀ call execResult record, w.calls.find? (·.id == id) = some call →
    settledAnswer call.invocation outcome = .ok (.result execResult) →
      w.taskStore.get call.envelope.taskId = some record → isTerminal record.status = false →
        record.contextId = some execResult.intentId

/-- An answer that is accepted is in the context of the record. -/
theorem Arrives.context (hledger : Ledger env w) (hheld : ReceiptsNumbered env w)
    (hcalls : ∀ call ∈ w.calls, call.envelope.contextId = none)
    (hanswers : AnswersInContext w id outcome)
    (h : Arrives env now w id outcome call coreResult normalized record)
    (haccepts : Accepts record (Origin.stamp call.origin normalized)) :
    (Origin.stamp call.origin normalized).result.contextId = record.contextId := by
  cases coreResult with
  | receipt receipt => exact absurd haccepts (hledger.refusal_unaccepted h)
  | result execResult =>
      rw [Origin.stamp_result, (normalizeCoreResult_eq_ok.mp h.normalized).1]
      show some (call.envelope.contextId.getD execResult.intentId) = record.contextId
      -- the envelope has lost its own context in the validation, so the adapter's intent id is taken
      rw [hcalls call h.call_mem.1, Option.getD_none,
        hanswers call execResult record h.found h.answer h.record (h.live hheld haccepts)]

theorem finish_returned (call : Call) (answer : Except Rejection InvokeResult) (w : Runtime) :
    ∃ events, (finish call answer w).history = events ++ w.history ∧
      ∀ outcome, Returned events outcome → answer = .ok outcome := by
  unfold finish
  split
  · exact ⟨[], rfl, fun _ hreturned => absurd hreturned not_returned_nil⟩
  · refine ⟨[_], rfl, ?_⟩
    rintro outcome (hmem | hmem)
    · obtain ⟨-, rfl⟩ := by simpa using hmem
      rfl
    · simp at hmem
  · exact ⟨[_], rfl, fun _ hreturned => absurd hreturned threw_unreturned⟩
  · refine ⟨[_], rfl, ?_⟩
    rintro outcome (hmem | hmem)
    · obtain ⟨-, rfl⟩ := by simpa using hmem
      rfl
    · simp at hmem
  · exact ⟨[_], rfl, fun _ hreturned => absurd hreturned threw_unreturned⟩

theorem returned_unreturned {uuid : Nat} {outcome' : InvokeResult} :
    ¬ Returned (returnedEvents env now uuid call coreResult) outcome' := by
  rintro (hmem | hmem) <;> cases coreResult <;> simp [returnedEvents] at hmem

/-- A call that ends after its outcome was offered to the record of its task. -/
theorem Arrives.carried {w₁ : Runtime} {answer : Except Rejection InvokeResult}
    (hledger : Ledger env w) (hheld : ReceiptsNumbered env w)
    (hcalls : ∀ call ∈ w.calls, call.envelope.contextId = none)
    (hanswers : AnswersInContext w id outcome)
    (h : Arrives env now w id outcome call coreResult normalized record)
    (hstore : w₁.taskStore = (offered env now faults call coreResult normalized w).taskStore)
    (hhistory : w₁.history = (offered env now faults call coreResult normalized w).history)
    (hold : w₁.calls = (offered env now faults call coreResult normalized w).calls)
    (hanswer : ∀ outcome', answer = .ok outcome' →
      Accepts record (Origin.stamp call.origin normalized) ∧
        outcome' = Origin.stamp call.origin normalized) :
    Carried w (finish call answer w₁) := by
  obtain ⟨hsame, -⟩ := finish_cases call answer w₁
  obtain ⟨events, hevents, hreturned⟩ := finish_returned call answer w₁
  refine Carried.offered hledger (events ++ returnedEvents env now w.nextUuid call coreResult)
    ?_ ?_ (hsame.taskStore.trans hstore) ?_ ?_
  · rw [hevents, hhistory, List.append_assoc]
    rfl
  · rw [hsame.calls, hold]
    exact fun _ hc => List.mem_of_mem_eraseP hc
  · intro record' hget haccepts
    obtain rfl := Option.some.inj (h.record.symm.trans hget)
    exact h.context hledger hheld hcalls hanswers haccepts
  · intro outcome' houtcome
    rcases returned_append.mp houtcome with hnew | hevent
    · obtain ⟨haccepts, rfl⟩ := hanswer outcome' (hreturned outcome' hnew)
      exact ⟨⟨record, h.record, haccepts⟩, rfl⟩
    · exact absurd hevent returned_unreturned

theorem resume_carried (hledger : Ledger env w) (hheld : ReceiptsNumbered env w)
    (hcalls : ∀ call ∈ w.calls, call.envelope.contextId = none)
    (hanswers : AnswersInContext w id outcome) :
    Carried w (resume env now faults id outcome w) := by
  have hresumed : Resumed env now faults w id outcome (resume env now faults id outcome w) :=
    resume_cases hledger id outcome
  generalize resume env now faults id outcome w = w' at hresumed
  cases hresumed with
  | absent => exact .refl w
  | @rejected call e =>
      obtain ⟨hsame, -⟩ := finish_cases call (.error e)
        { w with calls := w.calls.eraseP (·.id == id) }
      obtain ⟨events, hevents, hreturned⟩ := finish_returned call (.error e)
        { w with calls := w.calls.eraseP (·.id == id) }
      refine .unwritten events hevents (fun c hc => .inl ?_) (fun t => by rw [hsame.taskStore])
        fun outcome' houtcome => absurd (hreturned outcome' houtcome) (by simp)
      rw [hsame.calls] at hc
      exact List.mem_of_mem_eraseP hc
  | refused harrives =>
      exact harrives.carried hledger hheld hcalls hanswers rfl rfl rfl (by simp)
  | unsaved harrives =>
      exact harrives.carried hledger hheld hcalls hanswers rfl rfl rfl (by simp)
  | saved harrives haccepts =>
      refine harrives.carried hledger hheld hcalls hanswers rfl rfl rfl fun outcome' houtcome => ?_
      obtain ⟨_, -, rfl⟩ := map_eq_ok.mp houtcome
      exact ⟨haccepts, rfl⟩

end Resume

/-! ## The queue

A dead letter ends its task from inside the queue, with the context that its job was given. -/

/-- The task of a job is on record, in the context of the job. -/
structure JobInContext (tasks : TaskStore) (job : QueueJob Ready) : Prop where
  envelope : job.run.envelope.contextId = none
  record   : ∃ record, tasks.get job.run.envelope.taskId = some record ∧
    record.contextId = some job.run.contextId

theorem JobInContext.kept {tasks tasks' : TaskStore} {job job' : QueueJob Ready}
    (h : JobInContext tasks job) (hsame : SameContexts tasks tasks') (hrun : job'.run = job.run) :
    JobInContext tasks' job' := by
  obtain ⟨record, hget, hcontext⟩ := h.record
  obtain ⟨record', hget', hcontext'⟩ := hsame _ record hget
  exact ⟨by rw [hrun]; exact h.envelope, record', by rw [hrun]; exact hget',
    by rw [hrun, hcontext', hcontext]⟩

/-- A task that is given up ends in its context. -/
theorem onDeadLetter_carried (hledger : Ledger env w) (hjob : JobInContext w.taskStore job)
    (deadLetter : DeadLetterRecord) :
    Carried w (onDeadLetter env now faults job deadLetter w).2 := by
  have hwrites := @onDeadLetter_writes env now faults job deadLetter w
  have hcalls : ∀ c ∈ (onDeadLetter env now faults job deadLetter w).2.calls, c ∈ w.calls :=
    fun c hc => hwrites.calls ▸ hc
  have hoffered : ∀ receipt, (onDeadLetter env now faults job deadLetter w).2.taskStore =
      (w.taskStore.update now faults.update job.run.envelope.taskId
        (outcomeUpdate ⟨job.run.deadLetterResult deadLetter.error, receipt⟩)).2 →
      Carried w (onDeadLetter env now faults job deadLetter w).2 := by
    intro receipt hstore
    refine .offered hledger [] hwrites.history hcalls hstore ?_ ?_
    · intro record hget _
      obtain ⟨record', hget', hcontext⟩ := hjob.record
      obtain rfl := Option.some.inj (hget.symm.trans hget')
      exact hcontext.symm
    · exact fun _ hreturned => absurd hreturned not_returned_nil
  cases hstage : job.run.stageReceipt env now w.nextUuid "dead_lettered" with
  | error e =>
      refine .quiet hcalls ?_ hwrites.history
      unfold onDeadLetter
      dsimp only
      rw [hstage]
  | ok receipt =>
      refine hoffered receipt ?_
      unfold onDeadLetter updateTask
      dsimp only
      rw [hstage]
      dsimp only
      split <;> rename_i heq <;> obtain ⟨-, rfl⟩ := Prod.mk.inj heq
      · rfl
      · split <;> rfl

theorem runJob_carried (hjob : JobInContext w.taskStore job) :
    Carried w (runJob env now job w) :=
  Carried.suspends (.quiet (fun _ hc => hc) rfl rfl) hjob.envelope

structure QueueCarried (env : OrchestratorEnv) (now : Millis) (w : Runtime)
    (v : QueueView Ready Runtime) : Prop where
  reached : Reached env .any now w v
  carried : Carried w v.outer
  jobs    : ∀ job ∈ liveJobs v, JobInContext v.outer.taskStore job

theorem queueCarried_viewMove {retries : QueueJob Ready → Prop} (v v' : QueueView Ready Runtime)
    (h : QueueCarried env now w v)
    (hm : AsyncTaskQueue.ViewMove (hooks env now faults) retries v v') :
    QueueCarried env now w v' := by
  have hcarried : Carried v.outer v'.outer :=
    viewMove_keeps hm (.refl v.outer) (fun job hjob => runJob_carried (h.jobs job hjob))
      fun job hjob record => onDeadLetter_carried h.reached.ledger (h.jobs job hjob) record
  refine ⟨reached_viewMove v v' h.reached hm, h.carried.trans hcarried, fun job hjob => ?_⟩
  obtain ⟨old, hold, hrun, -⟩ := viewMove_liveJobs hm job hjob
  exact (h.jobs old hold).kept hcarried.same hrun

theorem queueStep_carried {s : World} (hledger : WorldLedger env s)
    (hjobs : ∀ job ∈ liveJobs (AsyncTaskQueue.view (s.queue, s.outer)),
      JobInContext s.outer.taskStore job) {label : QueueLabel Ready} (hlabel : label.internal) :
    QueueCarried env s.now s.outer
      (AsyncTaskQueue.view ((queueStep env faults s label).queue,
        (queueStep env faults s label).outer)) :=
  QueueMachine.step_view (P := QueueCarried env s.now s.outer)
    (fun v v' hv (hm : AsyncTaskQueue.ViewMove _ (fun _ => True) v v') =>
      queueCarried_viewMove v v' hv hm) hlabel (fun _ _ _ _ _ _ _ _ => trivial)
    ⟨⟨.refl, hledger.ledger, hledger.waiters, hledger.jobs⟩, .refl _, hjobs⟩

/-- The jobs after a dispatch are those before, and one in the context of its task. -/
theorem liveJobs_dispatch {q : AsyncTaskQueue Ready} {request : DispatchRequest}
    (hledger : Ledger env w)
    (hjob : job ∈ liveJobs (AsyncTaskQueue.view (dispatch env now faults request (q, w)))) :
    job ∈ liveJobs (AsyncTaskQueue.view (q, w)) ∨
      JobInContext (dispatch env now faults request (q, w)).2.taskStore job := by
  have hturn := dispatch_cases env now faults request q w
  generalize dispatch env now faults request (q, w) = s at hturn hjob ⊢
  cases hturn with
  | rejected | found | waits => exact .inl hjob
  | submits hsubmit hsubmits =>
      obtain ⟨-, hsame | ⟨rfl, henqueued, hget⟩⟩ := submits_queue hsubmits
      · refine .inl ?_
        unfold liveJobs AsyncTaskQueue.view at hjob ⊢
        rwa [hsame] at hjob
      · rcases @Enqueued.jobs _ _ _ _ _ w henqueued job hjob with hold | rfl
        · exact .inl hold
        · have hdrawn := planDispatch_drawn hledger hsubmit (by simp)
          exact .inr ⟨hdrawn.envelope, _, hget, rfl⟩

end Orchestrator

end MapProtocol
