import MapProtocol.ControlPlane.Planning
import MapProtocol.ControlPlane.QueueView

/-!
# The life of a task

Every step of the orchestrator is a short sequence of moves: a task is put on record, a call waits,
an outcome is written, a receipt is appended, a call ends. `Move` lists them, each with all that the
code has checked before it. The invariants of the runtime are proved move by move.

`Ledger` is the first of them, and needs no assumption: a record agrees with the dispatch that
created it and with its own result, no task is created twice, and every waiting call belongs to a
task that was created the way the call's kind says.

A `Guard` restricts the moves a caller decides on. A run whose labels are all `Allowed` by a guard
makes only moves that the guard lets pass.
-/

namespace MapProtocol

open Js

namespace Orchestrator

variable {env : OrchestratorEnv} {now : Millis}
variable {h h' : List Event} {w w' : Runtime} {generatedId : String} {policy : PolicyDocument}
  {store : TaskStore} {uuid : Nat} {submission : Submission} {ready : Ready}
  {submitted : InvokeResult} {receipt : CoreReceipt}

/-! ## The ledger

The ledger relates what a runtime holds to its history: records, waiting calls and queued jobs
belong to tasks that a dispatch created, each once. -/

def Submission.Fits (submission : Submission) (status : TaskStatus) : Prop :=
  status = submission.initial ∨ isEnd status

/-- The submission that a waiting call belongs to. -/
def originSubmission : Origin → Submission
  | .dispatch  => .sync
  | .approve _ => .approval
  | .job _     => .async

/-- Some dispatch created the task of the envelope. -/
def Created (history : List Event) (submission : Submission) (envelope : TaskEnvelope)
    (capability : String) : Prop :=
  ∃ call, .created call submission envelope capability ∈ history

/-- A record agrees with the dispatch that created it, and has its result and its receipt. -/
structure OnRecord (history : List Event) (t : String) (record : TaskRecord) : Prop where
  taskId  : record.taskId = t
  origin  : ∃ submission envelope capability, Created history submission envelope capability ∧
    envelope.taskId = t ∧ record.requesterIdentity = some envelope.requesterIdentity ∧
    record.capability = some capability ∧ record.targetAgent = some envelope.targetAgent ∧
    submission.Fits record.status
  result  : ∃ result, record.result = some result ∧ result.status = record.status
  receipt : ∃ receipt, record.receipt = some receipt

/-- A waiting call belongs to a created task, and its adapter has started if it was reached. -/
structure CallKnown (history : List Event) (call : Call) : Prop where
  created  : ∃ envelope capability,
    Created history (originSubmission call.origin) envelope capability ∧
      envelope.taskId = call.envelope.taskId
  refused  : ∀ receipt, call.invocation = .refused receipt →
    (∃ id, call.origin = .job id) ∧ receipt.action ≠ .executed
  executed : ∀ intent context, call.invocation = .adapter intent context → ∃ policy,
    .executed call.id call.origin call.envelope.taskId intent policy ∈ history

/-- The number of the call that an event belongs to. -/
def eventCall : Event → Option Nat
  | .created call _ _ _    => some call
  | .approving call _      => some call
  | .executed call _ _ _ _ => some call
  | .returned call _ _ _ _ => some call
  | .answered call _       => some call
  | .threw call _ _ _      => some call
  | .cancelled _ _ _       => none

/-- **The ledger.** -/
structure Ledger (env : OrchestratorEnv) (w : Runtime) : Prop where
  records  : ∀ t record, w.taskStore.get t = some record → OnRecord w.history t record
  onRecord : ∀ submission envelope capability, Created w.history submission envelope capability →
    ∃ record, w.taskStore.get envelope.taskId = some record
  unique   : ∀ e ∈ w.history, ∀ e' ∈ w.history, ∀ c k n cap c' k' n' cap',
    e = .created c k n cap → e' = .created c' k' n' cap' → n.taskId = n'.taskId → e = e'
  calls    : ∀ call ∈ w.calls, CallKnown w.history call ∧ call.id < w.nextCall
  numbered : ∀ event ∈ w.history, ∀ call, eventCall event = some call → call < w.nextCall
  canSign  : (∃ submission envelope capability,
    Created w.history submission envelope capability) → CanSign env
  policy   : w.executorPolicy = w.policy
  index    : ∀ key t, w.taskStore.idempotencyIndex.get key = some t →
    ∃ record, w.taskStore.get t = some record

/-- A queued job belongs to a task that was created for it. -/
def JobKnown (history : List Event) (job : QueueJob Ready) : Prop :=
  Created history .async job.run.envelope job.run.capability ∧
    job.taskId = job.run.envelope.taskId

theorem Created.mono (hsub : h ⊆ h') {k : Submission} {e : TaskEnvelope} {cap : String}
    (hc : Created h k e cap) : Created h' k e cap := by
  obtain ⟨call, hmem⟩ := hc
  exact ⟨call, hsub hmem⟩

theorem OnRecord.mono {h h' : List Event} (hsub : h ⊆ h') {t : String} {record : TaskRecord}
    (hr : OnRecord h t record) : OnRecord h' t record := by
  obtain ⟨k, e, cap, hc, hrest⟩ := hr.origin
  exact ⟨hr.taskId, ⟨k, e, cap, hc.mono hsub, hrest⟩, hr.result, hr.receipt⟩

theorem CallKnown.mono (hsub : h ⊆ h') {call : Call} (hk : CallKnown h call) :
    CallKnown h' call := by
  obtain ⟨e, cap, hc, htask⟩ := hk.created
  refine ⟨⟨e, cap, hc.mono hsub, htask⟩, hk.refused, fun intent context hi => ?_⟩
  obtain ⟨policy, hmem⟩ := hk.executed intent context hi
  exact ⟨policy, hsub hmem⟩

theorem JobKnown.mono (hsub : h ⊆ h') {job : QueueJob Ready} (hj : JobKnown h job) :
    JobKnown h' job := ⟨hj.1.mono hsub, hj.2⟩

theorem Ledger.created_unique (h : Ledger env w) {k k' : Submission} {e e' : TaskEnvelope}
    {cap cap' : String} (hc : Created w.history k e cap) (hc' : Created w.history k' e' cap')
    (ht : e.taskId = e'.taskId) :
    k = k' ∧ e = e' ∧ cap = cap' := by
  obtain ⟨c, hmem⟩ := hc
  obtain ⟨c', hmem'⟩ := hc'
  have heq := h.unique _ hmem _ hmem' _ _ _ _ _ _ _ _ rfl rfl ht
  simp only [Event.created.injEq] at heq
  exact heq.2

/-! ## What the executor runs -/

theorem executeApproved_adapter {executor : Executor} {intent handed : Intent}
    {context : ExecutionContext}
    (h : executor.executeApproved generatedId intent = .adapter handed context) :
    handed = normalizeIntent intent := by
  unfold Executor.executeApproved Executor.executeNormalizedIntent at h
  dsimp only at h
  split at h
  · cases h
  · split at h
    · cases h
    · split at h
      · exact (Invocation.adapter.inj h).1.symm
      · cases h

theorem evaluatePolicy_eq_ok {envelope : TaskEnvelope} {capability : String} {decision : Decision}
    (h : evaluatePolicy env policy envelope capability = .ok decision) :
    ∃ decided, evaluate env.regExp (normalizeIntent (mapEnvelopeToIntent envelope capability))
      policy = .ok decided ∧ decided.action = decision.action := by
  unfold evaluatePolicy at h
  simp only [bind_eq_ok, pure_eq_ok] at h
  obtain ⟨decided, hdecided, rfl⟩ := h
  exact ⟨decided, hdecided, rfl⟩

/-- A task submitted to run has passed the policy. -/
theorem Planned.passes {request : DispatchRequest}
    (hp : Planned env policy store now uuid request submission ready submitted)
    (hrun : submission ≠ .approval) :
    Passes env.regExp policy (normalizeIntent ready.intent) := by
  obtain ⟨decided, hdecided, haction⟩ := evaluatePolicy_eq_ok hp.decided
  refine ⟨decided, hdecided, ?_⟩
  have hdeny := hp.allowed
  have happroval := mt hp.action.mpr hrun
  rw [haction]
  cases h : ready.decision.action with
  | deny => exact absurd h hdeny
  | requireApproval => exact absurd h happroval
  | allow => rfl
  | other text => rfl

/-! ## The moves

Every method is a sequence of a few moves. What is proved of each move holds of every method, and of
the closures that the queue runs. -/

/-- What the callers of a run may do. -/
structure Guard where
  submits   : Submission → Ready → Prop
  approves  : Runtime → Approval → Prop
  sets      : Runtime → PolicyDocument → Prop
  completes : Runtime → Call → CoreResult → Prop

def Guard.any : Guard where
  submits _ _ := True
  approves _ _ := True
  sets _ _ := True
  completes _ _ _ := True

inductive CancelEvent (w : Runtime) (taskId : String) (outcome : InvokeResult) : Event → Prop
  | cancelled (queued : Bool) : CancelEvent w taskId outcome (.cancelled taskId queued outcome)
  | threw (call : Nat) (rejection : Rejection) (h : call < w.nextCall) :
      CancelEvent w taskId outcome (.threw call .cancelTask taskId rejection)

/-- **What a step is made of.** -/
inductive Move (env : OrchestratorEnv) (g : Guard) (now : Millis) : Runtime → Runtime → Prop
  /-- Numbers are drawn, calls are over, dispatches wait, closures have settled. -/
  | bookkeeping {w w' : Runtime} (hpolicy : w'.policy = w.policy)
      (hexecutor : w'.executorPolicy = w.executorPolicy) (htasks : w'.taskStore = w.taskStore)
      (hreceipts : w'.receiptStore = w.receiptStore) (hhistory : w'.history = w.history)
      (hcalls : ∀ call ∈ w'.calls, call ∈ w.calls) (hcall : w.nextCall ≤ w'.nextCall)
      (huuid : w.nextUuid ≤ w'.nextUuid) : Move env g now w w'
  | threw {w : Runtime} {call : Nat} {method : Method} {taskId : String} {rejection : Rejection}
      (hcall : call < w.nextCall) : Move env g now w (log (.threw call method taskId rejection) w)
  /-- The answer is what a record holds. -/
  | answered {w : Runtime} {call : Nat} {outcome : InvokeResult} {t : String} {record : TaskRecord}
      (hcall : call < w.nextCall) (hget : w.taskStore.get t = some record)
      (hresult : record.result = some outcome.result)
      (hreceipt : record.receipt = some outcome.receipt) :
      Move env g now w (log (.answered call outcome) w)
  | created {w : Runtime} {call uuid : Nat} {request : DispatchRequest} {submission : Submission}
      {ready : Ready} {submitted : InvokeResult}
      (hplanned : Planned env w.policy w.taskStore now uuid request submission ready submitted)
      (hcall : call < w.nextCall) (huuid : uuid + 1 < w.nextUuid)
      (hguard : g.submits submission ready) :
      Move env g now w
        { w with
          taskStore := w.taskStore.insert ((ready.saveParams submitted).toRecord now)
          history := createdEvent call submission ready :: w.history }
  /-- The receipt appended is the one a record holds, and not a cancellation's. -/
  | appended {w : Runtime} {fault : Option String} {receipt : ExecutionReceipt} {t : String}
      {record : TaskRecord} (hget : w.taskStore.get t = some record)
      (hreceipt : record.receipt = some receipt) (hstatus : record.status ≠ .revoked) :
      Move env g now w { w with receiptStore := (w.receiptStore.append fault receipt).2 }
  /-- A job that the queue refused: the record is gone again, the receipt is not. -/
  | withdrawn {w : Runtime} {uuid : Nat} {request : DispatchRequest} {ready : Ready}
      {submitted : InvokeResult} {fault : Option String} {store : TaskStore}
      (hplanned : Planned env w.policy w.taskStore now uuid request .async ready submitted)
      (huuid : uuid + 1 < w.nextUuid) (hguard : g.submits .async ready)
      (htasks : store.tasks = w.taskStore.tasks)
      (hindex : ∀ key t, store.idempotencyIndex.get key = some t →
        w.taskStore.idempotencyIndex.get key = some t)
      (hkeys : ∀ key t, t ≠ "" → w.taskStore.idempotencyIndex.get key = some t →
        store.idempotencyIndex.get key = some t) :
      Move env g now w
        { w with
          taskStore := store
          receiptStore := (w.receiptStore.append fault submitted.receipt).2 }
  /-- A dispatch or the closure of a job waits for the executor. -/
  | suspended {w : Runtime} {call : Call} {envelope : TaskEnvelope} {capability : String}
      (horigin : ∀ reference, call.origin ≠ .approve reference)
      (hcreated : Created w.history (originSubmission call.origin) envelope capability)
      (htask : envelope.taskId = call.envelope.taskId) (hcall : call.id < w.nextCall)
      (hrefused : ∀ receipt, call.invocation = .refused receipt →
        (∃ id, call.origin = .job id) ∧ receipt.action ≠ .executed)
      (hpasses : ∀ intent context, call.invocation = .adapter intent context →
        Passes env.regExp w.policy intent ∨ Passes env.regExp w.executorPolicy intent) :
      Move env g now w (suspend call w)
  | approved {w : Runtime} {request : ApprovalRequest} {approval : Approval} {record : TaskRecord}
      {call : Call} (hchecked : Checked env w.taskStore request approval record)
      (hguard : g.approves w approval) (hid : call.id = w.nextCall)
      (horigin : call.origin = .approve approval.reference)
      (henvelope : call.envelope = approval.envelope)
      (hinvocation : ∃ generatedId, call.invocation =
        (executor env w).executeApproved generatedId approval.intent) :
      Move env g now w
        (suspend call (log (.approving call.id approval) { w with nextCall := w.nextCall + 1 }))
  /-- The executor has answered, and the outcome is written to the record. -/
  | settled {w : Runtime} {call : Call} {calls : List Call} {coreResult : CoreResult}
      {outcome : Except Rejection ExecutionResult} {normalized : InvokeResult}
      {fault : Option String} (hcall : call ∈ w.calls)
      (hanswer : settledAnswer call.invocation outcome = .ok coreResult)
      (hguard : g.completes w call coreResult) (hcalls : ∀ c ∈ calls, c ∈ w.calls)
      (hnormalized : normalizeCoreResult env now w.nextUuid coreResult call.envelope
        call.capability call.negotiation = .ok normalized) :
      Move env g now w
        { w with
          calls := calls
          nextUuid := w.nextUuid + 1
          history := returnedEvents env now w.nextUuid call coreResult ++ w.history
          taskStore := (w.taskStore.update now fault call.envelope.taskId
            (outcomeUpdate (Origin.stamp call.origin normalized))).2 }
  | deadLettered {w : Runtime} {ready : Ready} {uuid : Nat} {receipt : ExecutionReceipt}
      {error : String} {fault : Option String}
      (hcreated : Created w.history .async ready.envelope ready.capability)
      (hreceipt : ready.stageReceipt env now uuid "dead_lettered" = .ok receipt)
      (huuid : uuid < w.nextUuid) :
      Move env g now w
        { w with
          taskStore := (w.taskStore.update now fault ready.envelope.taskId
            (outcomeUpdate ⟨ready.deadLetterResult error, receipt⟩)).2 }
  | cancelled {w : Runtime} {taskId : String} {tenantId : Option String} {outcome : InvokeResult}
      {record : TaskRecord} {fault : Option String} {event : Event}
      (hcancellable : Cancellable env w.taskStore now taskId tenantId outcome record)
      (hevent : CancelEvent w taskId outcome event) :
      Move env g now w
        { w with
          taskStore := (w.taskStore.update now fault taskId (outcomeUpdate outcome)).2
          history := event :: w.history }
  | policySet {w : Runtime} {policy : PolicyDocument} (hguard : g.sets w policy) :
      Move env g now w (setPolicy policy w)

/-! ## The moves keep the ledger

Most moves create nothing, and the history only grows; the two that put a record there come last. -/

/-- A creation is the only event that the ledger must account for. -/
def isCreation : Event → Bool
  | .created _ _ _ _ => true
  | _                => false

theorem Created.of_append {events h : List Event} (hnew : ∀ event ∈ events, isCreation event = false)
    {k : Submission} {e : TaskEnvelope} {cap : String} (hc : Created (events ++ h) k e cap) :
    Created h k e cap := by
  obtain ⟨call, hmem⟩ := hc
  rcases List.mem_append.mp hmem with hin | hold
  · exact absurd (hnew _ hin) (by simp [isCreation])
  · exact ⟨call, hold⟩

/-- The ledger after events that create nothing. -/
theorem Ledger.extend {w w' : Runtime} (h : Ledger env w) (events : List Event)
    (hhistory : w'.history = events ++ w.history)
    (hnew : ∀ event ∈ events, isCreation event = false)
    (hnumbered : ∀ event ∈ events, ∀ call, eventCall event = some call → call < w'.nextCall)
    (hrecords : ∀ t record, w'.taskStore.get t = some record → OnRecord w'.history t record)
    (hkeep : ∀ t record, w.taskStore.get t = some record →
      ∃ record', w'.taskStore.get t = some record')
    (hindex : ∀ key t, w'.taskStore.idempotencyIndex.get key = some t →
      w.taskStore.idempotencyIndex.get key = some t)
    (hcalls : ∀ call ∈ w'.calls, CallKnown w'.history call ∧ call.id < w'.nextCall)
    (hcall : w.nextCall ≤ w'.nextCall) (hpolicy : w'.executorPolicy = w'.policy) :
    Ledger env w' := by
  -- what was created is as before, so only the records and the calls are new
  have hback : ∀ k e cap, Created w'.history k e cap → Created w.history k e cap := by
    intro k e cap hc
    rw [hhistory] at hc
    exact hc.of_append hnew
  have hmem : ∀ c k n cap, Event.created c k n cap ∈ w'.history →
      Event.created c k n cap ∈ w.history := by
    intro c k n cap hm
    rw [hhistory] at hm
    rcases List.mem_append.mp hm with hin | hold
    · exact absurd (hnew _ hin) (by simp [isCreation])
    · exact hold
  constructor
  · exact hrecords
  · intro k e cap hc
    obtain ⟨record, hget⟩ := h.onRecord k e cap (hback _ _ _ hc)
    exact hkeep _ _ hget
  · rintro e he e' he' c k n cap c' k' n' cap' rfl rfl ht
    exact h.unique _ (hmem _ _ _ _ he) _ (hmem _ _ _ _ he') _ _ _ _ _ _ _ _ rfl rfl ht
  · exact hcalls
  · intro event hevent call hc
    rw [hhistory] at hevent
    rcases List.mem_append.mp hevent with hin | hold
    · exact hnumbered event hin call hc
    · exact Nat.lt_of_lt_of_le (h.numbered event hold call hc) hcall
  · rintro ⟨k, e, cap, hc⟩
    exact h.canSign ⟨k, e, cap, hback _ _ _ hc⟩
  · exact hpolicy
  · intro key t hkey
    obtain ⟨record, hget⟩ := h.index key t (hindex key t hkey)
    exact hkeep _ _ hget

theorem subset_append {events h h' : List Event} (heq : h' = events ++ h) : h ⊆ h' := by
  rw [heq]
  exact List.subset_append_right _ _

theorem Ledger.logged (h : Ledger env w) {event : Event} (hnew : isCreation event = false)
    (hnumbered : ∀ call, eventCall event = some call → call < w.nextCall) :
    Ledger env (log event w) := by
  have hsub : w.history ⊆ (log event w).history := List.subset_cons_self _ _
  refine h.extend [event] rfl ?_ ?_ ?_ (fun t record hget => ⟨record, hget⟩)
    (fun _ _ hkey => hkey) ?_ (Nat.le_refl _) h.policy
  · intro e he
    rw [List.mem_singleton.mp he]
    exact hnew
  · intro e he call hc
    rw [List.mem_singleton.mp he] at hc
    exact hnumbered call hc
  · exact fun t record hget => (h.records t record hget).mono hsub
  · exact fun call hc => ⟨(h.calls call hc).1.mono hsub, (h.calls call hc).2⟩

/-- A task that is put on record was not on record before. -/
theorem Planned.absent (h : Ledger env w) {request : DispatchRequest}
    (hp : Planned env w.policy w.taskStore now uuid request submission ready submitted) :
    w.taskStore.get ready.envelope.taskId = none := by
  have hfound := hp.unstored
  unfold findStored at hfound
  simp only [bind_eq_ok] at hfound
  obtain ⟨byKey, _, hrest⟩ := hfound
  cases byKey with
  | some stored => simp at hrest
  | none =>
      cases hget : w.taskStore.get ready.envelope.taskId with
      | none => rfl
      | some record =>
          -- a record on the ledger has a result and a receipt, and would have answered
          obtain ⟨result, hresult, _⟩ := (h.records _ _ hget).result
          obtain ⟨receipt, hreceipt⟩ := (h.records _ _ hget).receipt
          simp only [hget, lookupStored, bind_eq_ok] at hrest
          obtain ⟨same, _, hrest⟩ := hrest
          cases same with
          | false => simp at hrest
          | true =>
              simp only [if_true, pure_eq_ok, storedAnswer, hresult, hreceipt] at hrest
              split at hrest <;> cases hrest

/-- The record of a submission agrees with its creation. -/
theorem Planned.onRecord {uuid call : Nat} {request : DispatchRequest} {history : List Event}
    (hp : Planned env policy store now uuid request submission ready submitted)
    (hc : createdEvent call submission ready ∈ history) :
    OnRecord history ready.envelope.taskId ((ready.saveParams submitted).toRecord now) where
  taskId := rfl
  origin := by
    refine ⟨submission, ready.envelope, ready.capability, ⟨call, hc⟩, rfl, rfl, rfl, ?_, ?_⟩
    · show some ready.descriptor.agentId = _
      rw [hp.agent]
    · exact .inl hp.status
  result := ⟨submitted.result, rfl, rfl⟩
  receipt := ⟨submitted.receipt, rfl⟩

theorem Planned.canSign {request : DispatchRequest}
    (hp : Planned env policy store now uuid request submission ready submitted) : CanSign env :=
  canSign_of_sign hp.receipt

theorem Ledger.creates (h : Ledger env w) {uuid call : Nat} {request : DispatchRequest}
    (hp : Planned env w.policy w.taskStore now uuid request submission ready submitted)
    (hcall : call < w.nextCall) :
    Ledger env { w with
      taskStore := w.taskStore.insert ((ready.saveParams submitted).toRecord now)
      history := createdEvent call submission ready :: w.history } := by
  have hsub : w.history ⊆ createdEvent call submission ready :: w.history :=
    List.subset_cons_self _ _
  have habsent := hp.absent h
  -- an earlier creation of this task would have left a record
  have hfresh : ∀ c k n cap, Event.created c k n cap ∈ w.history →
      n.taskId ≠ ready.envelope.taskId := by
    intro c k n cap hmem ht
    obtain ⟨record, hget⟩ := h.onRecord k n cap ⟨c, hmem⟩
    rw [ht, habsent] at hget
    cases hget
  have hget : ∀ t, (w.taskStore.insert ((ready.saveParams submitted).toRecord now)).get t =
      if ready.envelope.taskId = t then some ((ready.saveParams submitted).toRecord now)
      else w.taskStore.get t := fun t => TaskStore.get_insert _ _ _
  constructor
  · intro t record hrecord
    rw [hget] at hrecord
    split at hrecord
    · rename_i ht
      cases hrecord
      subst ht
      exact hp.onRecord List.mem_cons_self
    · exact (h.records t record hrecord).mono hsub
  · rintro k n cap ⟨c, hmem⟩
    rw [hget]
    rcases List.mem_cons.mp hmem with heq | hold
    · cases heq
      exact ⟨_, if_pos rfl⟩
    · split
      · exact ⟨_, rfl⟩
      · exact h.onRecord k n cap ⟨c, hold⟩
  · rintro e he e' he' c k n cap c' k' n' cap' rfl rfl ht
    rcases List.mem_cons.mp he with heq | hold
    · rcases List.mem_cons.mp he' with heq' | hold'
      · rw [heq, heq']
      · cases heq
        exact absurd ht.symm (hfresh _ _ _ _ hold')
    · rcases List.mem_cons.mp he' with heq' | hold'
      · cases heq'
        exact absurd ht (hfresh _ _ _ _ hold)
      · exact h.unique _ hold _ hold' _ _ _ _ _ _ _ _ rfl rfl ht
  · exact fun c hc => ⟨(h.calls c hc).1.mono hsub, (h.calls c hc).2⟩
  · intro event hevent c hc
    rcases List.mem_cons.mp hevent with rfl | hold
    · cases hc
      exact hcall
    · exact h.numbered event hold c hc
  · exact fun _ => hp.canSign
  · exact h.policy
  · intro key t hkey
    rw [hget]
    split
    · exact ⟨_, rfl⟩
    · rename_i hne
      rcases TaskStore.index_insert hkey with heq | hold
      · exact absurd heq.symm hne
      · exact h.index key t hold

/-- A call that starts to wait for the executor. -/
theorem Ledger.suspends {w : Runtime} (h : Ledger env w) {call : Call}
    (hcreated : ∃ envelope capability,
      Created w.history (originSubmission call.origin) envelope capability ∧
        envelope.taskId = call.envelope.taskId)
    (hcall : call.id < w.nextCall)
    (hrefused : ∀ receipt, call.invocation = .refused receipt →
      (∃ id, call.origin = .job id) ∧ receipt.action ≠ .executed) :
    Ledger env (suspend call w) ∧ w.history ⊆ (suspend call w).history := by
  obtain ⟨e, cap, hc, htask⟩ := hcreated
  -- the adapter's event is logged exactly when the executor reached the adapter
  obtain ⟨events, hhistory, hnew, hnumbered, hexecuted⟩ : ∃ events,
      (suspend call w).history = events ++ w.history ∧
      (∀ event ∈ events, isCreation event = false) ∧
      (∀ event ∈ events, ∀ c, eventCall event = some c → c < w.nextCall) ∧
      ∀ intent context, call.invocation = .adapter intent context → ∃ policy,
        .executed call.id call.origin call.envelope.taskId intent policy ∈ events := by
    unfold suspend
    cases hi : call.invocation with
    | rejected message => exact ⟨[], rfl, by simp, by simp, by simp⟩
    | refused receipt => exact ⟨[], rfl, by simp, by simp, by simp⟩
    | adapter intent context =>
        refine ⟨[.executed call.id call.origin call.envelope.taskId intent w.policy], rfl,
          by simp [isCreation], ?_, ?_⟩
        · intro event hevent c hec
          rw [List.mem_singleton.mp hevent] at hec
          cases hec
          exact hcall
        · intro intent' context' heq
          cases heq
          exact ⟨_, List.mem_singleton_self _⟩
  have hsub : w.history ⊆ (suspend call w).history := subset_append hhistory
  refine ⟨?_, hsub⟩
  refine h.extend events hhistory hnew hnumbered ?_ (fun t record hget => ⟨record, hget⟩)
    (fun _ _ hkey => hkey) ?_ (Nat.le_refl _) h.policy
  · exact fun t record hget => (h.records t record hget).mono hsub
  · intro c hmem
    rcases List.mem_append.mp hmem with hold | hlast
    · exact ⟨(h.calls c hold).1.mono hsub, (h.calls c hold).2⟩
    · rw [List.mem_singleton.mp hlast]
      refine ⟨⟨⟨e, cap, hc.mono hsub, htask⟩, hrefused, fun intent context hi => ?_⟩, hcall⟩
      obtain ⟨policy, hmem⟩ := hexecuted intent context hi
      refine ⟨policy, ?_⟩
      rw [hhistory]
      exact List.mem_append_left _ hmem

theorem Ledger.writes {w w' : Runtime} (h : Ledger env w) (events : List Event)
    {fault : Option String} {t : String} {outcome : InvokeResult}
    (hfits : ∀ old, w.taskStore.get t = some old → Accepts old outcome →
      ∀ k, Submission.Fits k old.status → (∃ e cap, Created w.history k e cap ∧ e.taskId = t) →
        Submission.Fits k outcome.result.status)
    (hstore : w'.taskStore = (w.taskStore.update now fault t (outcomeUpdate outcome)).2)
    (hhistory : w'.history = events ++ w.history)
    (hnew : ∀ event ∈ events, isCreation event = false)
    (hnumbered : ∀ event ∈ events, ∀ call, eventCall event = some call → call < w.nextCall)
    (hcalls : ∀ call ∈ w'.calls, call ∈ w.calls) (hcall : w'.nextCall = w.nextCall)
    (hpolicy : w'.policy = w.policy) (hexecutor : w'.executorPolicy = w.executorPolicy) :
    Ledger env w' := by
  have hsub : w.history ⊆ w'.history := subset_append hhistory
  refine h.extend events hhistory hnew ?_ ?_ ?_ ?_ ?_ (Nat.le_of_eq hcall.symm) ?_
  · rw [hcall]
    exact hnumbered
  · intro t' record hget
    rw [hstore] at hget
    rcases get_update_outcome hget with hold | ⟨old, rfl, hold, haccepts, rfl⟩
    · exact (h.records _ _ hold).mono hsub
    -- the update keeps who asked for what; its status has to fit the submission
    · have hrec := (h.records _ _ hold).mono hsub
      obtain ⟨k, e, cap, hc, htask, hreq, hcap, hagent, hk⟩ := (h.records _ _ hold).origin
      have hfit := hfits old hold haccepts k hk ⟨e, cap, hc, htask⟩
      exact ⟨hrec.taskId, ⟨k, e, cap, hc.mono hsub, htask, hreq, hcap, hagent, hfit⟩,
        ⟨outcome.result, rfl, rfl⟩, ⟨outcome.receipt, rfl⟩⟩
  · intro t' record hget
    rw [hstore]
    exact get_update_of_get hget
  · intro key t' hkey
    rw [hstore, index_update] at hkey
    exact hkey
  · intro call hmem
    obtain ⟨hknown, hlt⟩ := h.calls call (hcalls call hmem)
    exact ⟨hknown.mono hsub, by rw [hcall]; exact hlt⟩
  · rw [hpolicy, hexecutor]
    exact h.policy

/-! ## The statuses an outcome leads to

A record takes an outcome only along the transition table. That the outcome fits is known from the
submission that the call belongs to. -/

theorem Origin.stamp_result (origin : Origin) (outcome : InvokeResult) :
    (Origin.stamp origin outcome).result = outcome.result := by
  cases origin <;> rfl

theorem isEnd_of_result {execResult : ExecutionResult} {envelope : TaskEnvelope}
    {capability : String} {negotiation : InvocationNegotiation} :
    isEnd (outcomeOf env now uuid (.result execResult) envelope capability
      negotiation).1.status := by
  show isEnd (statusOfResult execResult.status)
  cases execResult.status with
  | ok => exact .inl rfl
  | error => exact .inr (.inl rfl)

theorem fits_of_async {old : TaskRecord} {outcome : InvokeResult}
    (hfits : Submission.Fits .async old.status) (haccepts : Accepts old outcome) :
    Submission.Fits .async outcome.result.status := by
  rcases haccepts.status with ⟨hsame, _⟩ | ⟨_, hlive, hmoves⟩
  · rw [← hsame]
    exact hfits
  · rcases hfits with hrunning | hend
    · have hr : old.status = .running := hrunning
      rw [hr] at hmoves
      exact .inr (by simpa [taskTransitions, isEnd] using hmoves)
    · rw [hend.isTerminal] at hlive
      cases hlive

theorem settledAnswer_receipt {invocation : Invocation} {outcome : Except Rejection ExecutionResult}
    (h : settledAnswer invocation outcome = .ok (.receipt receipt)) :
    invocation = .refused receipt := by
  cases invocation with
  | rejected message => cases h
  | refused r =>
      cases h
      rfl
  | adapter intent context =>
      simp only [settledAnswer, map_eq_ok] at h
      obtain ⟨_, _, heq⟩ := h
      cases heq

theorem settledAnswer_result {invocation : Invocation} {outcome : Except Rejection ExecutionResult}
    {execResult : ExecutionResult} (h : settledAnswer invocation outcome = .ok (.result execResult)) :
    ∃ intent context, invocation = .adapter intent context := by
  cases invocation with
  | rejected message => cases h
  | refused r => cases h
  | adapter intent context => exact ⟨intent, context, rfl⟩

theorem returnedEvents_new {call : Call} {coreResult : CoreResult} :
    ∀ event ∈ returnedEvents env now uuid call coreResult,
      isCreation event = false ∧ eventCall event = some call.id := by
  intro event hevent
  cases coreResult with
  | receipt receipt => cases hevent
  | result execResult =>
      rw [List.mem_singleton.mp hevent]
      exact ⟨rfl, rfl⟩

/-- The outcome of a waiting call fits the record of its task. -/
theorem Ledger.settled_fits {w : Runtime} (h : Ledger env w) {call : Call} (hcall : call ∈ w.calls)
    {outcome : Except Rejection ExecutionResult} {coreResult : CoreResult} {uuid : Nat}
    {normalized : InvokeResult}
    (hanswer : settledAnswer call.invocation outcome = .ok coreResult)
    (hnormalized : normalizeCoreResult env now uuid coreResult call.envelope call.capability
      call.negotiation = .ok normalized) :
    ∀ old, w.taskStore.get call.envelope.taskId = some old →
      Accepts old (Origin.stamp call.origin normalized) → ∀ k, Submission.Fits k old.status →
        (∃ e cap, Created w.history k e cap ∧ e.taskId = call.envelope.taskId) →
          Submission.Fits k (Origin.stamp call.origin normalized).result.status := by
  intro old _ haccepts k hk hcreated
  obtain ⟨e, cap, hc, htask⟩ := hcreated
  have hknown := (h.calls call hcall).1
  cases coreResult with
  | result execResult =>
      rw [Origin.stamp_result, (normalizeCoreResult_eq_ok.mp hnormalized).1]
      exact .inr isEnd_of_result
  | receipt receipt =>
      obtain ⟨⟨id, hjob⟩, _⟩ := hknown.refused receipt (settledAnswer_receipt hanswer)
      obtain ⟨e', cap', hc', htask'⟩ := hknown.created
      obtain ⟨rfl, _, _⟩ := h.created_unique hc hc' (htask.trans htask'.symm)
      rw [hjob] at hk ⊢
      rw [hjob] at haccepts
      exact fits_of_async hk haccepts

/-- The executor refuses an intent with a receipt that says so. -/
theorem execute_refused_action {executor : Executor} {regExp : RegExpEngine} {intent : Intent}
    (h : executor.execute regExp now generatedId intent = .refused receipt) :
    receipt.action ≠ .executed := by
  have hnormalized : ∀ i, executor.executeNormalizedIntent generatedId i ≠ .refused receipt := by
    intro i
    unfold Executor.executeNormalizedIntent
    dsimp only
    split
    · simp
    · split <;> simp
  unfold Executor.execute at h
  dsimp only at h
  split at h
  · cases h
  · split at h
    · cases h
    · split at h
      · obtain rfl := Invocation.refused.inj h
        simp
      · obtain rfl := Invocation.refused.inj h
        simp
      · exact absurd h (hnormalized _)

theorem executeApproved_ne_refused {executor : Executor} {intent : Intent} :
    executor.executeApproved generatedId intent ≠ .refused receipt := by
  unfold Executor.executeApproved Executor.executeNormalizedIntent
  dsimp only
  split
  · simp
  · split
    · simp
    · split <;> simp

/-- A task that may be approved was created for approval, with the approval's capability and agent.
-/
theorem Checked.created {w : Runtime} (h : Ledger env w) {request : ApprovalRequest}
    {approval : Approval} {record : TaskRecord}
    (hchecked : Checked env w.taskStore request approval record) :
    ∃ envelope capability, Created w.history .approval envelope capability ∧
      envelope.taskId = approval.envelope.taskId ∧ capability = approval.capability ∧
      envelope.targetAgent = approval.envelope.targetAgent := by
  obtain ⟨k, e, cap, hc, htask, _, hcap, hagent, hfits⟩ := (h.records _ _ hchecked.found).origin
  have hk : k = .approval := by
    rw [hchecked.status] at hfits
    cases k <;> rcases hfits with hinit | hend <;> simp_all [Submission.initial, isEnd]
  subst hk
  refine ⟨e, cap, hc, htask, ?_, ?_⟩
  · exact Option.some.inj (hcap.symm.trans hchecked.capability)
  · exact Option.some.inj (hagent.symm.trans hchecked.agent)

/-- A call that runs an approved intent. -/
theorem Ledger.approves (h : Ledger env w) {request : ApprovalRequest} {approval : Approval}
    {record : TaskRecord} {call : Call} (hchecked : Checked env w.taskStore request approval record)
    (hid : call.id = w.nextCall) (horigin : call.origin = .approve approval.reference)
    (henvelope : call.envelope = approval.envelope)
    (hinvocation : call.invocation = (executor env w).executeApproved generatedId approval.intent) :
    Ledger env
      (suspend call (log (.approving call.id approval) { w with nextCall := w.nextCall + 1 })) := by
  have hnext : Ledger env { w with nextCall := w.nextCall + 1 } :=
    h.extend [] rfl (by simp) (by simp) h.records (fun t r hget => ⟨r, hget⟩)
      (fun _ _ hkey => hkey)
      (fun c hc => ⟨(h.calls c hc).1, Nat.lt_succ_of_lt (h.calls c hc).2⟩)
      (Nat.le_succ _) h.policy
  have hlogged : Ledger env
      (log (.approving call.id approval) { w with nextCall := w.nextCall + 1 }) := by
    refine hnext.logged rfl (fun c hc => ?_)
    cases hc
    rw [hid]
    exact Nat.lt_succ_self _
  -- the record awaits approval, so it was created for one
  obtain ⟨e, cap, hc, htask, _, _⟩ := hchecked.created h
  refine (hlogged.suspends ⟨e, cap, ?_, ?_⟩ ?_ ?_).1
  · rw [horigin]
    exact hc.mono (List.subset_cons_self _ _)
  · rw [henvelope]
    exact htask
  · rw [hid]
    exact Nat.lt_succ_self _
  · intro receipt hr
    rw [hinvocation] at hr
    exact absurd hr executeApproved_ne_refused

/-- **The moves keep the ledger.** -/
theorem Ledger.move {g : Guard} (h : Ledger env w) (hm : Move env g now w w') :
    Ledger env w' := by
  cases hm with
  | bookkeeping hpolicy hexecutor htasks hreceipts hhistory hcalls hcall huuid =>
      refine h.extend [] hhistory (by simp) (by simp) ?_ ?_ ?_ ?_ hcall ?_
      · rw [htasks, hhistory]
        exact h.records
      · rw [htasks]
        exact fun t record hget => ⟨record, hget⟩
      · rw [htasks]
        exact fun _ _ hkey => hkey
      · intro call hmem
        obtain ⟨hknown, hlt⟩ := h.calls call (hcalls call hmem)
        rw [hhistory]
        exact ⟨hknown, Nat.lt_of_lt_of_le hlt hcall⟩
      · rw [hpolicy, hexecutor]
        exact h.policy
  | threw hcall => exact h.logged rfl (fun c hc => by cases hc; exact hcall)
  | answered hcall => exact h.logged rfl (fun c hc => by cases hc; exact hcall)
  | created hplanned hcall huuid hguard => exact h.creates hplanned hcall
  | appended hget hreceipt =>
      exact ⟨h.records, h.onRecord, h.unique, h.calls, h.numbered, h.canSign, h.policy, h.index⟩
  | @withdrawn _ _ _ _ _ store hplanned huuid hguard htasks hindex =>
      have hget : ∀ t, store.get t = w.taskStore.get t := by
        -- the record that is deleted came in the same turn, so the old records are left
        intro t
        unfold TaskStore.get
        rw [htasks]
      refine h.extend [] rfl (by simp) (by simp) ?_ ?_ hindex h.calls (Nat.le_refl _) h.policy
      · intro t record hrecord
        rw [hget] at hrecord
        exact h.records t record hrecord
      · intro t record hrecord
        exact ⟨record, (hget t).trans hrecord⟩
  | suspended horigin hcreated htask hcall hrefused =>
      exact (h.suspends ⟨_, _, hcreated, htask⟩ hcall hrefused).1
  | approved hchecked hguard hid horigin henvelope hinvocation =>
      obtain ⟨generatedId, hinvocation⟩ := hinvocation
      exact h.approves hchecked hid horigin henvelope hinvocation
  | settled hcall hanswer hguard hcalls hnormalized =>
      -- the submission behind the call says which statuses fit
      refine h.writes _ (h.settled_fits hcall hanswer hnormalized) rfl rfl
        (fun e he => (returnedEvents_new e he).1) (fun e he c hc => ?_) hcalls rfl rfl rfl
      rw [(returnedEvents_new e he).2] at hc
      cases hc
      exact (h.calls _ hcall).2
  | deadLettered hcreated hreceipt huuid =>
      exact h.writes [] (fun _ _ _ _ _ _ => .inr (.inr (.inl rfl))) rfl rfl (by simp) (by simp)
        (fun _ hc => hc) rfl rfl rfl
  | @cancelled _ _ _ _ _ event hcancellable hevent =>
      refine h.writes [event] (fun _ _ _ _ _ _ => ?_) rfl rfl ?_ ?_ (fun _ hc => hc) rfl rfl rfl
      · rw [hcancellable.result]
        exact .inr (.inr (.inr rfl))
      · intro e he
        rw [List.mem_singleton.mp he]
        cases hevent <;> rfl
      · intro e he c hc
        rw [List.mem_singleton.mp he] at hc
        cases hevent with
        | cancelled queued => cases hc
        | threw call rejection hlt =>
            cases hc
            exact hlt
  | policySet hguard =>
      exact ⟨h.records, h.onRecord, h.unique, h.calls, h.numbered, h.canSign, rfl, h.index⟩

end Orchestrator

end MapProtocol
