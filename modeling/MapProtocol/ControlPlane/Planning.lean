import MapProtocol.ControlPlane.Runtime
import MapProtocol.ControlPlane.StoreLaws

/-!
# What a call has settled before its first write

The reading halves of `dispatch`, `approve` and `cancelTask` are long sequences of checks.
`Planned`, `Checked` and `Cancellable` list what has been established when such a sequence passes,
and the three inversion lemmas are the only places that take the sequences apart.

Signing fails for reasons of configuration only, so once one receipt has been signed every receipt
can be.
-/

namespace MapProtocol

open Js

/-! ## Signing -/

theorem SigningConfig.createCompactSignature_total {config : SigningConfig} {payload : JsObject}
    {kid : Option String} {scope : Option SignatureScope} {signature : String}
    (h : config.createCompactSignature payload kid scope = .ok signature) (payload' : JsObject) :
    ∃ signature', config.createCompactSignature payload' kid scope = .ok signature' := by
  unfold createCompactSignature createCompactSignatureFromCanonical at h ⊢
  simp only [bind_eq_ok, pure_eq_ok] at h ⊢
  obtain ⟨key, hkey, sign, hsign, _⟩ := h
  exact ⟨_, key, hkey, sign, hsign, rfl⟩

theorem signReceipt_total {config : SigningConfig} {receipt : UnsignedReceipt} {signature : String}
    (h : signReceipt config receipt = .ok signature) (receipt' : UnsignedReceipt) :
    ∃ signature', signReceipt config receipt' = .ok signature' := by
  unfold signReceipt at h ⊢
  simp only [bind_eq_ok] at h ⊢
  obtain ⟨_, huse, hsign⟩ := h
  obtain ⟨signature', hsign'⟩ := SigningConfig.createCompactSignature_total hsign
    (receiptSigningPayload receipt')
  exact ⟨signature', (), huse, hsign'⟩

namespace Orchestrator

variable {env : OrchestratorEnv}
variable {receipt : ExecutionReceipt} {request : DispatchRequest} {ready : Ready}
  {envelope : TaskEnvelope} {outcome : InvokeResult} {hasCapacity : Bool} {record : TaskRecord}
  {taskId capability t : String} {fault : Option String}

theorem sign_eq_ok {unsigned : UnsignedReceipt} :
    sign env unsigned = .ok receipt ↔
      receipt.toUnsignedReceipt = unsigned ∧
        signReceipt env.signing unsigned = .ok receipt.signature := by
  unfold sign
  rw [map_eq_ok]
  constructor
  · rintro ⟨signature, hsign, rfl⟩
    exact ⟨rfl, hsign⟩
  · rintro ⟨rfl, hsign⟩
    exact ⟨receipt.signature, hsign, rfl⟩

def CanSign (env : OrchestratorEnv) : Prop := ∀ unsigned, ∃ receipt, sign env unsigned = .ok receipt

theorem canSign_of_sign {unsigned : UnsignedReceipt} (h : sign env unsigned = .ok receipt) :
    CanSign env := by
  intro unsigned'
  obtain ⟨signature, hsign⟩ := signReceipt_total (sign_eq_ok.mp h).2 unsigned'
  exact ⟨{ unsigned' with signature := signature }, sign_eq_ok.mpr ⟨rfl, hsign⟩⟩

/-! ## Validated envelopes -/

/-- What validation leaves of an envelope: it names a task, and carries no context id, no token and
no extensions. -/
theorem validateTaskEnvelope_eq_ok {dateParses : String → Bool} {envelope validated : TaskEnvelope}
    (h : validateTaskEnvelope dateParses envelope = .ok validated) :
    validated.taskId = envelope.taskId ∧ validated.taskId ≠ "" ∧ validated.contextId = none ∧
      validated.idempotencyToken = none ∧ validated.extensions = none := by
  unfold validateTaskEnvelope at h
  split at h
  · cases h
  · rename_i hfields
    split at h
    · cases h
    · cases h
      refine ⟨rfl, ?_, rfl, rfl, rfl⟩
      exact fun hid => hfields (.inl hid)

theorem resolveDescriptor_eq_ok {targetAgent capability : String} {descriptor : AgentDescriptor}
    (h : resolveDescriptor env targetAgent capability = .ok descriptor) :
    descriptor.agentId = targetAgent := by
  unfold resolveDescriptor at h
  split at h
  · cases h
  · rename_i found hfound
    split at h
    · cases h
    · split at h
      · cases h
      · split at h
        · cases h
        · cases h
          exact env.registry.keyed _ _ hfound

/-! ## Dispatch -/

/-- The status that a submission stores its task with. -/
def Submission.initial : Submission → TaskStatus
  | .approval => .awaitingApproval
  | .async    => .running
  | .sync     => .accepted

/-- The stage that a submission's first receipt names. -/
def Submission.stage : Submission → String
  | .approval => "approval_required"
  | .async    => "running"
  | .sync     => "accepted"

/-- **What a dispatch has established before it writes.** -/
structure Planned (env : OrchestratorEnv) (policy : PolicyDocument) (store : TaskStore)
    (now : Millis) (uuid : Nat) (request : DispatchRequest) (submission : Submission)
    (ready : Ready) (submitted : InvokeResult) : Prop where
  validated  : validateTaskEnvelope env.dateParses request.envelope = .ok ready.envelope
  capability : ready.capability = request.capability
  agent      : ready.descriptor.agentId = ready.envelope.targetAgent
  unstored   : findStored store ready.envelope ready.capability ready.descriptor.agentId = .ok none
  decided    : evaluatePolicy env policy ready.envelope ready.capability = .ok ready.decision
  key        : ready.idempotencyKey = resolveIdempotencyKey ready.envelope
  action     : submission = .approval ↔ ready.decision.action = .requireApproval
  allowed    : ready.decision.action ≠ .deny
  taskId     : submitted.result.taskId = ready.envelope.taskId
  status     : submitted.result.status = submission.initial
  reference  : submission = .approval →
    submitted.result.structuredOutput.get "approval_reference" = .str ready.approvalReference
  receipt    : ready.stageReceipt env now (uuid + 1) submission.stage = .ok submitted.receipt

variable {policy : PolicyDocument} {store : TaskStore} {now : Millis} {uuid : Nat}

theorem validateResultPackage_eq_ok {result validated : ResultPackage}
    (h : validateResultPackage result = .ok validated) :
    validated = { result with contextId := none, extensions := none } := by
  unfold validateResultPackage at h
  split at h
  · cases h
  · exact (Except.ok.inj h).symm

theorem readDispatch_eq_ok (h : readDispatch env policy store uuid request = .ok (.inr ready)) :
    validateTaskEnvelope env.dateParses request.envelope = .ok ready.envelope ∧
      ready.capability = request.capability ∧
      ready.descriptor.agentId = ready.envelope.targetAgent ∧
      findStored store ready.envelope ready.capability ready.descriptor.agentId = .ok none ∧
      evaluatePolicy env policy ready.envelope ready.capability = .ok ready.decision ∧
      ready.idempotencyKey = resolveIdempotencyKey ready.envelope := by
  unfold readDispatch at h
  simp only [bind_eq_ok] at h
  obtain ⟨envelope, henvelope, descriptor, hdescriptor, _, _, found, hfound, hrest⟩ := h
  cases found with
  | some stored => simp at hrest
  | none =>
      simp only [bind_eq_ok, pure_eq_ok, Sum.inr.injEq] at hrest
      obtain ⟨negotiation, _, decision, hdecision, rfl⟩ := hrest
      exact ⟨henvelope, rfl, resolveDescriptor_eq_ok hdescriptor, hfound, hdecision, rfl⟩

theorem planDispatch_submit {hasCapacity : Bool} {request : DispatchRequest}
    {submission : Submission} {ready : Ready} {submitted : InvokeResult}
    (h : planDispatch env policy store now hasCapacity uuid request =
      .ok (.submit submission ready submitted)) :
    Planned env policy store now uuid request submission ready submitted := by
  unfold planDispatch at h
  simp only [bind_eq_ok] at h
  obtain ⟨found, hread, hplan⟩ := h
  cases found with
  | inl stored => simp at hplan
  | inr read =>
      obtain ⟨hvalid, hcap, hagent, hstored, hdecided, hkey⟩ := readDispatch_eq_ok hread
      unfold planSubmission at hplan
      dsimp only at hplan
      split at hplan
      · simp at hplan
      -- the policy asks for an approval, so nobody runs the task yet
      · rename_i haction
        simp only [bind_eq_ok, pure_eq_ok, DispatchPlan.submit.injEq] at hplan
        obtain ⟨receipt, hreceipt, result, hresult, rfl, rfl, rfl⟩ := hplan
        have hshape := validateResultPackage_eq_ok hresult
        refine ⟨hvalid, hcap, hagent, hstored, hdecided, hkey, by simp [haction], by simp [haction],
          ?_, ?_, ?_, hreceipt⟩
        · rw [hshape]
          rfl
        · rw [hshape]
          rfl
        · intro _
          rw [hshape]
          rfl
      · rename_i hdeny happroval
        have hdeny' : read.decision.action ≠ .deny := fun ha => hdeny ha
        have happroval' : read.decision.action ≠ .requireApproval := fun ha => happroval ha
        simp only [bind_eq_ok] at hplan
        obtain ⟨_, _, hplan⟩ := hplan
        -- asynchronous, then synchronous
        split at hplan
        · simp only [bind_eq_ok, pure_eq_ok, DispatchPlan.submit.injEq] at hplan
          obtain ⟨_, _, receipt, hreceipt, rfl, rfl, rfl⟩ := hplan
          exact ⟨hvalid, hcap, hagent, hstored, hdecided, hkey, by simp [happroval'], hdeny', rfl, rfl,
            by simp, hreceipt⟩
        · simp only [bind_eq_ok] at hplan
          obtain ⟨receipt, hreceipt, rfl, rfl, rfl⟩ := hplan
          exact ⟨hvalid, hcap, hagent, hstored, hdecided, hkey, by simp [happroval'], hdeny', rfl, rfl,
            by simp, hreceipt⟩

theorem lookupStored_answer {found : Option TaskRecord} {conflict capability agentId : String}
    (h : lookupStored found conflict envelope capability agentId = .ok (some (.answer outcome))) :
    ∃ record, found = some record ∧ record.result = some outcome.result ∧
      record.receipt = some outcome.receipt := by
  unfold lookupStored at h
  cases found with
  | none => cases h
  | some record =>
      simp only [bind_eq_ok] at h
      obtain ⟨same, _, h⟩ := h
      cases same with
      | false => simp at h
      | true =>
          simp only [if_true, pure_eq_ok] at h
          unfold storedAnswer at h
          split at h
          · rename_i result receipt hresult hreceipt
            split at h
            · cases h
            · cases h
              exact ⟨record, rfl, hresult, hreceipt⟩
          · cases h

theorem planSubmission_ne_stored {uuid : Nat} {stored : Stored} :
    planSubmission env now hasCapacity uuid ready ≠ .ok (.stored stored) := by
  intro hplan
  unfold planSubmission at hplan
  dsimp only at hplan
  split at hplan
  · simp at hplan
  · simp at hplan
  · simp only [bind_eq_ok] at hplan
    obtain ⟨_, _, hplan⟩ := hplan
    split at hplan <;> simp at hplan

/-- **A dispatch that is answered at once** is answered with what a record holds. -/
theorem planDispatch_answer {hasCapacity : Bool} {request : DispatchRequest}
    {outcome : InvokeResult}
    (h : planDispatch env policy store now hasCapacity uuid request =
      .ok (.stored (.answer outcome))) :
    ∃ t record, store.get t = some record ∧ record.result = some outcome.result ∧
      record.receipt = some outcome.receipt := by
  unfold planDispatch at h
  simp only [bind_eq_ok] at h
  obtain ⟨found, hread, hplan⟩ := h
  cases found with
  | inr ready =>
      -- without a stored task the plan submits or refuses
      exact absurd hplan planSubmission_ne_stored
  | inl stored =>
      simp only [pure_eq_ok, DispatchPlan.stored.injEq] at hplan
      subst hplan
      unfold readDispatch at hread
      simp only [bind_eq_ok] at hread
      obtain ⟨envelope, _, descriptor, _, _, _, found, hfound, hrest⟩ := hread
      cases found with
      | none => simp at hrest
      | some stored =>
          simp only [pure_eq_ok, Sum.inl.injEq] at hrest
          subst hrest
          unfold findStored at hfound
          simp only [bind_eq_ok] at hfound
          obtain ⟨byKey, hkey, hrest⟩ := hfound
          cases byKey with
          | none =>
              obtain ⟨record, hget, houtcome⟩ := lookupStored_answer hrest
              exact ⟨_, record, hget, houtcome⟩
          | some answer =>
              simp only [pure_eq_ok, Option.some.injEq] at hrest
              subst hrest
              unfold lookupByKey at hkey
              split at hkey
              -- the index leads to the record
              · obtain ⟨record, hget, houtcome⟩ := lookupStored_answer hkey
                unfold TaskStore.findByIdempotencyKey at hget
                split at hget
                · cases hget
                · split at hget
                  · cases hget
                  · exact ⟨_, record, hget, houtcome⟩
              · cases hkey

theorem stageReceipt_eq_ok {stage : String}
    (h : ready.stageReceipt env now uuid stage = .ok receipt) :
    receipt.toUnsignedReceipt = buildUnsignedReceipt env now uuid ready.envelope ready.descriptor
      ready.capability (ready.capability ++ "." ++ stage) ready.decision :=
  (sign_eq_ok.mp h).1

/-! ## Approve -/

/-- **What an approval has established before it executes.** -/
structure Checked (env : OrchestratorEnv) (store : TaskStore) (request : ApprovalRequest)
    (approval : Approval) (record : TaskRecord) : Prop where
  validated  : validateTaskEnvelope env.dateParses request.envelope = .ok approval.envelope
  task       : request.taskId = approval.envelope.taskId
  found      : store.get approval.envelope.taskId = some record
  status     : record.status = .awaitingApproval
  capability : record.capability = some approval.capability
  agent      : record.targetAgent = some approval.envelope.targetAgent

theorem checkApproval_eq_ok {request : ApprovalRequest} {approval : Approval}
    (h : checkApproval env store request = .ok approval) :
    ∃ record, Checked env store request approval record := by
  unfold checkApproval at h
  simp only [bind_eq_ok, throwIf_eq_ok] at h
  obtain ⟨envelope, henvelope, _, htask, descriptor, hdescriptor, negotiation, _, hrest⟩ := h
  have htask' : request.taskId = envelope.taskId := not_not.mp htask
  cases hfound : store.get request.taskId with
  | none =>
      rw [hfound] at hrest
      simp at hrest
  | some record =>
      rw [hfound] at hrest
      simp only [bind_eq_ok, throwIf_eq_ok, pure_eq_ok] at hrest
      obtain ⟨_, hstatus, _, hcapability, _, hagent, _, _, rfl⟩ := hrest
      refine ⟨record, henvelope, htask', ?_, not_not.mp hstatus, not_not.mp hcapability, ?_⟩
      · rw [← htask']
        exact hfound
      · rw [← resolveDescriptor_eq_ok hdescriptor]
        exact not_not.mp hagent

/-! ## Cancel -/

/-- **What a cancellation has established before it writes.** -/
structure Cancellable (env : OrchestratorEnv) (store : TaskStore) (now : Millis) (taskId : String)
    (tenantId : Option String) (outcome : InvokeResult) (record : TaskRecord) : Prop where
  target   : cancelTarget store taskId tenantId = .ok (some record)
  found    : store.get taskId = some record
  status   : record.status ∈ cancellableStates
  result   : outcome.result = cancelResult record taskId
  receipt  : ∃ capability targetAgent requester requestId,
    sign env (cancelReceipt now taskId capability targetAgent requester requestId) =
      .ok outcome.receipt

theorem getByTenant_eq_ok {taskId tenant : String}
    (h : store.getByTenant taskId tenant = .ok (some record)) : store.get taskId = some record := by
  unfold TaskStore.getByTenant at h
  unfold TaskStore.get
  split at h
  · cases h
  · rename_i found hfound
    split at h
    · cases h
    · split at h
      · cases h
        exact hfound
      · cases h

theorem cancelTarget_eq_ok {tenantId : Option String}
    (h : cancelTarget store taskId tenantId = .ok (some record)) :
    store.get taskId = some record := by
  unfold cancelTarget at h
  split at h
  · split at h
    · exact Except.ok.inj h
    · exact getByTenant_eq_ok h
  · exact Except.ok.inj h

theorem planCancel_eq_ok {tenantId : Option String}
    (h : planCancel env store now taskId tenantId = .ok outcome) :
    ∃ record, Cancellable env store now taskId tenantId outcome record := by
  unfold planCancel at h
  simp only [bind_eq_ok] at h
  obtain ⟨found, htarget, hrest⟩ := h
  cases found with
  | none => simp at hrest
  | some record =>
      simp only [bind_eq_ok, throwIf_eq_ok] at hrest
      obtain ⟨_, hstatus, hrest⟩ := hrest
      split at hrest
      · simp only [bind_eq_ok, pure_eq_ok] at hrest
        obtain ⟨receipt, hreceipt, rfl⟩ := hrest
        exact ⟨record, htarget, cancelTarget_eq_ok htarget, not_not.mp hstatus, rfl,
          _, _, _, _, hreceipt⟩
      · simp at hrest

/-! ## The answer of the core -/

def outcomeOf (env : OrchestratorEnv) (now : Millis) (uuid : Nat) (coreResult : CoreResult)
    (envelope : TaskEnvelope) (capability : String) (negotiation : InvocationNegotiation) :
    ResultPackage × UnsignedReceipt :=
  match coreResult with
  | .receipt receipt   => resultOfReceipt env uuid receipt envelope capability negotiation
  | .result execResult => resultOfExecution env now uuid execResult envelope capability negotiation

/-- **What `normalizeCoreResult` gives.** -/
theorem normalizeCoreResult_eq_ok {coreResult : CoreResult} {negotiation : InvocationNegotiation}
    {normalized : InvokeResult} :
    normalizeCoreResult env now uuid coreResult envelope capability negotiation = .ok normalized ↔
      normalized.result = (outcomeOf env now uuid coreResult envelope capability negotiation).1 ∧
        sign env (outcomeOf env now uuid coreResult envelope capability negotiation).2 =
          .ok normalized.receipt := by
  unfold normalizeCoreResult outcomeOf
  cases coreResult <;> simp only [bind_eq_ok, pure_eq_ok] <;> grind [InvokeResult]

/-! ## Writing an outcome -/

/-- A record takes an outcome that is about its task and moves it along a transition; a terminal
record takes only what it holds already. -/
structure Accepts (record : TaskRecord) (outcome : InvokeResult) : Prop where
  result  : outcome.result.taskId = record.taskId
  receipt : outcome.receipt.taskId = some record.taskId
  status  : (record.status = outcome.result.status ∧
      ¬ (isTerminal record.status = true ∧ (outcomeUpdate outcome).changesOutcome record)) ∨
    (record.status ≠ outcome.result.status ∧ isTerminal record.status = false ∧
      outcome.result.status ∈ taskTransitions record.status)

theorem validateTransition_outcome {u : Unit} :
    (outcomeUpdate outcome).validateTransition record outcome.result.status = .ok u ↔
      Accepts record outcome := by
  unfold TaskUpdate.validateTransition TaskUpdate.validateIdentity TaskUpdate.validateOutcome
  simp only [bind_eq_ok, throwIf_eq_ok]
  constructor
  · rintro ⟨_, _, _, ⟨_, hresult, _, _, hreceipt⟩, hstatus⟩
    refine ⟨by simpa [outcomeUpdate] using hresult, by simpa [outcomeUpdate] using hreceipt, ?_⟩
    split at hstatus
    · rename_i hsame
      exact .inl ⟨hsame, throwIf_eq_ok.mp hstatus⟩
    · rename_i hdiff
      simp only [bind_eq_ok] at hstatus
      obtain ⟨_, htrans, _⟩ := hstatus
      rcases assertValidTransition_eq_ok.mp htrans with hsame | hmoves
      · exact absurd hsame hdiff
      · exact .inr ⟨hdiff, hmoves⟩
  · intro h
    refine ⟨(), by simp [outcomeUpdate], (), ⟨(), by simp [outcomeUpdate, h.result], (),
      by simp [outcomeUpdate], by simp [outcomeUpdate, h.receipt]⟩, ?_⟩
    rcases h.status with ⟨hsame, hkeeps⟩ | ⟨hdiff, hmoves⟩
    · rw [if_pos hsame]
      exact throwIf_eq_ok.mpr hkeeps
    · rw [if_neg hdiff]
      simp only [bind_eq_ok]
      exact ⟨(), assertValidTransition_eq_ok.mpr (.inr hmoves), by simp [outcomeUpdate]⟩

def revised (record : TaskRecord) (outcome : InvokeResult) (now : Millis) : TaskRecord :=
  { record with
    status := outcome.result.status
    result := some outcome.result
    receipt := some outcome.receipt
    updatedAt := toISOString now }

/-- **What writing an outcome can do.** -/
theorem update_outcome (store : TaskStore) (now : Millis) (fault : Option String) (t : String)
    (outcome : InvokeResult) :
    (store.get t = none ∧ store.update now fault t (outcomeUpdate outcome) = (.ok none, store)) ∨
    (∃ record e, store.get t = some record ∧ ¬ Accepts record outcome ∧
      store.update now fault t (outcomeUpdate outcome) = (.error e, store)) ∨
    (∃ record, store.get t = some record ∧ Accepts record outcome ∧
      store.update now fault t (outcomeUpdate outcome) =
        ((persist fault).map fun _ => some (revised record outcome now),
          { store with tasks := store.tasks.set t (revised record outcome now) })) := by
  rcases store.update_cases now fault t (outcomeUpdate outcome) with
    hnone | ⟨record, e, hget, hv, heq⟩ | ⟨record, hget, hv, heq⟩
  · exact .inl hnone
  · refine .inr (.inl ⟨record, e, hget, fun ha => ?_, heq⟩)
    have hok := (validateTransition_outcome (u := ())).mpr ha
    have hnext : (outcomeUpdate outcome).nextStatus record = outcome.result.status := rfl
    rw [hnext, hok] at hv
    cases hv
  · exact .inr (.inr ⟨record, hget, validateTransition_outcome.mp hv, heq⟩)

/-- The records after an outcome was written to one of them. -/
theorem get_update_outcome {t t' : String}
    (h : (store.update now fault t (outcomeUpdate outcome)).2.get t' = some record) :
    store.get t' = some record ∨
      ∃ old, t = t' ∧ store.get t = some old ∧ Accepts old outcome ∧
        record = revised old outcome now := by
  rcases update_outcome store now fault t outcome with
    ⟨_, heq⟩ | ⟨_, _, _, _, heq⟩ | ⟨old, hget, haccepts, heq⟩
  · rw [heq] at h
    exact .inl h
  · rw [heq] at h
    exact .inl h
  · rw [heq] at h
    unfold TaskStore.get at h
    rw [OrderedMap.get_set] at h
    split at h
    · rename_i ht
      exact .inr ⟨old, ht, hget, haccepts, (Option.some.inj h).symm⟩
    · exact .inl h

/-- A write that did not throw leaves the record in the outcome's status. -/
theorem status_of_update {updated : Option TaskRecord}
    (h : (store.update now fault t (outcomeUpdate outcome)).1 = .ok updated)
    (hget : (store.update now fault t (outcomeUpdate outcome)).2.get t = some record) :
    record.status = outcome.result.status := by
  rcases update_outcome store now fault t outcome with
    ⟨hnone, heq⟩ | ⟨_, _, _, _, heq⟩ | ⟨old, _, _, heq⟩
  · rw [heq, hnone] at hget
    cases hget
  · rw [heq] at h
    cases h
  · rw [heq] at hget
    obtain rfl := Option.some.inj ((OrderedMap.get_set_self _ _ _).symm.trans hget)
    rfl

theorem get_update_of_get {t t' : String} (h : store.get t' = some record) :
    ∃ record', (store.update now fault t (outcomeUpdate outcome)).2.get t' = some record' := by
  rcases update_outcome store now fault t outcome with
    ⟨_, heq⟩ | ⟨_, _, _, _, heq⟩ | ⟨old, hget, haccepts, heq⟩
  · exact ⟨record, heq ▸ h⟩
  · exact ⟨record, heq ▸ h⟩
  · rw [heq]
    unfold TaskStore.get
    rw [OrderedMap.get_set]
    split
    · exact ⟨_, rfl⟩
    · exact ⟨record, h⟩

theorem index_update :
    (store.update now fault t (outcomeUpdate outcome)).2.idempotencyIndex =
      store.idempotencyIndex := by
  rcases update_outcome store now fault t outcome with
    ⟨_, heq⟩ | ⟨_, _, _, _, heq⟩ | ⟨old, hget, haccepts, heq⟩ <;> rw [heq]

end Orchestrator

end MapProtocol
