import MapProtocol.ControlPlane.AsyncQueue
import MapProtocol.ControlPlane.ReceiptStore
import MapProtocol.Core.Execution
import MapProtocol.Integration.EcpBridge
import MapProtocol.Protocol.Validation
import MapProtocol.Security.Signing

/-!
# The orchestrator

`OrchestratorRuntime` takes a task envelope through registry, negotiation and policy, and then
submits it for approval, queues it, or executes it. This file has what its methods compute without
an effect: up to its first write a call only reads, and `planDispatch` and `checkApproval` are what
it has made of its arguments by then. `ControlPlane.Runtime` has the writes and the waiting.

Webhook deliveries are left out: they are sent and forgotten, and their outcome goes to the log.
-/

namespace MapProtocol

open Js

/-! ## The registry -/

structure AgentRegistry where
  agents : OrderedMap String AgentDescriptor
  keyed  : ∀ id descriptor, agents.get id = some descriptor → descriptor.agentId = id

namespace AgentRegistry

def get (registry : AgentRegistry) (agentId : String) : Option AgentDescriptor :=
  registry.agents.get agentId

def getCapabilityDescriptor (registry : AgentRegistry) (agentId capability : String) :
    Option CapabilityDescriptor :=
  (registry.get agentId).bind fun agent =>
    (agent.capabilityDescriptors.getD []).find? fun d => d.name == capability

end AgentRegistry

/-! ## What the orchestrator is built over -/

/-- `uuid n` is what the `n`th call of `randomUUID()` gives. -/
structure UuidSource where
  uuid       : Nat → String
  injective  : Function.Injective uuid
  noColon    : ∀ n, ':' ∉ (uuid n).toList

structure OrchestratorEnv where
  registry          : AgentRegistry
  adapters          : OrderedMap String ExecutionAdapter
  coreSignReceipt   : Option (CoreReceipt → String)
  signing           : SigningConfig
  regExp            : RegExpEngine
  dateParses        : String → Bool
  uuids             : UuidSource
  defaultWebhookUrl : Option String
  queueOptions      : AsyncTaskQueueOptions

/-- The arguments of `dispatch`. -/
structure DispatchRequest where
  envelope               : TaskEnvelope
  capability             : String
  requestedSchemaVersion : Option String
  negotiation            : Option InvocationNegotiationRequest

/-- A policy decision, as `evaluatePolicy` reports it. -/
structure Decision where
  action       : PolicyAction
  reason       : String
  policyChecks : List String
  deriving DecidableEq, Repr

/-- What the core gave back for an intent. -/
inductive CoreResult where
  | receipt (receipt : CoreReceipt)
  | result (result : ExecutionResult)

namespace Orchestrator

variable (env : OrchestratorEnv)

/-! ## Reading the request -/

def resolveDescriptor (targetAgent capability : String) : Except String AgentDescriptor :=
  match env.registry.get targetAgent with
  | none            => .error ("No micro-agent found for target agent: " ++ targetAgent)
  | some descriptor =>
      if descriptor.registryStatus = some .disabled then
        .error ("Target agent is disabled in registry: " ++ targetAgent)
      else if capability ∉ descriptor.capabilities then
        .error ("Capability not supported by target agent " ++ targetAgent ++ ": " ++ capability)
      else if (env.registry.getCapabilityDescriptor targetAgent capability).any
          (fun d => d.status = some .disabled) then
        .error ("Capability is disabled for target agent " ++ targetAgent ++ ": " ++ capability)
      else .ok descriptor

/-- The required extensions that the envelope does not declare. -/
def checkExtensions (descriptor : AgentDescriptor) (envelope : TaskEnvelope) :
    Except String Unit :=
  let missing := (descriptor.extensions.getD []).find? fun ext =>
    ext.required.getD false && !(envelope.extensions.getD []).contains ext.uri
  match missing with
  | some ext => .error ("Extension \"" ++ ext.uri ++ "\" is required by agent \"" ++
      descriptor.agentId ++ "\" but was not declared in the task envelope.")
  | none     => .ok ()

def resolveIdempotencyKey (envelope : TaskEnvelope) : Option String :=
  match envelope.meta "idempotency_key" with
  | .str key => if isBlank key then none else some key
  | _        => none

/-- Was a stored task submitted by the same requester, for the same capability and agent? -/
def sameIdentity (record : TaskRecord) (envelope : TaskEnvelope) (capability agentId : String) :
    Except String Bool :=
  match record.requesterIdentity with
  | none           => .error "Cannot read properties of undefined (reading 'type')"
  | some requester =>
      .ok (requester.type == envelope.requesterIdentity.type &&
        requester.id == envelope.requesterIdentity.id &&
        TaskStore.resolveTenantId requester.tenantId ==
          TaskStore.resolveTenantId envelope.requesterIdentity.tenantId &&
        record.capability == some capability && record.targetAgent == some agentId)

/-- What a stored task answers a repeated dispatch with. -/
inductive Stored where
  | answer (result : InvokeResult)
  | wait (taskId : String)

/-- A stored task with a result and a receipt answers, or is waited for. -/
def storedAnswer (record : TaskRecord) : Option Stored :=
  match record.result, record.receipt with
  | some result, some receipt =>
      if record.status = .accepted then some (.wait record.taskId)
      else some (.answer ⟨result, receipt⟩)
  | _, _ => none

/-- The lookup of a repeated dispatch, by idempotency key or by task id. -/
def lookupStored (record : Option TaskRecord) (conflict : String) (envelope : TaskEnvelope)
    (capability agentId : String) : Except String (Option Stored) :=
  match record with
  | none        => .ok none
  | some record => do
      let same ← sameIdentity record envelope capability agentId
      if same then return storedAnswer record
      else throw conflict

/-- The lookup by idempotency key, where the envelope has one. -/
def lookupByKey (store : TaskStore) (envelope : TaskEnvelope) (capability agentId : String) :
    Except String (Option Stored) :=
  match resolveIdempotencyKey envelope with
  | some key => lookupStored (store.findByIdempotencyKey key)
      ("Idempotency key conflict: " ++ key) envelope capability agentId
  | none     => .ok none

/-- The answer to a repeated dispatch, by its idempotency key first. -/
def findStored (store : TaskStore) (envelope : TaskEnvelope) (capability agentId : String) :
    Except String (Option Stored) := do
  match ← lookupByKey store envelope capability agentId with
  | some stored => return some stored
  | none        =>
      lookupStored (store.get envelope.taskId) ("Task id conflict: " ++ envelope.taskId) envelope
        capability agentId

/-! ## Negotiation

The version of `negotiation` goes before `requested_schema_version`. -/

/-- `metadata?.async === true`. -/
def isAsync (envelope : TaskEnvelope) : Bool := (envelope.meta "async").strictEquals (.bool true)

/-- A negotiated schema version, and what the provider did for it. -/
structure SchemaResolution where
  requested       : Option String
  executed        : Option String
  providerActions : Option (List ProviderAction)
  deriving DecidableEq, Repr

def negotiateSchemaVersion (capabilityDescriptor : Option CapabilityDescriptor)
    (capability : String) (requestedSchemaVersion : Option String) :
    Except String SchemaResolution :=
  match capabilityDescriptor with
  | none            => .ok ⟨requestedSchemaVersion, requestedSchemaVersion, none⟩
  | some descriptor =>
      let supportedVersions := descriptor.supportedSchemaVersions.getD []
      let preferredVersion := descriptor.preferredSchemaVersion.or descriptor.schemaVersion
      match requestedSchemaVersion.filter (· ≠ "") with
      | none           => .ok ⟨preferredVersion, preferredVersion, none⟩
      | some requested =>
          match (descriptor.translationTargets.getD []).find? fun t => t.source == requested with
          | some item => .ok ⟨some requested, some item.target, some [.schemaTranslated]⟩
          | none      =>
              if supportedVersions.length = 0 ∨ requested ∈ supportedVersions then
                .ok ⟨some requested, some requested, none⟩
              else .error ("Unsupported schema version for " ++ capability ++ ": " ++ requested)

def negotiateInvocation (supportedVisibilityModes : List VisibilityMode)
    (capabilityDescriptor : Option CapabilityDescriptor) (envelope : TaskEnvelope)
    (capability : String) (requestedSchemaVersion : Option String)
    (negotiationRequest : Option InvocationNegotiationRequest) :
    Except String InvocationNegotiation :=
  if envelope.requestedOutputMode ∉ supportedVisibilityModes then
    .error ("Unsupported output mode for " ++ capability ++ ": " ++
      envelope.requestedOutputMode.text)
  else do
    let schemaResolution ← negotiateSchemaVersion capabilityDescriptor capability
      ((negotiationRequest.bind (·.schemaVersion)).or requestedSchemaVersion)
    let deliveryMode : DeliveryMode :=
      if isAsync envelope ∨ negotiationRequest.bind (·.deliveryMode) = some .async then .async
      else .sync
    return {
      requested := ⟨schemaResolution.requested, envelope.requestedOutputMode, deliveryMode⟩
      selected := ⟨schemaResolution.executed, envelope.requestedOutputMode, deliveryMode⟩
      providerActions := schemaResolution.providerActions }

/-! ## Policy -/

def evaluatePolicy (policy : PolicyDocument) (envelope : TaskEnvelope) (capability : String) :
    Except String Decision := do
  let intent := mapEnvelopeToIntent envelope capability
  let decision ← evaluate env.regExp (normalizeIntent intent) policy
  let byDefault := if decision.action = .allow then "Default allow" else "Default deny"
  return {
    action := decision.action
    reason := decision.reason
    policyChecks := match decision.matchedRule with
      | some rule => if rule = "" then [byDefault] else ["Rule: " ++ rule]
      | none      => [byDefault] }

/-! ## Receipts -/

/-- The core action that an action text stands for. -/
def coreAction (actionTaken : String) : ReceiptAction :=
  if includes actionTaken "approval_required" then .approvalRequired
  else if includes actionTaken "denied" || includes actionTaken "cancelled" then .denied
  else .executed

def requestId (envelope : TaskEnvelope) : Option String := (envelope.meta "request_id").asString

/-- The id of a receipt made here: it ends in a fresh uuid. -/
def freshReceiptId (now : Millis) (uuid : Nat) (taskId : String) : String :=
  "receipt:" ++ taskId ++ ":" ++ toString now ++ ":" ++ env.uuids.uuid uuid

def buildUnsignedReceipt (now : Millis) (uuid : Nat) (envelope : TaskEnvelope)
    (descriptor : AgentDescriptor) (capability actionTaken : String) (decision : Decision) :
    UnsignedReceipt where
  receiptId := freshReceiptId env now uuid envelope.taskId
  intentId := envelope.taskId
  capability := capability
  action := coreAction actionTaken
  timestamp := toISOString now
  status := if coreAction actionTaken = .executed then .ok else .error
  taskId := some envelope.taskId
  tenantId := some (TaskStore.resolveTenantId envelope.requesterIdentity.tenantId)
  requestId := requestId envelope
  agentId := descriptor.agentId
  resourceTouched := some descriptor.domain
  policyChecks := some decision.policyChecks
  approvalUsed := none
  resultHash := some ("sha256:" ++ envelope.taskId ++ ":" ++ actionTaken)
  requestedSchemaVersion := none
  executedSchemaVersion := none
  negotiation := none

/-- `{ ...unsignedReceipt, signature: signReceipt(unsignedReceipt) }`. -/
def sign (unsignedReceipt : UnsignedReceipt) : Except String ExecutionReceipt :=
  (signReceipt env.signing unsignedReceipt).map fun signature =>
    { unsignedReceipt with signature := signature }

/-! ## Results of the core -/

def enrichStructuredOutput (output : JsObject) (envelope : TaskEnvelope) : JsObject :=
  let common := envelope.constraints.common.getD []
  let domain := envelope.constraints.domain.getD []
  let unlessUndefined (key : String) (value : JsValue) : JsObject :=
    if value.isUndefined then [] else [(key, value)]
  ((JsObject.spread output (unlessUndefined "environment" (common.get "environment"))).spread
    (unlessUndefined "dataset" (domain.get "dataset"))).spread
    (unlessUndefined "service" (domain.get "service"))

/-- The status of a task whose core receipt has the action. -/
def statusOfAction : ReceiptAction → TaskStatus
  | .approvalRequired => .awaitingApproval
  | .executed         => .completed
  | .denied           => .denied

/-- The status of a task whose adapter answered with the status. -/
def statusOfResult : ExecutionStatus → TaskStatus
  | .ok    => .completed
  | .error => .failed

/-- The result and the unsigned receipt that `normalizeCoreResult` makes of a core receipt. -/
def resultOfReceipt (uuid : Nat) (receipt : CoreReceipt) (envelope : TaskEnvelope)
    (capability : String) (negotiation : InvocationNegotiation) :
    ResultPackage × UnsignedReceipt :=
  ({ taskId := envelope.taskId
     contextId := envelope.contextId
     status := statusOfAction receipt.action
     summary := some ("Execution " ++ receipt.action.text ++ ": " ++ receipt.status.text)
     structuredOutput := [("capability", .str capability)]
     negotiatedSchemaVersion := negotiation.selected.schemaVersion
     requestedSchemaVersion := negotiation.requested.schemaVersion
     executedSchemaVersion := negotiation.selected.schemaVersion
     negotiation := some negotiation
     redactionsApplied := some ["credentials", "internal_reasoning"]
     followupRequired := receipt.action == .approvalRequired
     escalationReason := none
     extensions := none },
   { receiptId := receipt.receiptId ++ ":" ++ env.uuids.uuid uuid
     intentId := envelope.taskId
     capability := capability
     action := receipt.action
     timestamp := receipt.timestamp
     status := receipt.status
     taskId := some envelope.taskId
     tenantId := envelope.requesterIdentity.tenantId
     requestId := requestId envelope
     agentId := envelope.targetAgent
     resourceTouched := some envelope.targetAgent
     policyChecks := some ["core_executed"]
     approvalUsed := none
     resultHash := some ("sha256:" ++ envelope.taskId ++ ":" ++ receipt.action.text)
     requestedSchemaVersion := negotiation.requested.schemaVersion
     executedSchemaVersion := negotiation.selected.schemaVersion
     negotiation := some negotiation })

/-- The result and the unsigned receipt that `normalizeCoreResult` makes of an adapter's answer. -/
def resultOfExecution (now : Millis) (uuid : Nat) (execResult : ExecutionResult)
    (envelope : TaskEnvelope) (capability : String) (negotiation : InvocationNegotiation) :
    ResultPackage × UnsignedReceipt :=
  let taskStatus := statusOfResult execResult.status
  ({ taskId := envelope.taskId
     contextId := some (envelope.contextId.getD execResult.intentId)
     status := taskStatus
     summary := some execResult.summary
     structuredOutput := enrichStructuredOutput execResult.output envelope
     negotiatedSchemaVersion := negotiation.selected.schemaVersion
     requestedSchemaVersion := negotiation.requested.schemaVersion
     executedSchemaVersion := negotiation.selected.schemaVersion
     negotiation := some negotiation
     redactionsApplied := some ["credentials", "internal_reasoning"]
     followupRequired := false
     escalationReason := none
     extensions := none },
   { receiptId := freshReceiptId env now uuid envelope.taskId
     intentId := envelope.taskId
     capability := capability
     action := if taskStatus = .completed then .executed else .denied
     timestamp := toISOString now
     status := execResult.status
     taskId := some envelope.taskId
     tenantId := envelope.requesterIdentity.tenantId
     requestId := requestId envelope
     agentId := envelope.targetAgent
     resourceTouched := some envelope.targetAgent
     policyChecks := some ["core_executed"]
     approvalUsed := none
     resultHash := some ("sha256:" ++ envelope.taskId ++ ":" ++ taskStatus.text)
     requestedSchemaVersion := negotiation.requested.schemaVersion
     executedSchemaVersion := negotiation.selected.schemaVersion
     negotiation := some negotiation })

def normalizeCoreResult (now : Millis) (uuid : Nat) (coreResult : CoreResult)
    (envelope : TaskEnvelope) (capability : String) (negotiation : InvocationNegotiation) :
    Except String InvokeResult := do
  let (result, unsignedReceipt) := match coreResult with
    | .receipt receipt   => resultOfReceipt env uuid receipt envelope capability negotiation
    | .result execResult => resultOfExecution env now uuid execResult envelope capability negotiation
  let receipt ← sign env unsignedReceipt
  return ⟨result, receipt⟩

/-! ## Submissions

What a dispatch that was let through does next, with all it needs for that. -/

/-- How a task is taken up. -/
inductive Submission where
  | approval
  | async
  | sync
  deriving DecidableEq, Repr

structure Ready where
  envelope       : TaskEnvelope
  capability     : String
  descriptor     : AgentDescriptor
  contextId      : String
  idempotencyKey : Option String
  negotiation    : InvocationNegotiation
  decision       : Decision

namespace Ready

def intent (ready : Ready) : Intent := mapEnvelopeToIntent ready.envelope ready.capability

def approvalReference (ready : Ready) : String := "approval:" ++ ready.envelope.taskId

/-- The result a task is stored with when it is submitted. -/
def submittedResult (ready : Ready) (status : TaskStatus) (summary : String)
    (structuredOutput : JsObject) (followupRequired : Bool) (escalationReason : Option String) :
    ResultPackage where
  taskId := ready.envelope.taskId
  contextId := some ready.contextId
  status := status
  summary := some summary
  structuredOutput := structuredOutput
  negotiatedSchemaVersion := ready.negotiation.selected.schemaVersion
  requestedSchemaVersion := ready.negotiation.requested.schemaVersion
  executedSchemaVersion := ready.negotiation.selected.schemaVersion
  negotiation := some ready.negotiation
  redactionsApplied := some ["credentials", "internal_reasoning"]
  followupRequired := followupRequired
  escalationReason := escalationReason
  extensions := ready.envelope.extensions

def approvalResult (ready : Ready) : ResultPackage :=
  ready.submittedResult .awaitingApproval
    (ready.decision.reason ++ " - task will require approval before execution.")
    [("capability", .str ready.capability), ("target_agent", .str ready.descriptor.agentId),
      ("approval_reference", .str ready.approvalReference)] true (some ready.decision.reason)

def runningResult (ready : Ready) : ResultPackage :=
  ready.submittedResult .running "Task accepted and running asynchronously."
    [("capability", .str ready.capability), ("target_agent", .str ready.descriptor.agentId),
      ("poll_path", .str ("/tasks/" ++ ready.envelope.taskId))] true none

def pendingResult (ready : Ready) : ResultPackage :=
  ready.submittedResult .accepted "Task accepted for synchronous execution."
    [("capability", .str ready.capability), ("target_agent", .str ready.descriptor.agentId)]
    false none

/-- The result a dead-lettered task is updated with. It names no schema versions. -/
def deadLetterResult (ready : Ready) (error : String) : ResultPackage where
  taskId := ready.envelope.taskId
  contextId := some ready.contextId
  status := .failed
  summary := some error
  structuredOutput :=
    [("capability", .str ready.capability), ("target_agent", .str ready.descriptor.agentId)]
  negotiatedSchemaVersion := none
  requestedSchemaVersion := none
  executedSchemaVersion := none
  negotiation := some ready.negotiation
  redactionsApplied := some ["credentials", "internal_reasoning"]
  followupRequired := false
  escalationReason := none
  extensions := ready.envelope.extensions

/-- The signed receipt of a stage of the task; the action text is the capability and the stage. -/
def stageReceipt (ready : Ready) (now : Millis) (uuid : Nat) (stage : String) :
    Except String ExecutionReceipt :=
  sign env (buildUnsignedReceipt env now uuid ready.envelope ready.descriptor ready.capability
    (ready.capability ++ "." ++ stage) ready.decision)

def saveParams (ready : Ready) (submitted : InvokeResult) : SaveParams where
  taskId := ready.envelope.taskId
  contextId := some ready.contextId
  requesterIdentity := ready.envelope.requesterIdentity
  idempotencyKey := ready.idempotencyKey
  capability := ready.capability
  targetAgent := ready.descriptor.agentId
  result := submitted.result
  receipt := submitted.receipt

end Ready

/-- What a dispatch will do, once it has read all it needs. -/
inductive DispatchPlan where
  | stored (stored : Stored)
  | submit (submission : Submission) (ready : Ready) (submitted : InvokeResult)

/-- The reading half of `dispatch`: the request after validation, lookup, negotiation and policy. -/
def readDispatch (policy : PolicyDocument) (store : TaskStore) (uuid : Nat)
    (request : DispatchRequest) : Except String (Stored ⊕ Ready) := do
  let capability := request.capability
  let envelope ← validateTaskEnvelope env.dateParses request.envelope
  let descriptor ← resolveDescriptor env envelope.targetAgent capability
  let capabilityDescriptor := env.registry.getCapabilityDescriptor envelope.targetAgent capability
  let contextId := envelope.contextId.getD (env.uuids.uuid uuid)
  checkExtensions descriptor envelope
  match ← findStored store envelope capability descriptor.agentId with
  | some stored => return .inl stored
  | none        =>
      let negotiation ← negotiateInvocation descriptor.visibilityModes capabilityDescriptor envelope
        capability request.requestedSchemaVersion request.negotiation
      let decision ← evaluatePolicy env policy envelope capability
      return .inr {
        envelope := envelope
        capability := capability
        descriptor := descriptor
        contextId := contextId
        idempotencyKey := resolveIdempotencyKey envelope
        negotiation := negotiation
        decision := decision }

/-- The branch of a dispatch that was decided, with the result and the receipt it will store. -/
def planSubmission (now : Millis) (hasCapacity : Bool) (uuid : Nat) (ready : Ready) :
    Except String DispatchPlan :=
  match ready.decision.action with
  | .deny            => throw ready.decision.reason
  | .requireApproval => do
      let receipt ← ready.stageReceipt env now uuid "approval_required"
      let result ← validateResultPackage ready.approvalResult
      return .submit .approval ready ⟨result, receipt⟩
  | _ => do
      let intentValidation := validateIntent ready.intent
      throwIf (!intentValidation.valid)
        ("Invalid intent: " ++ joinMessages intentValidation.errors)
      if ready.negotiation.selected.deliveryMode = .async ∨ isAsync ready.envelope then do
        throwIf (!hasCapacity) "Async queue capacity exceeded."
        let receipt ← ready.stageReceipt env now uuid "running"
        return .submit .async ready ⟨ready.runningResult, receipt⟩
      else do
        let receipt ← ready.stageReceipt env now uuid "accepted"
        return .submit .sync ready ⟨ready.pendingResult, receipt⟩

/-- `dispatch` up to its first write. The context id takes the uuid numbered `uuid`, the receipt the
next one. -/
def planDispatch (policy : PolicyDocument) (store : TaskStore) (now : Millis) (hasCapacity : Bool)
    (uuid : Nat) (request : DispatchRequest) : Except String DispatchPlan := do
  match ← readDispatch env policy store uuid request with
  | .inl stored => return .stored stored
  | .inr ready  => planSubmission env now hasCapacity (uuid + 1) ready

/-- Does `approvalNotifier.notify` throw? It does where it has a URL to deliver to and the intent
text is the JSON `null`, whose entries it cannot read. -/
def notifyThrows (envelope : TaskEnvelope) : Bool :=
  let webhookUrl := (envelope.meta "webhook_url").asString.or env.defaultWebhookUrl
  match webhookUrl, parse envelope.intent with
  | some url, some .null => url != ""
  | _, _                 => false

/-! ## Approvals -/

/-- An approval that has passed its checks. -/
structure Approval where
  envelope    : TaskEnvelope
  capability  : String
  negotiation : InvocationNegotiation
  reference   : String

def Approval.intent (approval : Approval) : Intent :=
  mapEnvelopeToIntent approval.envelope approval.capability

/-- `String(pendingTask.result?.structured_output?.approval_reference ?? "")`, for the texts it is.
-/
def expectedApprovalReference (record : TaskRecord) : String :=
  match record.result with
  | none        => ""
  | some result => ((result.structuredOutput.get "approval_reference").asString).getD ""

/-- `approve` up to its first wait. -/
def checkApproval (store : TaskStore) (request : ApprovalRequest) : Except String Approval := do
  let capability := request.capability
  let envelope ← validateTaskEnvelope env.dateParses request.envelope
  throwIf (request.taskId ≠ envelope.taskId)
    "Approval request task_id does not match the envelope task_id."
  let descriptor ← resolveDescriptor env envelope.targetAgent capability
  let capabilityDescriptor := env.registry.getCapabilityDescriptor envelope.targetAgent capability
  let negotiation ← negotiateInvocation descriptor.visibilityModes capabilityDescriptor envelope
    capability request.requestedSchemaVersion request.negotiation
  match store.get request.taskId with
  | none             => throw ("Approval task not found: " ++ request.taskId)
  | some pendingTask => do
      throwIf (pendingTask.status ≠ .awaitingApproval)
        ("Task is not awaiting approval: " ++ request.taskId)
      throwIf (pendingTask.capability ≠ some capability)
        ("Approval capability mismatch for task: " ++ request.taskId)
      throwIf (pendingTask.targetAgent ≠ some descriptor.agentId)
        ("Approval target agent mismatch for task: " ++ request.taskId)
      let expected := expectedApprovalReference pendingTask
      throwIf (expected = "" ∨ expected ≠ request.approvalReference)
        ("Invalid approval reference for task: " ++ request.taskId)
      return ⟨envelope, capability, negotiation, request.approvalReference⟩

/-! ## Cancellation -/

def cancellableStates : List TaskStatus := [.accepted, .proposed, .awaitingApproval, .running]

/-- The task a cancellation names, within the tenant it names. -/
def cancelTarget (store : TaskStore) (taskId : String) (tenantId : Option String) :
    Except String (Option TaskRecord) :=
  match tenantId with
  | some tenant => if tenant = "" then .ok (store.get taskId) else store.getByTenant taskId tenant
  | none        => .ok (store.get taskId)

def cancelResult (record : TaskRecord) (taskId : String) : ResultPackage where
  taskId := taskId
  contextId := none
  status := .revoked
  summary := some "Task was cancelled by the requester."
  structuredOutput :=
    [("target_agent", .ofString? record.targetAgent), ("capability", .ofString? record.capability),
      ("previous_status", .str record.status.text)]
  negotiatedSchemaVersion := record.result.bind (·.negotiatedSchemaVersion)
  requestedSchemaVersion := record.result.bind (·.requestedSchemaVersion)
  executedSchemaVersion := record.result.bind (·.executedSchemaVersion)
  negotiation := none
  redactionsApplied := some ["internal_reasoning"]
  followupRequired := false
  escalationReason := none
  extensions := none

/-- The receipt of a cancellation, for a record with its identity, capability and agent. -/
def cancelReceipt (now : Millis) (taskId capability targetAgent : String)
    (requester : RequesterIdentity) (requestId : Option String) : UnsignedReceipt where
  receiptId := "receipt:" ++ taskId ++ ":cancel"
  intentId := taskId
  capability := capability
  action := .denied
  timestamp := toISOString now
  status := .error
  taskId := some taskId
  tenantId := some (TaskStore.resolveTenantId requester.tenantId)
  requestId := requestId
  agentId := targetAgent
  resourceTouched := some targetAgent
  policyChecks := some ["cancellation_requested"]
  approvalUsed := none
  resultHash := some ("sha256:" ++ taskId ++ ":cancel")
  requestedSchemaVersion := none
  executedSchemaVersion := none
  negotiation := none

/-- `cancelTask` up to its write: the result and the receipt of the cancelled task. The store types
a record's capability and agent as texts; a record without them is not cancelled here. -/
def planCancel (store : TaskStore) (now : Millis) (taskId : String) (tenantId : Option String) :
    Except String InvokeResult := do
  match ← cancelTarget store taskId tenantId with
  | none              => throw ("Task not found: " ++ taskId)
  | some existingTask => do
      throwIf (existingTask.status ∉ cancellableStates)
        ("Task cannot be cancelled in its current state: " ++ existingTask.status.text)
      match existingTask.requesterIdentity, existingTask.capability, existingTask.targetAgent with
      | some requester, some capability, some targetAgent => do
          let receipt ← sign env (cancelReceipt now taskId capability targetAgent requester
            (existingTask.receipt.bind (·.requestId)))
          return ⟨cancelResult existingTask taskId, receipt⟩
      | _, _, _ => throw "Cannot read properties of undefined (reading 'tenant_id')"

end Orchestrator

end MapProtocol
