import MapProtocol.Core.Types

/-!
# Protocol types

The records of the protocol layer: descriptors, envelopes, results, receipts, task records. Each
record keeps the fields that the modelled code reads or writes. `toJs` gives the object the source
serialises.
-/

namespace MapProtocol

open Js

inductive VisibilityMode where
  | full
  | summary
  | structuredOnly
  | receiptOnly
  | redacted
  | debug
  deriving DecidableEq, Repr

def VisibilityMode.text : VisibilityMode → String
  | .full           => "full"
  | .summary        => "summary"
  | .structuredOnly => "structured_only"
  | .receiptOnly    => "receipt_only"
  | .redacted       => "redacted"
  | .debug          => "debug"

inductive DeliveryMode where
  | sync
  | async
  deriving DecidableEq, Repr

def DeliveryMode.text : DeliveryMode → String
  | .sync  => "sync"
  | .async => "async"

inductive TaskStatus where
  | accepted
  | proposed
  | awaitingApproval
  | denied
  | running
  | completed
  | failed
  | revoked
  deriving DecidableEq, Repr

def TaskStatus.text : TaskStatus → String
  | .accepted         => "accepted"
  | .proposed         => "proposed"
  | .awaitingApproval => "awaiting_approval"
  | .denied           => "denied"
  | .running          => "running"
  | .completed        => "completed"
  | .failed           => "failed"
  | .revoked          => "revoked"

inductive IdentityType where
  | user
  | service
  | agent
  deriving DecidableEq, Repr

def IdentityType.text : IdentityType → String
  | .user    => "user"
  | .service => "service"
  | .agent   => "agent"

structure RequesterIdentity where
  type     : IdentityType
  id       : String
  tenantId : Option String
  deriving DecidableEq, Repr

def RequesterIdentity.toJs (r : RequesterIdentity) : JsObject :=
  [("type", .str r.type.text), ("id", .str r.id), ("tenant_id", .ofString? r.tenantId)]

/-- The two bags of constraints, unchecked as they arrive. -/
structure TaskConstraints where
  common : Option JsObject
  domain : Option JsObject

structure TaskEnvelope where
  taskId              : String
  orderId             : Option String
  parentTaskId        : Option String
  contextId           : Option String
  requesterIdentity   : RequesterIdentity
  targetAgent         : String
  intent              : String
  constraints         : TaskConstraints
  riskClass           : RiskLevel
  deadline            : Option String
  delegationToken     : String
  requestedOutputMode : VisibilityMode
  metadata            : Option JsObject
  idempotencyToken    : Option String
  extensions          : Option (List String)

/-- `envelope.metadata?.[key]`. -/
def TaskEnvelope.meta (envelope : TaskEnvelope) (key : String) : JsValue :=
  match envelope.metadata with
  | none   => .undefined
  | some m => m.get key

/-! ## Descriptors -/

inductive EntryStatus where
  | active
  | deprecated
  | disabled
  deriving DecidableEq, Repr

structure TranslationTarget where
  source : String
  target : String
  deriving DecidableEq, Repr

structure CapabilityDescriptor where
  name                    : String
  schemaVersion           : Option String
  supportedSchemaVersions : Option (List String)
  preferredSchemaVersion  : Option String
  translationTargets      : Option (List TranslationTarget)
  status                  : Option EntryStatus
  deriving DecidableEq, Repr

structure AgentExtension where
  uri      : String
  required : Option Bool
  deriving DecidableEq, Repr

structure AgentDescriptor where
  agentId               : String
  domain                : String
  capabilities          : List String
  visibilityModes       : List VisibilityMode
  capabilityDescriptors : Option (List CapabilityDescriptor)
  registryStatus        : Option EntryStatus
  extensions            : Option (List AgentExtension)
  deriving DecidableEq, Repr

/-! ## Negotiation -/

structure InvocationNegotiationRequest where
  schemaVersion : Option String
  deliveryMode  : Option DeliveryMode
  deriving DecidableEq, Repr

structure NegotiatedTerms where
  schemaVersion : Option String
  outputMode    : VisibilityMode
  deliveryMode  : DeliveryMode
  deriving DecidableEq, Repr

def NegotiatedTerms.toJs (t : NegotiatedTerms) : JsObject :=
  [("schema_version", .ofString? t.schemaVersion), ("output_mode", .str t.outputMode.text),
    ("delivery_mode", .str t.deliveryMode.text)]

inductive ProviderAction where
  | schemaTranslated
  deriving DecidableEq, Repr

structure InvocationNegotiation where
  requested       : NegotiatedTerms
  selected        : NegotiatedTerms
  providerActions : Option (List ProviderAction)
  deriving DecidableEq, Repr

def InvocationNegotiation.toJs (n : InvocationNegotiation) : JsObject :=
  [("requested", .obj n.requested.toJs), ("selected", .obj n.selected.toJs)] ++
    match n.providerActions with
    | none         => []
    | some actions =>
        [("provider_actions", .arr (actions.map fun _ => .str "schema_translated"))]

/-! ## Results and receipts -/

/-- An optional list of strings, as the property value it gives. -/
def stringsToJs : Option (List String) → JsValue
  | none    => .undefined
  | some ss => .arr (ss.map .str)

def negotiationToJs : Option InvocationNegotiation → JsValue
  | none   => .undefined
  | some n => .obj n.toJs

structure ResultPackage where
  taskId                  : String
  contextId               : Option String
  status                  : TaskStatus
  summary                 : Option String
  structuredOutput        : JsObject
  negotiatedSchemaVersion : Option String
  requestedSchemaVersion  : Option String
  executedSchemaVersion   : Option String
  negotiation             : Option InvocationNegotiation
  redactionsApplied       : Option (List String)
  followupRequired        : Bool
  escalationReason        : Option String
  extensions              : Option (List String)

def ResultPackage.toJs (r : ResultPackage) : JsObject :=
  [("task_id", .str r.taskId), ("context_id", .ofString? r.contextId),
    ("status", .str r.status.text), ("summary", .ofString? r.summary),
    ("structured_output", .obj r.structuredOutput),
    ("negotiated_schema_version", .ofString? r.negotiatedSchemaVersion),
    ("requested_schema_version", .ofString? r.requestedSchemaVersion),
    ("executed_schema_version", .ofString? r.executedSchemaVersion),
    ("negotiation", negotiationToJs r.negotiation),
    ("redactions_applied", stringsToJs r.redactionsApplied),
    ("followup_required", .bool r.followupRequired),
    ("escalation_reason", .ofString? r.escalationReason),
    ("extensions", stringsToJs r.extensions)]

/-- A receipt before it is signed. -/
structure UnsignedReceipt where
  receiptId              : String
  intentId               : String
  capability             : String
  action                 : ReceiptAction
  timestamp              : String
  status                 : ExecutionStatus
  taskId                 : Option String
  tenantId               : Option String
  requestId              : Option String
  agentId                : String
  resourceTouched        : Option String
  policyChecks           : Option (List String)
  approvalUsed           : Option String
  resultHash             : Option String
  requestedSchemaVersion : Option String
  executedSchemaVersion  : Option String
  negotiation            : Option InvocationNegotiation
  deriving DecidableEq, Repr

structure ExecutionReceipt extends UnsignedReceipt where
  signature : String
  deriving DecidableEq, Repr

def UnsignedReceipt.toJs (r : UnsignedReceipt) : JsObject :=
  [("receipt_id", .str r.receiptId), ("intent_id", .str r.intentId),
    ("capability", .str r.capability), ("action", .str r.action.text),
    ("timestamp", .str r.timestamp), ("status", .str r.status.text),
    ("task_id", .ofString? r.taskId), ("tenant_id", .ofString? r.tenantId),
    ("request_id", .ofString? r.requestId), ("agent_id", .str r.agentId),
    ("resource_touched", .ofString? r.resourceTouched),
    ("policy_checks", stringsToJs r.policyChecks), ("approval_used", .ofString? r.approvalUsed),
    ("result_hash", .ofString? r.resultHash),
    ("requested_schema_version", .ofString? r.requestedSchemaVersion),
    ("executed_schema_version", .ofString? r.executedSchemaVersion),
    ("negotiation", negotiationToJs r.negotiation)]

def ExecutionReceipt.toJs (r : ExecutionReceipt) : JsObject :=
  r.toUnsignedReceipt.toJs ++ [("signature", .str r.signature)]

structure InvokeResult where
  result  : ResultPackage
  receipt : ExecutionReceipt

/-- A stored task. A property that an update may overwrite with `undefined` is optional. -/
structure TaskRecord where
  taskId            : String
  orderId           : Option String
  contextId         : Option String
  requesterIdentity : Option RequesterIdentity
  idempotencyKey    : Option String
  capability        : Option String
  targetAgent       : Option String
  status            : TaskStatus
  result            : Option ResultPackage
  receipt           : Option ExecutionReceipt
  updatedAt         : String

structure ApprovalRequest where
  taskId                 : String
  approvalReference      : String
  capability             : String
  envelope               : TaskEnvelope
  requestedSchemaVersion : Option String
  negotiation            : Option InvocationNegotiationRequest

end MapProtocol
