import MapProtocol.Js.Value

/-!
# Core types

The vocabulary of the execution core: intents, policies, what an execution gives back. Fields that
the source reads through a cast from an unchecked bag are `JsValue`s.
-/

namespace MapProtocol

open Js

inductive RiskLevel where
  | low
  | medium
  | high
  | critical
  deriving DecidableEq, Repr

def RiskLevel.text : RiskLevel → String
  | .low      => "low"
  | .medium   => "medium"
  | .high     => "high"
  | .critical => "critical"

/-- What a policy decides. A document that was not typed may carry any other text. -/
inductive PolicyAction where
  | allow
  | deny
  | requireApproval
  | other (text : String)
  deriving DecidableEq, Repr

inductive ExecutionStatus where
  | ok
  | error
  deriving DecidableEq, Repr

def ExecutionStatus.text : ExecutionStatus → String
  | .ok    => "ok"
  | .error => "error"

inductive ReceiptAction where
  | executed
  | denied
  | approvalRequired
  deriving DecidableEq, Repr

def ReceiptAction.text : ReceiptAction → String
  | .executed         => "executed"
  | .denied           => "denied"
  | .approvalRequired => "approval_required"

inductive RequesterType where
  | user
  | service
  deriving DecidableEq, Repr

def RequesterType.text : RequesterType → String
  | .user    => "user"
  | .service => "service"

structure IntentRequester where
  type     : RequesterType
  id       : String
  tenantId : Option String
  deriving DecidableEq, Repr

structure IntentConstraints where
  environment : JsValue
  timeoutMs   : JsValue
  maxAmount   : JsValue
  resourceId  : JsValue

structure IntentMetadata where
  intentId   : String
  requestId  : Option String
  webhookUrl : Option String
  deriving DecidableEq, Repr

structure Intent where
  capability  : String
  input       : JsObject
  requester   : IntentRequester
  constraints : Option IntentConstraints
  metadata    : Option IntentMetadata
  riskClass   : Option RiskLevel

/-- The intent as the object a policy condition reads. -/
def Intent.toJs (intent : Intent) : JsValue :=
  .obj [
    ("capability", .str intent.capability),
    ("input", .obj intent.input),
    ("requester", .obj [
      ("type", .str intent.requester.type.text),
      ("id", .str intent.requester.id),
      ("tenant_id", .ofString? intent.requester.tenantId)]),
    ("constraints", match intent.constraints with
      | none   => .undefined
      | some c => .obj [
          ("environment", c.environment),
          ("timeout_ms", c.timeoutMs),
          ("max_amount", c.maxAmount),
          ("resource_id", c.resourceId)]),
    ("metadata", match intent.metadata with
      | none   => .undefined
      | some m => .obj [
          ("intent_id", .str m.intentId),
          ("request_id", .ofString? m.requestId),
          ("webhook_url", .ofString? m.webhookUrl)]),
    ("risk_class", match intent.riskClass with
      | none   => .undefined
      | some r => .str r.text)]

structure PolicyDecision where
  action      : PolicyAction
  reason      : String
  matchedRule : Option String
  deriving DecidableEq, Repr

/-- A policy rule. The condition is the raw object: the compiler reads it by its property names. -/
structure PolicyRule where
  id         : String
  capability : String
  condition  : JsValue
  action     : PolicyAction

structure PolicyDocument where
  rules         : List PolicyRule
  defaultAction : Option PolicyAction

structure ValidationError where
  field   : String
  message : String
  deriving DecidableEq, Repr

structure ValidationResult where
  valid  : Bool
  errors : List ValidationError
  deriving DecidableEq, Repr

structure ExecutionContext where
  intentId  : String
  requester : IntentRequester
  deriving DecidableEq, Repr

/-- What an adapter answers. -/
structure ExecutionResult where
  intentId   : String
  capability : String
  status     : ExecutionStatus
  output     : JsObject
  summary    : String

/-- The receipt the core gives for an intent it did not execute. -/
structure CoreReceipt where
  receiptId  : String
  intentId   : String
  capability : String
  action     : ReceiptAction
  timestamp  : String
  status     : ExecutionStatus
  signature  : String
  deriving DecidableEq, Repr

/-- The synchronous half of an adapter; what its `execute` answers is up to the outside. -/
structure ExecutionAdapter where
  validate : JsObject → ValidationResult

end MapProtocol
