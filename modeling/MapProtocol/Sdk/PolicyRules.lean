import MapProtocol.Js.Text
import MapProtocol.Protocol.Types
import MapProtocol.Py.Operators

/-!
# Policy rules of the packages

The rule engines of the TypeScript and the Python package. Rules, envelopes and contexts are given
once, as either package holds them: what is absent is `undefined` in one and `None` in the other. An
evaluation that throws or raises gives `none`. The logs of an evaluation are left out, as are the
rules of single tenants.
-/

namespace MapProtocol.Sdk

open Js Py

inductive PolicyEffect where
  | allow
  | deny
  | denyWithReason
  | challenge
  deriving DecidableEq, Repr

/-- The operators that compare a field with a value. -/
inductive Operator where
  | eq
  | neq
  | gt
  | lt
  | gte
  | lte
  | isIn
  | contains
  deriving DecidableEq, Repr

inductive PolicyCondition where
  | and (conditions : Option (List PolicyCondition))
  | or (conditions : Option (List PolicyCondition))
  | not (conditions : Option (List PolicyCondition))
  | comparison (operator : Operator) (field : Option String) (value : Option Value)

structure PolicyTarget where
  capability : Option String           := none
  agentId    : Option String           := none
  riskClass  : Option (List RiskLevel) := none

structure PolicyRule where
  id        : String
  name      : String
  target    : PolicyTarget
  condition : Option PolicyCondition
  effect    : PolicyEffect
  reason    : Option String
  priority  : Int

structure PolicyResult where
  effect             : PolicyEffect
  reason             : Option String                   := none
  requiredApprovals  : Option (List String)            := none
  constraintsApplied : Option (List (String × String)) := none
  deriving DecidableEq

/-- What the engines read of an envelope. -/
structure Envelope where
  requesterIdentity : RequesterIdentity
  targetAgent       : String
  riskClass         : RiskLevel
  common            : Option Dict
  domain            : Option Dict

/-- What the engines read of a context. -/
structure PolicyContext where
  delegationTokenValid : Option Bool := none
  resourceInScope      : Option Bool := none
  timeWindowValid      : Option Bool := none

def ofGiven : Option Value → JsValue
  | some v => v.toJs
  | none   => .undefined

/-! ## Engines -/

def byPriority (a b : PolicyRule) : Bool := b.priority ≤ a.priority

/-- An engine of either package: its rules, those of higher priority first. -/
structure PolicyEngine where
  rules         : List PolicyRule
  defaultEffect : PolicyEffect
  sorted        : rules.Pairwise fun a b => byPriority a b = true

theorem byPriority_trans (a b c : PolicyRule) (hab : byPriority a b = true)
    (hbc : byPriority b c = true) : byPriority a c = true := by
  simp only [byPriority, decide_eq_true_eq] at *
  omega

theorem byPriority_total (a b : PolicyRule) : (byPriority a b || byPriority b a) = true := by
  simp only [byPriority, Bool.or_eq_true, decide_eq_true_eq]
  omega

namespace PolicyEngine

def empty (defaultEffect : PolicyEffect) : PolicyEngine := ⟨[], defaultEffect, .nil⟩

/-- `addRule` and `add_rule`. -/
def addRule (engine : PolicyEngine) (rule : PolicyRule) : PolicyEngine where
  rules := (engine.rules ++ [rule]).mergeSort byPriority
  defaultEffect := engine.defaultEffect
  sorted := List.pairwise_mergeSort byPriority_trans byPriority_total _

/-- The engine after all these rules have been added. -/
def ofRules (defaultEffect : PolicyEffect) (rules : List PolicyRule) : PolicyEngine :=
  rules.foldl addRule (empty defaultEffect)

end PolicyEngine

/-- What both engines return for a rule that fires. -/
def PolicyRule.result (rule : PolicyRule) : PolicyResult :=
  match rule.effect with
  | .allow     =>
      { effect := .allow
        constraintsApplied :=
          if (given rule.reason).isSome then
            some [("policy_rule_id", rule.id), ("policy_rule_name", rule.name)]
          else some [] }
  | .challenge =>
      { effect := .challenge
        requiredApprovals := some ["human_review"]
        reason := (given rule.reason).getD ("Challenge required by rule: " ++ rule.name) }
  | effect     =>
      { effect
        reason := (given rule.reason).getD ("Denied by rule: " ++ rule.name) }

def firstResult (defaultEffect : PolicyEffect) (fires : PolicyRule → Option Bool) :
    List PolicyRule → Option PolicyResult
  | []            => some { effect := defaultEffect }
  | rule :: rules => do
      if ← fires rule then return rule.result
      firstResult defaultEffect fires rules

/-! ## TypeScript -/

namespace TypeScript

/-- `typeof v === "object"`, for a value that is true. -/
def isObject : JsValue → Bool
  | .obj _          => true
  | .arr _          => true
  | .inherited name => name = "Object.prototype" || name = "Array.prototype"
  | _               => false

/-- `part in v`. -/
def hasProperty (part : String) : JsValue → Bool
  | .obj es         => JsObject.has es part || JsValue.objectPrototype.contains part
  | .arr xs         =>
      JsValue.arrayPrototype.contains part || JsValue.objectPrototype.contains part ||
        part = "length" ||
          match part.toNat? with
          | some i => toString i = part && i < xs.length
          | none   => false
  | .inherited name =>
      JsValue.objectPrototype.contains part ||
        (name = "Array.prototype" && (part = "length" || JsValue.arrayPrototype.contains part))
  | _               => false

def getNestedValue (current : JsValue) : List String → JsValue
  | []            => current
  | part :: parts =>
      if current.truthy && isObject current && hasProperty part current then
        getNestedValue (current.property part) parts
      else .undefined

/-- `envelope.constraints`. -/
def constraints (envelope : Envelope) : JsObject :=
  membersToJs ((envelope.common.map fun es => ("common", Value.dict es)).toList ++
    (envelope.domain.map fun es => ("domain", Value.dict es)).toList)

def getFieldValue (envelope : Envelope) (context : Option PolicyContext) (field : String) :
    JsValue :=
  if field = "risk_class" then .str envelope.riskClass.text
  else if field = "target_agent" then .str envelope.targetAgent
  else if field = "requester.type" then .str envelope.requesterIdentity.type.text
  else if field = "requester.id" then .str envelope.requesterIdentity.id
  else if field = "requester.tenant_id" then .ofString? envelope.requesterIdentity.tenantId
  else if field = "delegation_token_valid" then
    .bool ((context.bind PolicyContext.delegationTokenValid).getD false)
  else if field = "resource_in_scope" then
    .bool ((context.bind PolicyContext.resourceInScope).getD false)
  else if field = "time_window_valid" then
    .bool ((context.bind PolicyContext.timeWindowValid).getD true)
  else if startsWith field "constraints." then
    getNestedValue (.obj (constraints envelope))
      (split (String.ofList (field.toList.drop "constraints.".length)) '.')
  else .undefined

/-- `envelope.constraints?.common?.capability`. -/
def envelopeCapability (envelope : Envelope) : JsValue :=
  match envelope.common with
  | some es => (JsValue.obj (membersToJs es)).property "capability"
  | none    => .undefined

def ruleApplies (rule : PolicyRule) (envelope : Envelope) : Bool :=
  let riskClass := rule.target.riskClass.getD []
  if !riskClass.isEmpty && !riskClass.contains envelope.riskClass then false
  else if match given rule.target.capability with
      | some capability =>
          !(envelopeCapability envelope).strictEquals (.str capability)
      | none => false then false
  else match given rule.target.agentId with
    | some agentId => agentId = envelope.targetAgent
    | none         => true

/-- A comparison, once its field has been read. -/
def compare (operator : Operator) (fieldValue value : JsValue) : Option Bool :=
  match operator with
  | .eq       => some (fieldValue.strictEquals value)
  | .neq      => some (!fieldValue.strictEquals value)
  | .gt       => return (← toNumber value).lt (← toNumber fieldValue)
  | .lt       => return (← toNumber fieldValue).lt (← toNumber value)
  | .gte      => return (← toNumber value).le (← toNumber fieldValue)
  | .lte      => return (← toNumber fieldValue).le (← toNumber value)
  | .isIn     =>
      match value with
      | .arr xs => some (xs.any fun x => x.strictEquals fieldValue)
      | _       => some false
  | .contains =>
      match fieldValue, value with
      | .str s, .str t => some (includes s t)
      | .arr xs, value => some (xs.any fun x => x.strictEquals value)
      | _, _           => some false

section

variable (envelope : Envelope) (context : Option PolicyContext)

/-- A comparison. A field that is not there has no `startsWith`; `in` does not read its field unless
the value is an array. -/
def evaluateComparison (operator : Operator) (field : Option String) (value : Option Value) :
    Option Bool :=
  match field with
  | some field => compare operator (getFieldValue envelope context field) (ofGiven value)
  | none       =>
      match operator, ofGiven value with
      | .isIn, .arr _ => none
      | .isIn, _      => some false
      | _, _          => none

mutual

def evaluateCondition : PolicyCondition → Option Bool
  | .and none                         => none
  | .and (some conditions)            => evaluateEvery conditions
  | .or none                          => none
  | .or (some conditions)             => evaluateSome conditions
  | .not (some (condition :: _))      => (evaluateCondition condition).map Bool.not
  | .not _                            => none
  | .comparison operator field value  => evaluateComparison envelope context operator field value

/-- `conditions.every(...)`. -/
def evaluateEvery : List PolicyCondition → Option Bool
  | []                      => some true
  | condition :: conditions =>
      match evaluateCondition condition with
      | some true => evaluateEvery conditions
      | answer    => answer

/-- `conditions.some(...)`. -/
def evaluateSome : List PolicyCondition → Option Bool
  | []                      => some false
  | condition :: conditions =>
      match evaluateCondition condition with
      | some false => evaluateSome conditions
      | answer     => answer

end

def fires (rule : PolicyRule) : Option Bool :=
  match rule.condition with
  | some condition => evaluateCondition envelope context condition
  | none           => some true

end

def evaluate (engine : PolicyEngine) (envelope : Envelope) (context : Option PolicyContext) :
    Option PolicyResult :=
  let applicableRules := engine.rules.filter fun rule => ruleApplies rule envelope
  if applicableRules.isEmpty then some { effect := engine.defaultEffect }
  else firstResult engine.defaultEffect (fires envelope context) applicableRules

end TypeScript

/-! ## Python -/

namespace Python

def getNestedValue : Value → List String → Value
  | current, []             => current
  | .dict es, part :: parts =>
      match OrderedMap.getEntries part es with
      | some current => getNestedValue current parts
      | none         => .none
  | _, _                    => .none

/-- `envelope.constraints.__dict__`. -/
def constraints (envelope : Envelope) : Dict :=
  [("common", (envelope.common.map .dict).getD .none),
    ("domain", (envelope.domain.map .dict).getD .none)]

def getFieldValue (envelope : Envelope) (context : Option PolicyContext) (field : String) : Value :=
  if field = "risk_class" then .str envelope.riskClass.text
  else if field = "target_agent" then .str envelope.targetAgent
  else if field = "requester.type" then .str envelope.requesterIdentity.type.text
  else if field = "requester.id" then .str envelope.requesterIdentity.id
  else if field = "requester.tenant_id" then
    (envelope.requesterIdentity.tenantId.map .str).getD .none
  else if field = "delegation_token_valid" then
    .bool ((context.bind PolicyContext.delegationTokenValid).getD true)
  else if field = "resource_in_scope" then
    .bool ((context.bind PolicyContext.resourceInScope).getD true)
  else if field = "time_window_valid" then
    .bool ((context.bind PolicyContext.timeWindowValid).getD true)
  else if startsWith field "constraints." then
    getNestedValue (.dict (constraints envelope))
      (split (String.ofList (field.toList.drop "constraints.".length)) '.')
  else .none

def envelopeCapability (envelope : Envelope) : Value :=
  match envelope.common with
  | some es => (OrderedMap.getEntries "capability" es).getD .none
  | none    => .none

def ruleApplies (rule : PolicyRule) (envelope : Envelope) : Bool :=
  let riskClass := rule.target.riskClass.getD []
  if !riskClass.isEmpty && !riskClass.contains envelope.riskClass then false
  else if match given rule.target.capability with
      | some capability =>
          !(envelopeCapability envelope).equals (.str capability)
      | none => false then false
  else match given rule.target.agentId with
    | some agentId => agentId = envelope.targetAgent
    | none         => true

section

/-! What characters beyond ASCII are digits to `float` is a parameter. -/

variable (foreignDigit : Char → Option Nat)

/-- `float(v or 0)`. -/
def floatOf (v : Value) : Option Number :=
  if v.truthy then float foreignDigit v else some (.finite 0)

/-- A comparison, once its field has been read. -/
def compare (operator : Operator) (fieldValue value : Value) : Option Bool :=
  match operator with
  | .eq       => some (fieldValue.equals value)
  | .neq      => some (!fieldValue.equals value)
  | .gt       => return (← floatOf foreignDigit value).lt (← floatOf foreignDigit fieldValue)
  | .lt       => return (← floatOf foreignDigit fieldValue).lt (← floatOf foreignDigit value)
  | .gte      => return (← floatOf foreignDigit value).le (← floatOf foreignDigit fieldValue)
  | .lte      => return (← floatOf foreignDigit fieldValue).le (← floatOf foreignDigit value)
  | .isIn     => if value.truthy then fieldValue.isIn value else some false
  | .contains =>
      match fieldValue, value with
      | .str s, .str t => some (includes s t)
      | .list xs, v    => v.isIn (.list xs)
      | _, _           => some false

variable (envelope : Envelope) (context : Option PolicyContext)

mutual

/-- What `_evaluate_condition` returns, as far as it is true. -/
def evaluateCondition : PolicyCondition → Option Bool
  | .and conditions                  =>
      match conditions with
      | some conditions => evaluateAll conditions
      | none            => some true
  | .or conditions                   =>
      match conditions with
      | some conditions => evaluateAny conditions
      | none            => some false
  | .not (some (condition :: _))     => (evaluateCondition condition).map Bool.not
  | .not _                           => some true
  | .comparison operator field value =>
      compare foreignDigit operator (getFieldValue envelope context (field.getD ""))
        (value.getD .none)

/-- `all(...)`. -/
def evaluateAll : List PolicyCondition → Option Bool
  | []                      => some true
  | condition :: conditions =>
      match evaluateCondition condition with
      | some true => evaluateAll conditions
      | answer    => answer

/-- `any(...)`. -/
def evaluateAny : List PolicyCondition → Option Bool
  | []                      => some false
  | condition :: conditions =>
      match evaluateCondition condition with
      | some false => evaluateAny conditions
      | answer     => answer

end

def fires (rule : PolicyRule) : Option Bool :=
  match rule.condition with
  | some condition => evaluateCondition foreignDigit envelope context condition
  | none           => some true

end

def evaluate (foreignDigit : Char → Option Nat) (engine : PolicyEngine) (envelope : Envelope)
    (context : Option PolicyContext) : Option PolicyResult :=
  let applicable :=
    (engine.rules.filter fun rule => ruleApplies rule envelope).mergeSort byPriority
  if applicable.isEmpty then some { effect := engine.defaultEffect }
  else firstResult engine.defaultEffect (fires foreignDigit envelope context) applicable

end Python

end MapProtocol.Sdk
