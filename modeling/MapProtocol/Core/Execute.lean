import MapProtocol.Core.Execution
import MapProtocol.Core.Semantics

/-!
# The second policy engine

`core/execute.ts` executes an intent with an interpreter of its own: rules are tried one after the
other, a condition is evaluated as it is met, `always` is unknown, and where no rule matches the
intent is allowed. Below the interpreter, then when it and `Executor` agree.
-/

namespace MapProtocol

open Js

namespace Execute

/-! ## Conditions -/

/-- A value evaluated as a condition, by `.every(evaluateCondition)` and by
`.some(evaluateCondition)`. -/
structure EvaluatedValue where
  condition : Except String Bool
  every     : Except String Bool
  some      : Except String Bool

def notEvery : Except String Bool := .error "every is not a function"

def notSome : Except String Bool := .error "some is not a function"

/-- The loop over the operators: the first one that the object has decides. -/
def evaluateComparison (intent : JsValue) (condition : JsObject) :
    List String → Except String Bool
  | []        => .ok false
  | op :: ops =>
      if condition.has op then do
        let (leftPath, rightValue) ← destructurePair (condition.get op)
        let parts ← splitPath leftPath
        return evaluateOp op (getFieldValueFromParts parts intent) rightValue
      else evaluateComparison intent condition ops

/-- `evaluateCondition` for an object, given its evaluated property values. -/
def evaluateObject (intent : JsValue) (condition : JsObject)
    (evaluated : List (String × EvaluatedValue)) : Except String Bool :=
  let operand (key : String) : EvaluatedValue :=
    (OrderedMap.getEntries key evaluated).getD ⟨.ok false, notEvery, notSome⟩
  if condition.has "$field" then do
    let parts ← splitPath (condition.get "$field")
    return (getFieldValueFromParts parts intent).truthy
  else if condition.has "and" then (operand "and").every
  else if condition.has "or" then (operand "or").some
  else if condition.has "not" then do
    let b ← (operand "not").condition
    return !b
  else evaluateComparison intent condition comparisonOperators

section

variable (intent : JsValue)

mutual

def evaluateValue : JsValue → EvaluatedValue
  | .obj es => ⟨evaluateObject intent es (evaluateEntries es), notEvery, notSome⟩
  | .arr xs => ⟨.ok false, everyElement xs, someElement xs⟩
  | _       => ⟨.ok false, notEvery, notSome⟩

def everyElement : List JsValue → Except String Bool
  | []      => .ok true
  | v :: vs => do
      let b ← (evaluateValue v).condition
      if b then everyElement vs else return false

def someElement : List JsValue → Except String Bool
  | []      => .ok false
  | v :: vs => do
      let b ← (evaluateValue v).condition
      if b then return true else someElement vs

def evaluateEntries : List (String × JsValue) → List (String × EvaluatedValue)
  | []           => []
  | (k, v) :: es => (k, evaluateValue v) :: evaluateEntries es

end

end

def evaluateCondition (condition intent : JsValue) : Except String Bool :=
  (evaluateValue intent condition).condition

/-! ## Rules -/

def matchesCapability (regExp : RegExpEngine) (intentCapability ruleCapability : String) :
    Except String Bool :=
  if ruleCapability = "*" then .ok true
  else if ruleCapability = intentCapability then .ok true
  else if includes ruleCapability "*" then
    (regExp (globPattern ruleCapability)).map fun test => test intentCapability
  else .ok false

structure Decision where
  action : PolicyAction
  reason : String

def evaluateRules (regExp : RegExpEngine) (intent : Intent) :
    List PolicyRule → Except String Decision
  | []            => .ok ⟨.allow, "Default allow"⟩
  | rule :: rules => do
      let matched ← matchesCapability regExp intent.capability rule.capability
      if matched then
        let conditionResult ← evaluateCondition rule.condition intent.toJs
        if conditionResult then return ⟨rule.action, "Rule: " ++ rule.id⟩
        else evaluateRules regExp intent rules
      else evaluateRules regExp intent rules

def evaluatePolicy (regExp : RegExpEngine) (intent : Intent) (policy : PolicyDocument) :
    Except String Decision :=
  evaluateRules regExp intent policy.rules

/-! ## Executing -/

/-- The receipt has no signature here; the empty one stands for that. -/
def buildReceipt (now : Nat) (generatedId : String) (intent : Intent) (action : ReceiptAction)
    (status : ExecutionStatus) : CoreReceipt :=
  let id := Executor.intentId intent generatedId
  { receiptId := "receipt:" ++ id ++ ":" ++ toString now, intentId := id,
    capability := intent.capability, action := action, timestamp := toISOString now,
    status := status, signature := "" }

/-- The part of `execute` after a decision that permits the intent. -/
def runAdapter (adapters : OrderedMap String ExecutionAdapter) (now : Nat) (generatedId : String)
    (intent : Intent) : Invocation :=
  match adapters.get intent.capability with
  | none         => .refused (buildReceipt now generatedId intent .denied .error)
  | some adapter =>
      if (adapter.validate intent.input).valid then
        .adapter intent ⟨Executor.intentId intent generatedId, intent.requester⟩
      else .refused (buildReceipt now generatedId intent .denied .error)

/-- `execute(options)`. The intent is normalised as `normalize` does it and not validated. -/
def execute (regExp : RegExpEngine) (adapters : OrderedMap String ExecutionAdapter) (now : Nat)
    (generatedId : String) (policy : PolicyDocument) (intent : Intent) : Invocation :=
  let normalizedIntent := normalizeIntent intent
  match evaluatePolicy regExp normalizedIntent policy with
  | .error message => .rejected message
  | .ok decision   =>
      match decision.action with
      | .deny            => .refused (buildReceipt now generatedId normalizedIntent .denied .error)
      | .requireApproval =>
          .refused (buildReceipt now generatedId normalizedIntent .approvalRequired .error)
      | _                => runAdapter adapters now generatedId normalizedIntent

end Execute

end MapProtocol
