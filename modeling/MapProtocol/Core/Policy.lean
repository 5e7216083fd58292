import MapProtocol.Core.Types

/-!
# Policy evaluation

A policy document is compiled rule by rule, then the first rule whose capability pattern and
condition match decides. Conditions arrive as raw objects and the compiler recognises them by their
property names, in a fixed order of tests; an operand of the wrong shape throws while compiling.

`compileValue` compiles a value in the two ways the compiler may need it, as a condition and as the
operand of `and` or `or`, so that the recursion is on the value itself.

Capability patterns with a `*` become regular expressions. The engine is a parameter: from the text
of an expression it gives the test it performs, or the error `new RegExp` throws.
-/

namespace MapProtocol

open Js

/-- The regular-expression engine. -/
abbrev RegExpEngine := String → Except String (String → Bool)

/-! ## Conditions -/

/-- A compiled condition, on an intent read as an object. -/
abbrev Evaluator := JsValue → Bool

def evaluateOp (op : String) (leftValue rightValue : JsValue) : Bool :=
  if op = "eq" then leftValue.strictEquals rightValue
  else if op = "neq" then !leftValue.strictEquals rightValue
  else if op = "in" then
    match rightValue with
    | .arr xs => xs.any fun x => x.strictEquals leftValue
    | _       => false
  else
    match leftValue.asNumber, rightValue.asNumber with
    | some a, some b =>
        if op = "gt" then decide (a > b)
        else if op = "gte" then decide (a ≥ b)
        else if op = "lt" then decide (a < b)
        else if op = "lte" then decide (a ≤ b)
        else false
    | _, _ => false

def getFieldValueFromParts (parts : List String) (intent : JsValue) : JsValue :=
  parts.foldl JsValue.property intent

def comparisonOperators : List String := ["eq", "neq", "gt", "gte", "lt", "lte", "in"]

/-- `isComparisonCondition`: the operator, where the object is a comparison. -/
def comparisonOperator (condition : JsObject) : Option String :=
  match condition with
  | [(key, _)] => if key ∈ comparisonOperators then some key else none
  | _          => none

/-- `const [leftPath, rightValue] = operands`, for an iterable. -/
def destructurePair : JsValue → Except String (JsValue × JsValue)
  | .arr xs => .ok (xs[0]?.getD .undefined, xs[1]?.getD .undefined)
  | .str s  =>
      let chars := s.toList.map fun c => JsValue.str (String.ofList [c])
      .ok (chars[0]?.getD .undefined, chars[1]?.getD .undefined)
  | _       => .error "condition[op] is not iterable"

/-- `path.split(".")`. -/
def splitPath : JsValue → Except String (List String)
  | .str s => .ok (split s '.')
  | _      => .error "leftPath.split is not a function"

def compileComparison (op : String) (operands : JsValue) : Except String Evaluator := do
  let (leftPath, rightValue) ← destructurePair operands
  let parts ← splitPath leftPath
  return fun intent => evaluateOp op (getFieldValueFromParts parts intent) rightValue

/-- A value compiled as a condition, and compiled by `.map(compileCondition)`. -/
structure CompiledValue where
  condition : Except String Evaluator
  elements  : Except String (List Evaluator)

def notACondition : Except String Evaluator := .error "Cannot use 'in' operator on a non-object"

def notAnArray : Except String (List Evaluator) := .error "map is not a function"

/-- `compileCondition` for an object, given its compiled property values. -/
def compileObject (condition : JsObject) (compiled : List (String × CompiledValue)) :
    Except String Evaluator :=
  let operand (key : String) : CompiledValue :=
    (OrderedMap.getEntries key compiled).getD ⟨notACondition, notAnArray⟩
  if (condition.get "always").strictEquals (.bool true) then .ok fun _ => true
  else if (condition.get "never").strictEquals (.bool true) then .ok fun _ => false
  else match comparisonOperator condition with
    | some op => compileComparison op (condition.get op)
    | none =>
        if condition.has "and" then do
          let cs ← (operand "and").elements
          return fun intent => cs.all fun c => c intent
        else if condition.has "or" then do
          let cs ← (operand "or").elements
          return fun intent => cs.any fun c => c intent
        else if condition.has "not" then do
          let c ← (operand "not").condition
          return fun intent => !c intent
        else if condition.has "$field" then do
          let parts ← splitPath (condition.get "$field")
          return fun intent => (getFieldValueFromParts parts intent).truthy
        else .ok fun _ => false

mutual

def compileValue : JsValue → CompiledValue
  | .obj es => ⟨compileObject es (compileEntries es), notAnArray⟩
  | .arr xs => ⟨.ok fun _ => false, compileElements xs⟩
  | _       => ⟨notACondition, notAnArray⟩

def compileElements : List JsValue → Except String (List Evaluator)
  | []      => .ok []
  | v :: vs => do
      let c ← (compileValue v).condition
      let cs ← compileElements vs
      return c :: cs

def compileEntries : List (String × JsValue) → List (String × CompiledValue)
  | []           => []
  | (k, v) :: es => (k, compileValue v) :: compileEntries es

end

def compileCondition (condition : JsValue) : Except String Evaluator :=
  (compileValue condition).condition

/-! ## Rules -/

inductive CapabilityMatcher where
  | matchAll
  | exact (capability : String)
  | regex (test : String → Bool)

/-- The expression a glob becomes: `.` is escaped, `*` becomes `.*`, all else stays. -/
def globPattern (capability : String) : String :=
  "^" ++ String.ofList (capability.toList.flatMap fun c =>
    if c = '.' then ['\\', '.'] else if c = '*' then ['.', '*'] else [c]) ++ "$"

def compileCapabilityMatcher (regExp : RegExpEngine) (capability : String) :
    Except String CapabilityMatcher :=
  if capability = "*" then .ok .matchAll
  else if !includes capability "*" then .ok (.exact capability)
  else (regExp (globPattern capability)).map .regex

def CapabilityMatcher.matchesCapability : CapabilityMatcher → String → Bool
  | .matchAll, _                => true
  | .exact expected, capability => expected == capability
  | .regex test, capability     => test capability

structure CompiledRule where
  id                : String
  action            : PolicyAction
  capabilityMatcher : CapabilityMatcher
  condition         : Evaluator

structure CompiledPolicy where
  rules         : List CompiledRule
  defaultAction : PolicyAction

def compileRule (regExp : RegExpEngine) (rule : PolicyRule) : Except String CompiledRule := do
  let capabilityMatcher ← compileCapabilityMatcher regExp rule.capability
  let condition ← compileCondition rule.condition
  return ⟨rule.id, rule.action, capabilityMatcher, condition⟩

/-- `compilePolicy`, where the document was not compiled before. -/
def compilePolicy (regExp : RegExpEngine) (policy : PolicyDocument) :
    Except String CompiledPolicy := do
  let rules ← policy.rules.mapM (compileRule regExp)
  return ⟨rules, policy.defaultAction.getD .deny⟩

/-! ## Evaluation -/

def evaluateCompiled (intent : Intent) (compiled : CompiledPolicy) : PolicyDecision :=
  match compiled.rules.find? fun rule =>
      rule.capabilityMatcher.matchesCapability intent.capability && rule.condition intent.toJs with
  | some rule => ⟨rule.action, "Rule matched: " ++ rule.id, some rule.id⟩
  | none      =>
      ⟨compiled.defaultAction,
        if compiled.defaultAction = .allow then "Default allow - no rules matched"
        else "Default deny - no rules matched", none⟩

/-- `evaluate(intent, policy)`, or what compiling the policy throws. -/
def evaluate (regExp : RegExpEngine) (intent : Intent) (policy : PolicyDocument) :
    Except String PolicyDecision := do
  let compiled ← compilePolicy regExp policy
  return evaluateCompiled intent compiled

/-! ## The compilation cache

`compilePolicy` memoises its result in a weak map by the identity of the document. A call brings the
reference of a document and its content at that moment. An entry outlives neither its document nor a
failed compilation.
-/

structure PolicyObject where
  ref     : Nat
  content : PolicyDocument

abbrev CompilationCache := OrderedMap Nat CompiledPolicy

def compileCached (regExp : RegExpEngine) (cache : CompilationCache) (policy : PolicyObject) :
    Except String CompiledPolicy × CompilationCache :=
  match cache.get policy.ref with
  | some cached => (.ok cached, cache)
  | none        =>
      match compilePolicy regExp policy.content with
      | .ok compiled   => (.ok compiled, cache.set policy.ref compiled)
      | .error message => (.error message, cache)

/-- `evaluate(intent, policy)`, as the process sees it. -/
def evaluateCached (regExp : RegExpEngine) (cache : CompilationCache) (intent : Intent)
    (policy : PolicyObject) : Except String PolicyDecision × CompilationCache :=
  let (compiled, cache) := compileCached regExp cache policy
  (compiled.map (evaluateCompiled intent), cache)

/-- The cache after a sequence of `evaluate` calls. -/
def cacheAfter (regExp : RegExpEngine) (calls : List (Intent × PolicyObject)) : CompilationCache :=
  calls.foldl (fun cache call => (evaluateCached regExp cache call.1 call.2).2) .empty

/-- The document is as it was in every earlier call. -/
def Unchanged (calls : List (Intent × PolicyObject)) (policy : PolicyObject) : Prop :=
  ∀ call ∈ calls, call.2.ref = policy.ref → call.2.content = policy.content

/-- What is cached for the document, if anything, is what it compiles to now. -/
def CompilationCache.UpToDate (regExp : RegExpEngine) (cache : CompilationCache)
    (policy : PolicyObject) : Prop :=
  ∀ cached, cache.get policy.ref = some cached → compilePolicy regExp policy.content = .ok cached

/-- What is cached came from a call: it is the compiled form of the document that call brought. -/
theorem cached_compiled {regExp : RegExpEngine} (calls : List (Intent × PolicyObject)) {ref : Nat}
    {compiled : CompiledPolicy} (h : (cacheAfter regExp calls).get ref = some compiled) :
    ∃ call ∈ calls, call.2.ref = ref ∧ compilePolicy regExp call.2.content = .ok compiled := by
  induction calls using List.reverseRecOn with
  | nil => cases h
  | append_singleton calls call ih =>
      have earlier (h : (cacheAfter regExp calls).get ref = some compiled) :
          ∃ c ∈ calls ++ [call], c.2.ref = ref ∧
            compilePolicy regExp c.2.content = .ok compiled := by
        obtain ⟨c, hc, hrest⟩ := ih h
        exact ⟨c, List.mem_append_left _ hc, hrest⟩
      simp only [cacheAfter, List.foldl_append, List.foldl_cons, List.foldl_nil] at h earlier
      simp only [evaluateCached, compileCached] at h
      split at h
      · exact earlier h
      · split at h
        · rename_i fresh hfresh
          by_cases href : call.2.ref = ref
          · rw [href, OrderedMap.get_set_self] at h
            obtain rfl := Option.some.inj h
            exact ⟨call, List.mem_append_right _ (List.mem_singleton_self _), href, hfresh⟩
          · rw [OrderedMap.get_set_ne _ href] at h
            exact earlier h
        · exact earlier h

theorem Unchanged.upToDate (regExp : RegExpEngine) {calls : List (Intent × PolicyObject)}
    {policy : PolicyObject} (h : Unchanged calls policy) :
    (cacheAfter regExp calls).UpToDate regExp policy := by
  intro cached hcached
  obtain ⟨call, hcall, href, hcompiled⟩ := cached_compiled calls hcached
  rw [← h call hcall href, hcompiled]

theorem evaluateCached_eq {regExp : RegExpEngine} {cache : CompilationCache}
    {policy : PolicyObject} (h : cache.UpToDate regExp policy) (intent : Intent) :
    (evaluateCached regExp cache intent policy).1 = evaluate regExp intent policy.content := by
  have heval : evaluate regExp intent policy.content =
      (compilePolicy regExp policy.content).map (evaluateCompiled intent) := by
    unfold evaluate
    cases compilePolicy regExp policy.content <;> rfl
  simp only [evaluateCached, compileCached, heval]
  split
  · rename_i cached hcached
    rw [h cached hcached]
  · cases compilePolicy regExp policy.content <;> rfl

end MapProtocol
