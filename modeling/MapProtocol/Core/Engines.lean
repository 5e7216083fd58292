import MapProtocol.Core.Execute

/-!
# Where the two policy engines agree

Both engines find out by the same names what a condition object is, but in another order: the first
one asks for `always`, `never` and a single comparison before it asks for `and`, `or`, `not` and
`$field`; the second one asks for `$field` first, for comparisons last, and knows no `always`. As long
as each condition that is evaluated is the same to both, they differ in the default only.
-/

namespace MapProtocol

open Js

variable {intent : Intent}

/-! ## Kinds of conditions -/

/-- What a condition object is to an engine; `never` is also what it knows nothing about. -/
inductive ConditionKind where
  | always
  | never
  | comparison (op : String)
  | and
  | or
  | not
  | field
  deriving DecidableEq

/-- The tests of `compileCondition`. -/
def compiledKind (condition : JsObject) : ConditionKind :=
  if (condition.get "always").strictEquals (.bool true) then .always
  else if (condition.get "never").strictEquals (.bool true) then .never
  else match comparisonOperator condition with
    | some op => .comparison op
    | none =>
        if condition.has "and" then .and
        else if condition.has "or" then .or
        else if condition.has "not" then .not
        else if condition.has "$field" then .field
        else .never

theorem compileObject_eq (condition : JsObject) (compiled : List (String × CompiledValue)) :
    compileObject condition compiled =
      let operand (key : String) : CompiledValue :=
        (OrderedMap.getEntries key compiled).getD ⟨notACondition, notAnArray⟩
      match compiledKind condition with
      | .always        => .ok fun _ => true
      | .never         => .ok fun _ => false
      | .comparison op => compileComparison op (condition.get op)
      | .and           => (operand "and").elements.map fun cs intent => cs.all fun c => c intent
      | .or            => (operand "or").elements.map fun cs intent => cs.any fun c => c intent
      | .not           => (operand "not").condition.map fun c intent => !c intent
      | .field         => (splitPath (condition.get "$field")).map fun parts intent =>
          (getFieldValueFromParts parts intent).truthy := by
  unfold compileObject compiledKind
  dsimp only
  split
  · rfl
  split
  · rfl
  cases comparisonOperator condition with
  | some op => rfl
  | none =>
      dsimp only
      split
      · rfl
      split
      · rfl
      split
      · rfl
      split <;> rfl

namespace Execute

variable {regExp : RegExpEngine} {intent : Intent}

/-- The tests of `evaluateCondition`. -/
def evaluatedKind (condition : JsObject) : ConditionKind :=
  if condition.has "$field" then .field
  else if condition.has "and" then .and
  else if condition.has "or" then .or
  else if condition.has "not" then .not
  else match comparisonOperators.find? condition.has with
    | some op => .comparison op
    | none    => .never

/-- `evaluateOp` on the operands of a comparison. -/
def evaluateOperands (intent : JsValue) (op : String) (operands : JsValue) : Except String Bool :=
  (compileComparison op operands).map fun e => e intent

theorem evaluateComparison_eq (intent : JsValue) (condition : JsObject) (ops : List String) :
    evaluateComparison intent condition ops =
      match ops.find? condition.has with
      | some op => evaluateOperands intent op (condition.get op)
      | none    => .ok false := by
  induction ops with
  | nil => rfl
  | cons op ops ih =>
      rw [evaluateComparison]
      cases hop : condition.has op with
      | false => simpa [hop] using ih
      | true =>
          rw [if_pos rfl, List.find?_cons_of_pos hop]
          show _ = Except.map (fun e => e intent) (compileComparison op (condition.get op))
          unfold compileComparison
          -- both halves read the pair and the path alike, and throw alike
          cases destructurePair (condition.get op) with
          | error message => rfl
          | ok operands =>
              obtain ⟨leftPath, rightValue⟩ := operands
              show (splitPath leftPath >>= _) = Except.map _ (splitPath leftPath >>= _)
              cases splitPath leftPath <;> rfl

theorem evaluateObject_eq (intent : JsValue) (condition : JsObject)
    (evaluated : List (String × EvaluatedValue)) :
    evaluateObject intent condition evaluated =
      let operand (key : String) : EvaluatedValue :=
        (OrderedMap.getEntries key evaluated).getD ⟨.ok false, notEvery, notSome⟩
      match evaluatedKind condition with
      | .always        => .ok true
      | .never         => .ok false
      | .comparison op => evaluateOperands intent op (condition.get op)
      | .and           => (operand "and").every
      | .or            => (operand "or").some
      | .not           => (operand "not").condition.map not
      | .field         => (splitPath (condition.get "$field")).map fun parts =>
          (getFieldValueFromParts parts intent).truthy := by
  unfold evaluateObject evaluatedKind
  dsimp only
  split
  · rfl
  split
  · rfl
  split
  · rfl
  split
  · rfl
  rw [evaluateComparison_eq]
  split <;> rfl

/-! ## Conditions that are the same to both

Anything may stand in a document, so the comparison follows the shape of the raw condition. Operands
that are not evaluated are not asked about. -/

/-- Is a value, with what is evaluated of it, the same to both engines: as a condition, and as the
operand of `and` and of `or`? -/
structure ComparedValue where
  condition : Bool
  every     : Bool
  some      : Bool

def compareObject (condition : JsObject) (compared : List (String × ComparedValue)) : Bool :=
  let operand (key : String) : ComparedValue :=
    (OrderedMap.getEntries key compared).getD ⟨true, true, true⟩
  decide (compiledKind condition = evaluatedKind condition) &&
    match compiledKind condition with
    | .and => (operand "and").every
    | .or  => (operand "or").some
    | .not => (operand "not").condition
    | _    => true

section

variable (intent : JsValue)

mutual

def compareValue : JsValue → ComparedValue
  | .obj es => ⟨compareObject es (compareEntries es), true, true⟩
  | .arr xs => ⟨true, compareEvery xs, compareSome xs⟩
  | _       => ⟨true, true, true⟩

/-- The elements up to the first that does not hold. -/
def compareEvery : List JsValue → Bool
  | []      => true
  | v :: vs => (compareValue v).condition &&
      match (evaluateValue intent v).condition with
      | .ok false => true
      | _         => compareEvery vs

/-- The elements up to the first that holds. -/
def compareSome : List JsValue → Bool
  | []      => true
  | v :: vs => (compareValue v).condition &&
      match (evaluateValue intent v).condition with
      | .ok true => true
      | _        => compareSome vs

def compareEntries : List (String × JsValue) → List (String × ComparedValue)
  | []           => []
  | (k, v) :: es => (k, compareValue v) :: compareEntries es

end

end

/-- Each condition that is evaluated is the same to both engines. -/
def ReadsAlike (condition intent : JsValue) : Prop :=
  (compareValue intent condition).condition = true

instance (condition intent : JsValue) : Decidable (ReadsAlike condition intent) :=
  inferInstanceAs (Decidable (_ = true))

/-- Where a value is the same to both, what is compiled from it tests what it is evaluated to. -/
structure Tested (intent : JsValue) (compiled : CompiledValue) (compared : ComparedValue)
    (evaluated : EvaluatedValue) : Prop where
  condition : ∀ e, compiled.condition = .ok e → compared.condition = true →
    evaluated.condition = .ok (e intent)
  every     : ∀ es, compiled.elements = .ok es → compared.every = true →
    evaluated.every = .ok (es.all fun e => e intent)
  some      : ∀ es, compiled.elements = .ok es → compared.some = true →
    evaluated.some = .ok (es.any fun e => e intent)

theorem tested_object {intent : JsValue} {condition : JsObject}
    {compiled : List (String × CompiledValue)} {compared : List (String × ComparedValue)}
    {evaluated : List (String × EvaluatedValue)}
    (hoperands : ∀ key, Tested intent
      ((OrderedMap.getEntries key compiled).getD ⟨notACondition, notAnArray⟩)
      ((OrderedMap.getEntries key compared).getD ⟨true, true, true⟩)
      ((OrderedMap.getEntries key evaluated).getD ⟨.ok false, notEvery, notSome⟩))
    {e : Evaluator} (hcompiled : compileObject condition compiled = .ok e)
    (halike : compareObject condition compared = true) :
    evaluateObject intent condition evaluated = .ok (e intent) := by
  obtain ⟨hkind, hoperand⟩ := Bool.and_eq_true_iff.mp halike
  have hkind := of_decide_eq_true hkind
  rw [compileObject_eq] at hcompiled
  rw [evaluateObject_eq, ← hkind]
  cases h : compiledKind condition with
  | always =>
      rw [h] at hcompiled
      obtain rfl := Except.ok.inj hcompiled
      rfl
  | never =>
      rw [h] at hcompiled
      obtain rfl := Except.ok.inj hcompiled
      rfl
  | comparison op =>
      rw [h] at hcompiled
      simp only [evaluateOperands]
      simp only at hcompiled
      rw [hcompiled]
      rfl
  | and =>
      rw [h] at hcompiled hoperand
      obtain ⟨es, hes, rfl⟩ := map_eq_ok.mp hcompiled
      exact (hoperands "and").every es hes hoperand
  | or =>
      rw [h] at hcompiled hoperand
      obtain ⟨es, hes, rfl⟩ := map_eq_ok.mp hcompiled
      exact (hoperands "or").some es hes hoperand
  | not =>
      rw [h] at hcompiled hoperand
      obtain ⟨c, hc, rfl⟩ := map_eq_ok.mp hcompiled
      exact map_eq_ok.mpr ⟨_, (hoperands "not").condition c hc hoperand, rfl⟩
  | field =>
      rw [h] at hcompiled
      obtain ⟨parts, hparts, rfl⟩ := map_eq_ok.mp hcompiled
      exact map_eq_ok.mpr ⟨parts, hparts, rfl⟩

mutual

theorem tested_value (intent : JsValue) : ∀ v,
    Tested intent (compileValue v) (compareValue intent v) (evaluateValue intent v)
  | .obj es      => ⟨fun _ => tested_object (tested_entries intent es), nofun, nofun⟩
  | .arr xs      =>
      ⟨fun _ hcompiled _ => by cases hcompiled; rfl, tested_every intent xs, tested_some intent xs⟩
  | .undefined   => ⟨nofun, nofun, nofun⟩
  | .null        => ⟨nofun, nofun, nofun⟩
  | .bool _      => ⟨nofun, nofun, nofun⟩
  | .num _       => ⟨nofun, nofun, nofun⟩
  | .str _       => ⟨nofun, nofun, nofun⟩
  | .inherited _ => ⟨nofun, nofun, nofun⟩

theorem tested_every (intent : JsValue) : ∀ vs es, compileElements vs = .ok es →
    compareEvery intent vs = true → everyElement intent vs = .ok (es.all fun e => e intent)
  | [], es, hcompiled, _            => by
      cases hcompiled
      rfl
  | v :: vs, es, hcompiled, halike => by
      obtain ⟨c, hc, hrest⟩ := bind_eq_ok.mp hcompiled
      obtain ⟨cs, hcs, hes⟩ := bind_eq_ok.mp hrest
      obtain rfl := pure_eq_ok.mp hes
      obtain ⟨hv, hvs⟩ := Bool.and_eq_true_iff.mp halike
      have hfirst := (tested_value intent v).condition c hc hv
      rw [hfirst] at hvs
      rw [everyElement, hfirst, List.all_cons]
      cases hholds : c intent with
      | false => rfl
      | true =>
          rw [hholds] at hvs
          exact tested_every intent vs cs hcs hvs

theorem tested_some (intent : JsValue) : ∀ vs es, compileElements vs = .ok es →
    compareSome intent vs = true → someElement intent vs = .ok (es.any fun e => e intent)
  | [], es, hcompiled, _            => by
      cases hcompiled
      rfl
  | v :: vs, es, hcompiled, halike => by
      obtain ⟨c, hc, hrest⟩ := bind_eq_ok.mp hcompiled
      obtain ⟨cs, hcs, hes⟩ := bind_eq_ok.mp hrest
      obtain rfl := pure_eq_ok.mp hes
      obtain ⟨hv, hvs⟩ := Bool.and_eq_true_iff.mp halike
      have hfirst := (tested_value intent v).condition c hc hv
      rw [hfirst] at hvs
      rw [someElement, hfirst, List.any_cons]
      cases hholds : c intent with
      | true => rfl
      | false =>
          rw [hholds] at hvs
          exact tested_some intent vs cs hcs hvs

theorem tested_entries (intent : JsValue) : ∀ (es : List (String × JsValue)) key, Tested intent
    ((OrderedMap.getEntries key (compileEntries es)).getD ⟨notACondition, notAnArray⟩)
    ((OrderedMap.getEntries key (compareEntries intent es)).getD ⟨true, true, true⟩)
    ((OrderedMap.getEntries key (evaluateEntries intent es)).getD ⟨.ok false, notEvery, notSome⟩)
  | [], _             => ⟨nofun, nofun, nofun⟩
  | (k, v) :: es, key => by
      rw [compileEntries, compareEntries, evaluateEntries]
      unfold OrderedMap.getEntries
      split
      · exact tested_value intent v
      · exact tested_entries intent es key

end

/-! ## Patterns -/

theorem matchesCapability_ok {pattern : String} (h : PatternCompiles regExp pattern)
    (capability : String) :
    ∃ b, matchesCapability regExp capability pattern = .ok b := by
  obtain ⟨matcher, hmatcher⟩ := h
  unfold matchesCapability
  unfold compileCapabilityMatcher at hmatcher
  split
  · exact ⟨_, rfl⟩
  · split
    · exact ⟨_, rfl⟩
    · split
      · rename_i hall _ hstar
        rw [if_neg hall, if_neg (by simp [hstar])] at hmatcher
        obtain ⟨test, htest, -⟩ := map_eq_ok.mp hmatcher
        exact ⟨_, by rw [htest]; rfl⟩
      · exact ⟨_, rfl⟩

/-- On a capability without a star both engines test a pattern alike. -/
theorem matchesCapability_iff {pattern capability : String} {b : Bool}
    (hcompiles : PatternCompiles regExp pattern) (hstar : '*' ∉ capability.toList)
    (h : matchesCapability regExp capability pattern = .ok b) :
    b = true ↔ PatternAccepts regExp pattern capability := by
  obtain ⟨matcher, hmatcher⟩ := hcompiles
  have haccepts : PatternAccepts regExp pattern capability ↔
      matcher.matchesCapability capability = true := by
    simp [PatternAccepts, hmatcher]
  rw [haccepts]
  unfold compileCapabilityMatcher at hmatcher
  unfold matchesCapability at h
  by_cases hall : pattern = "*"
  · rw [if_pos hall] at hmatcher h
    obtain rfl := Except.ok.inj hmatcher
    obtain rfl := Except.ok.inj h
    simp [CapabilityMatcher.matchesCapability]
  rw [if_neg hall] at hmatcher h
  by_cases hincludes : includes pattern "*" = true
  -- a pattern with a star is no capability, so the equality test before it fails
  · have hne : pattern ≠ capability := by
      rintro rfl
      exact hstar (includes_star.mp hincludes)
    rw [if_neg (by simp [hincludes])] at hmatcher
    rw [if_neg hne, if_pos hincludes] at h
    obtain ⟨test, htest, rfl⟩ := map_eq_ok.mp hmatcher
    rw [htest] at h
    obtain rfl := Except.ok.inj h
    exact Iff.rfl
  · rw [if_pos (by simp [hincludes])] at hmatcher
    rw [if_neg hincludes] at h
    obtain rfl := Except.ok.inj hmatcher
    split at h
    · rename_i heq
      obtain rfl := Except.ok.inj h
      simp [CapabilityMatcher.matchesCapability, heq]
    · rename_i hne
      obtain rfl := Except.ok.inj h
      simp [CapabilityMatcher.matchesCapability, hne]

/-! ## Rules

One engine compiles all patterns first, the other matches them as it goes. -/

/-- The condition of the rule reads alike where it is evaluated. -/
def RuleReadsAlike (regExp : RegExpEngine) (intent : Intent) (rule : PolicyRule) : Prop :=
  PatternAccepts regExp rule.capability intent.capability → ReadsAlike rule.condition intent.toJs

def decides (regExp : RegExpEngine) (intent : Intent) (rule : PolicyRule) : Except String Bool := do
  let matched ← matchesCapability regExp intent.capability rule.capability
  if matched then evaluateCondition rule.condition intent.toJs else return false

/-- The first rule that is not passed over throws. -/
def Throws (regExp : RegExpEngine) (intent : Intent) (rules : List PolicyRule) : Prop :=
  ∃ rule message, FirstMatch (fun rule => decides regExp intent rule ≠ .ok false) rules (some rule) ∧
    decides regExp intent rule = .error message

/-- The action the second engine comes to by a rule, or without one. -/
def actionOf : Option PolicyRule → PolicyAction
  | some rule => rule.action
  | none      => .allow

theorem evaluateRules_cons (regExp : RegExpEngine) (intent : Intent) (rule : PolicyRule)
    (rules : List PolicyRule) :
    evaluateRules regExp intent (rule :: rules) =
      match decides regExp intent rule with
      | .error message => .error message
      | .ok true       => .ok ⟨rule.action, "Rule: " ++ rule.id⟩
      | .ok false      => evaluateRules regExp intent rules := by
  rw [evaluateRules, decides]
  cases matchesCapability regExp intent.capability rule.capability with
  | error message => rfl
  | ok matched =>
      cases matched with
      | false => rfl
      | true =>
          show (evaluateCondition rule.condition intent.toJs >>= _) = _
          cases evaluateCondition rule.condition intent.toJs with
          | error message => rfl
          | ok holds => cases holds <;> rfl

theorem evaluateRules_error_iff {rules : List PolicyRule} :
    (∃ message, evaluateRules regExp intent rules = .error message) ↔
      Throws regExp intent rules := by
  induction rules with
  | nil =>
      refine iff_of_false (fun h => ?_) fun h => ?_
      · obtain ⟨message, h⟩ := h
        cases h
      · obtain ⟨rule, message, hfirst, -⟩ := h
        cases hfirst
  | cons rule rules ih =>
      simp only [evaluateRules_cons, Throws, FirstMatch.cons_some_iff]
      cases hdecides : decides regExp intent rule with
      | error message =>
          refine iff_of_true ⟨message, rfl⟩ ⟨rule, message, .inl ⟨?_, rfl⟩, hdecides⟩
          exact nofun
      | ok holds =>
          cases holds with
          | false => simpa [Throws] using ih
          | true => simp [hdecides]

/-- The rule decides in the one engine if it does in the other. -/
theorem decides_eq {rule : PolicyRule} {compiled : CompiledRule}
    (hcompiled : compileRule regExp rule = .ok compiled) (hstar : '*' ∉ intent.capability.toList)
    (halike : RuleReadsAlike regExp intent rule) :
    decides regExp intent rule = .ok (compiled.capabilityMatcher.matchesCapability intent.capability &&
      compiled.condition intent.toJs) := by
  obtain ⟨matcher, hmatcher, hrest⟩ := bind_eq_ok.mp hcompiled
  obtain ⟨condition, hcondition, hrule⟩ := bind_eq_ok.mp hrest
  obtain rfl := pure_eq_ok.mp hrule
  obtain ⟨matched, hmatched⟩ := matchesCapability_ok ⟨matcher, hmatcher⟩ intent.capability
  have haccepts := matchesCapability_iff ⟨matcher, hmatcher⟩ hstar hmatched
  have hsame : matched = matcher.matchesCapability intent.capability := by
    rw [Bool.eq_iff_iff, haccepts]
    simp [PatternAccepts, hmatcher]
  rw [decides, hmatched]
  cases matched with
  | false =>
      dsimp only
      -- a rule that does not match is not tested by either engine
      rw [← hsame]
      rfl
  | true =>
      dsimp only
      rw [← hsame, Bool.true_and]
      exact (tested_value intent.toJs rule.condition).condition condition hcondition
        (halike (haccepts.mp rfl))

/-- Where the rules that are met read alike, the first one that matches decides here too. -/
theorem evaluateRules_matches {regExp : RegExpEngine} {intent : Intent} {rules : List PolicyRule}
    {compiledRules : List CompiledRule}
    (hcompiles : List.Forall₂ (fun rule compiled => compileRule regExp rule = .ok compiled)
      rules compiledRules) (hstar : '*' ∉ intent.capability.toList)
    (halike : UpToFirst (PolicyRule.Matches regExp intent) (RuleReadsAlike regExp intent) rules)
    {first : Option PolicyRule} (hfirst : FirstMatch (PolicyRule.Matches regExp intent) rules first) :
    ∃ decision, evaluateRules regExp intent rules = .ok decision ∧
      decision.action = actionOf first := by
  induction hcompiles with
  | nil =>
      cases hfirst
      exact ⟨_, rfl, rfl⟩
  | @cons rule compiled rules _ hcompiled _ ih =>
      obtain ⟨hrule, hrules⟩ := halike
      have hmatches : PolicyRule.Matches regExp intent rule ↔
          (compiled.capabilityMatcher.matchesCapability intent.capability &&
            compiled.condition intent.toJs) = true := by
        simp [PolicyRule.Matches, hcompiled]
      rw [evaluateRules_cons, decides_eq hcompiled hstar hrule]
      cases hfirst with
      | here hhere =>
          rw [hmatches.mp hhere]
          exact ⟨_, rfl, rfl⟩
      | later hnot hlater =>
          rw [Bool.eq_false_iff.mpr (mt hmatches.mpr hnot)]
          exact ih (hrules hnot) hlater

/-! ## Decisions -/

/-- The decision that `execute` acts on, where it comes to one. -/
def decision (regExp : RegExpEngine) (policy : PolicyDocument) (intent : Intent) : Option Gate :=
  match evaluatePolicy regExp (normalizeIntent intent) policy with
  | .ok decision => some decision.action.gate
  | .error _     => none

theorem runAdapter_executed (executor : Executor) (now : Nat) (generatedId : String)
    (intent : Intent) :
    (runAdapter executor.adapters now generatedId intent).executed =
      (executor.executeNormalizedIntent generatedId intent).executed := by
  unfold runAdapter Executor.executeNormalizedIntent
  cases executor.adapters.get intent.capability with
  | none => rfl
  | some adapter =>
      cases hinput : (adapter.validate intent.input).valid <;> simp [hinput, Invocation.executed]

theorem execute_executed (executor : Executor) (regExp : RegExpEngine) (now : Nat)
    (generatedId : String) (intent : Intent) :
    (execute regExp executor.adapters now generatedId executor.policy intent).executed =
      if decision regExp executor.policy intent = some .passed then
        (executor.executeNormalizedIntent generatedId (normalizeIntent intent)).executed
      else none := by
  unfold execute decision
  cases heval : evaluatePolicy regExp (normalizeIntent intent) executor.policy with
  | error message => simp [heval, Invocation.executed]
  | ok decision =>
      have hrun := runAdapter_executed executor now generatedId (normalizeIntent intent)
      cases haction : decision.action with
      | deny => simp [heval, haction, PolicyAction.gate, Invocation.executed]
      | requireApproval => simp [heval, haction, PolicyAction.gate, Invocation.executed]
      | allow => simpa [heval, haction, PolicyAction.gate] using hrun
      | other text => simpa [heval, haction, PolicyAction.gate] using hrun

end Execute

/-! ## Agreement -/

/-- Both engines take the same decision, and the same reaches the adapter through either. -/
def EnginesAgree (regExp : RegExpEngine) (policy : PolicyDocument) (intent : Intent) : Prop :=
  Execute.decision regExp policy intent = Executor.decision regExp policy intent ∧
    ∀ (executor : Executor) (now : Nat) (generatedId : String), executor.policy = policy →
      (Execute.execute regExp executor.adapters now generatedId policy intent).executed =
        (executor.execute regExp now generatedId intent).executed

theorem enginesAgree_iff {regExp : RegExpEngine} {policy : PolicyDocument} :
    EnginesAgree regExp policy intent ↔
      Execute.decision regExp policy intent = Executor.decision regExp policy intent := by
  refine ⟨And.left, fun h => ⟨h, fun executor now generatedId hpolicy => ?_⟩⟩
  subst hpolicy
  rw [Execute.execute_executed, Executor.execute_executed, h]

theorem no_star_of_valid (h : (validateIntent intent).valid = true) :
    '*' ∉ (normalizeIntent intent).capability.toList := by
  have hname := isCapabilityName_of_valid h
  intro hstar
  rw [normalizeIntent, normalize_capability hname] at hstar
  exact absurd (isCapabilityName_chars hname '*' hstar) (by decide)

theorem Executor.decision_eq_none {regExp : RegExpEngine} {policy : PolicyDocument}
    (h : ¬ ((validateIntent intent).valid = true ∧ policy.Compiles regExp)) :
    Executor.decision regExp policy intent = none := by
  unfold Executor.decision
  split
  · rename_i hvalid
    split
    · rename_i decision heval
      exact absurd ⟨hvalid, (PolicyDocument.compiles_iff_evaluate _).mpr ⟨decision, heval⟩⟩ h
    · rfl
  · rfl

/-- **The engines agree**, as long as each condition that is evaluated is the same to both, on the valid
intents that some rule decides, and on the others if the default is to allow. Where the first engine
comes to no decision, they agree if the second one throws. -/
theorem engines_agree (regExp : RegExpEngine) (policy : PolicyDocument) (intent : Intent)
    (halike : (validateIntent intent).valid = true → policy.Compiles regExp →
      UpToFirst (PolicyRule.Matches regExp (normalizeIntent intent))
        (Execute.RuleReadsAlike regExp (normalizeIntent intent)) policy.rules) :
    EnginesAgree regExp policy intent ↔
      ((validateIntent intent).valid = true ∧ policy.Compiles regExp) ∧
          ((∃ rule ∈ policy.rules, rule.Matches regExp (normalizeIntent intent)) ∨
            (policy.defaultAction.getD .deny).gate = .passed) ∨
        ¬ ((validateIntent intent).valid = true ∧ policy.Compiles regExp) ∧
          Execute.Throws regExp (normalizeIntent intent) policy.rules := by
  rw [enginesAgree_iff]
  by_cases h : (validateIntent intent).valid = true ∧ policy.Compiles regExp
  · obtain ⟨hvalid, hcompiles⟩ := id h
    obtain ⟨rules, hrules⟩ := PolicyDocument.compiles_iff.mp hcompiles
    obtain ⟨decision, first, heval, hfirst, haction⟩ :=
      PolicyDocument.evaluate_first hcompiles (normalizeIntent intent)
    obtain ⟨second, hsecond, hsame⟩ :=
      Execute.evaluateRules_matches hrules (no_star_of_valid hvalid)
        (halike hvalid hcompiles) hfirst
    -- both come to the same rule; what they make of it is its gate
    have hexecutor : Executor.decision regExp policy intent = some decision.action.gate := by
      simp [Executor.decision, hvalid, heval]
    have hexecute : Execute.decision regExp policy intent = some second.action.gate := by
      simp [Execute.decision, Execute.evaluatePolicy, hsecond]
    rw [hexecutor, hexecute, hsame, haction]
    simp only [h, true_and, not_true_eq_false, false_and, or_false]
    cases first with
    | some rule =>
        have hmatch : ∃ rule ∈ policy.rules, rule.Matches regExp (normalizeIntent intent) :=
          ⟨rule, hfirst.mem, hfirst.holds⟩
        simp [Execute.actionOf, PolicyDocument.actionOf, hmatch]
    | none =>
        have hnone := FirstMatch.none_iff.mp hfirst
        -- no rule matches: `execute.ts` allows, whatever the default
        have hno : ¬ ∃ rule ∈ policy.rules, rule.Matches regExp (normalizeIntent intent) := by
          rintro ⟨rule, hrule, hmatch⟩
          exact hnone rule hrule hmatch
        simp [Execute.actionOf, PolicyDocument.actionOf, hno, PolicyAction.gate, eq_comm]
  · rw [Executor.decision_eq_none h, ← Execute.evaluateRules_error_iff]
    simp only [h, false_and, not_false_eq_true, true_and, false_or]
    unfold Execute.decision Execute.evaluatePolicy
    cases Execute.evaluateRules regExp (normalizeIntent intent) policy.rules <;> simp

open Document (samplePayment)

/-- Payments need approval, and so would all else. -/
def sampleEveryone : PolicyDocument :=
  ⟨[⟨"payments", "payment.*", .obj [("or", .arr [
      .obj [("eq", .arr [.str "capability", .str "payment.execute"])],
      .obj [("always", .bool true)]])], .requireApproval⟩], none⟩

/-- Behind an operand that holds, `always` is not evaluated. -/
theorem engines_agree_sample :
    EnginesAgree (regExp fun _ => .error "") sampleEveryone samplePayment := by
  have hmatches : (sampleEveryone.rules[0]).Matches (regExp fun _ => .error "")
      (normalizeIntent samplePayment) := ⟨_, rfl, by decide⟩
  refine (engines_agree _ sampleEveryone samplePayment
    fun _ _ => ⟨fun _ => by decide, fun hnot => absurd hmatches hnot⟩).mpr
    (.inl ⟨⟨by decide, _, rfl⟩, .inl ⟨_, List.mem_cons_self, hmatches⟩⟩)

/-- A document without a rule denies in one engine and allows in the other. -/
theorem default_differs :
    ¬ EnginesAgree (regExp fun _ => .error "") ⟨[], none⟩ samplePayment := by
  rw [enginesAgree_iff]
  decide

end MapProtocol
