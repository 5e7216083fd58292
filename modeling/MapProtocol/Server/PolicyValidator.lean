import MapProtocol.Core.ConditionGrammar
import MapProtocol.Server.PolicyRoutes

/-!
# What the policy check promises the evaluator

`validatePolicyDocument` hands its argument on as a `PolicyDocument`. `evaluate` takes a document that
has a member `_source` for a compiled one, compiles any other, and gives a condition that it does not
recognise the meaning of `never`. So an accepted document is evaluated as it was checked exactly if it
has no such member, its capability patterns compile, and each of its conditions, at every depth, is one
operator with the operands that the operator reads (`validator_sound_iff`).
-/

namespace MapProtocol

open Js

namespace PolicyRoutes

variable {policy : PolicyDocument} {rule : PolicyRule}

/-! ## Evaluating the document itself -/

/-- A rule, as `compileRule` reads it from a document that was checked. -/
def readRule (rule : JsValue) : PolicyRule :=
  ⟨(rule.property "id").asString.getD "", (rule.property "capability").asString.getD "",
    rule.property "condition", readAction (rule.property "action")⟩

/-- The document, as `compilePolicy` reads it. -/
def readDocument (parsed : JsValue) : PolicyDocument :=
  let rules := match parsed.property "rules" with
    | .arr rules => rules
    | _          => []
  ⟨rules.map readRule, readDefaultAction (parsed.property "default_action")⟩

/-- What `evaluateCompiled` runs on: a compiled policy, or the document itself in place of one. -/
inductive Evaluable where
  | compiled (policy : CompiledPolicy)
  | taken (document : JsValue)

/-- `"_source" in p`. -/
def isCompiledPolicy : JsValue → Bool
  | .obj es => JsObject.has es "_source"
  | _       => false

def toEvaluable (regExp : RegExpEngine) (parsed : JsValue) : Except String Evaluable :=
  if isCompiledPolicy parsed then .ok (.taken parsed)
  else (compilePolicy regExp (readDocument parsed)).map .compiled

/-- `matchesCapabilityCompiled` with a matcher that is any JSON value. A string has a `matchAll`, and no
JSON value has a `test` that can be called. -/
def matchesTaken (capability : String) : JsValue → Except String Bool
  | .undefined => .error "Cannot read properties of undefined (reading 'matchAll')"
  | .null      => .error "Cannot read properties of null (reading 'matchAll')"
  | .str _     => .ok true
  | matcher    =>
      if (matcher.property "matchAll").truthy then .ok true
      else match matcher.property "exact" with
        | .null => .error "matcher.regex.test is not a function"
        | exact => .ok (exact.strictEquals (.str capability))

/-- The loop over rules that were never compiled. -/
def evaluateTaken (intent : Intent) (defaultAction : PolicyAction) :
    List JsValue → Except String PolicyDecision
  | []            => .ok (evaluateCompiled intent ⟨[], defaultAction⟩)
  | rule :: rules => do
      let isMatch ← matchesTaken intent.capability (rule.property "capabilityMatcher")
      throwIf isMatch "rule.condition.evaluate is not a function"
      evaluateTaken intent defaultAction rules

/-- `evaluate(intent, document)`. -/
def evaluateParsed (regExp : RegExpEngine) (intent : Intent) (parsed : JsValue) :
    Except String PolicyDecision := do
  match ← toEvaluable regExp parsed with
  | .compiled policy => return evaluateCompiled intent policy
  | .taken document  =>
      match document.property "rules" with
      | .arr rules =>
          evaluateTaken intent (readAction (document.property "defaultAction")) rules
      | _          => throw "compiled.rules is not iterable"

/-! ## What was checked is what is read -/

theorem nonEmptyString_eq_some {v : JsValue} {s : String} (h : nonEmptyString v = some s) :
    v.asString = some s := by
  cases v <;> simp [nonEmptyString] at h
  rw [← h.2]
  rfl

theorem checkRule_read {i : Nat} {rule : JsValue} {checked : PolicyRule}
    (h : checkRule i rule = .ok checked) : checked = readRule rule := by
  unfold checkRule at h
  simp only [bind_eq_ok] at h
  obtain ⟨_, _, h⟩ := h
  split at h
  · exact absurd h throw_ne_ok
  · rename_i id hid
    split at h
    · exact absurd h throw_ne_ok
    · rename_i capability hcapability
      simp only [bind_eq_ok, pure_eq_ok] at h
      obtain ⟨_, _, _, _, rfl⟩ := h
      rw [readRule, nonEmptyString_eq_some hid, nonEmptyString_eq_some hcapability]
      rfl

theorem checkRules_read {i : Nat} {rules : List JsValue} {checked : List PolicyRule}
    (h : checkRules i rules = .ok checked) : checked = rules.map readRule := by
  induction rules generalizing i checked with
  | nil => exact (pure_eq_ok.mp h).symm
  | cons rule rules ih =>
      simp only [checkRules, bind_eq_ok, pure_eq_ok] at h
      obtain ⟨first, hfirst, rest, hrest, rfl⟩ := h
      rw [checkRule_read hfirst, ih hrest, List.map_cons]

/-- **The rules that are compiled are the rules that were checked.** -/
theorem accepted_read {parsed : JsValue} (h : validatePolicyDocument parsed = .ok policy) :
    readDocument parsed = policy := by
  unfold validatePolicyDocument at h
  simp only [bind_eq_ok] at h
  obtain ⟨_, _, _, _, h⟩ := h
  split at h
  · rename_i rules hrules
    simp only [bind_eq_ok, pure_eq_ok] at h
    obtain ⟨checked, hchecked, rfl⟩ := h
    rw [readDocument, hrules, checkRules_read hchecked]
  · exact absurd h throw_ne_ok

/-! ## Soundness -/

/-- The value writes a condition of the grammar, and it is compiled to a test of that condition. -/
def Interpreted (v : JsValue) : Prop :=
  ∃ c : Condition, c.readable = true ∧ c.toJs = v ∧
    ∃ e, compileCondition v = .ok e ∧ c.Tests e

/-- **What a check promises that is sound for the evaluator.** -/
structure Sound (regExp : RegExpEngine) (parsed : JsValue) (policy : PolicyDocument) : Prop where
  grammar  : ∀ rule ∈ policy.rules, Interpreted rule.condition
  compiled : ∃ compiled, compilePolicy regExp policy = .ok compiled ∧
    toEvaluable regExp parsed = .ok (.compiled compiled)
  decides  : ∀ intent, (validateIntent intent).valid = true →
    ∃ compiled, compilePolicy regExp policy = .ok compiled ∧
      evaluateParsed regExp intent parsed = .ok (evaluateCompiled intent compiled)

/-- The rule can be compiled for what it says. -/
def Compilable (regExp : RegExpEngine) (rule : PolicyRule) : Prop :=
  PatternCompiles regExp rule.capability ∧ (Condition.read rule.condition).isSome = true

theorem interpreted_iff {v : JsValue} : Interpreted v ↔ (Condition.read v).isSome = true := by
  rw [Condition.read_iff]
  constructor
  · rintro ⟨c, hreadable, hwrites, -⟩
    exact ⟨c, hreadable, hwrites⟩
  · rintro ⟨c, hreadable, rfl⟩
    exact ⟨c, hreadable, rfl, Condition.compile_toJs c⟩

theorem patternCompiles_of_compileRule {regExp : RegExpEngine} {compiled : CompiledRule}
    (h : compileRule regExp rule = .ok compiled) :
    PatternCompiles regExp rule.capability := by
  unfold compileRule at h
  simp only [bind_eq_ok] at h
  obtain ⟨matcher, hmatcher, -⟩ := h
  exact ⟨matcher, hmatcher⟩

theorem compileRule_of_compiles {regExp : RegExpEngine} (h : policy.Compiles regExp)
    (hrule : rule ∈ policy.rules) :
    ∃ compiled, compileRule regExp rule = .ok compiled := by
  obtain ⟨rules, hrules⟩ := PolicyDocument.compiles_iff.mp h
  generalize policy.rules = checked at hrule hrules
  induction hrules with
  | nil => cases hrule
  | cons hcompiled _ ih =>
      rcases List.mem_cons.mp hrule with rfl | hrule
      · exact ⟨_, hcompiled⟩
      · exact ih hrule

theorem compileRule_of_compilable {regExp : RegExpEngine} (h : Compilable regExp rule) :
    ∃ compiled, compileRule regExp rule = .ok compiled := by
  obtain ⟨⟨matcher, hmatcher⟩, hcondition⟩ := h
  obtain ⟨c, hreadable, hwrites, e, he, -⟩ := interpreted_iff.mpr hcondition
  refine ⟨⟨rule.id, rule.action, matcher, e⟩, ?_⟩
  simp [compileRule, hmatcher, he]

theorem compilable_iff {regExp : RegExpEngine} :
    (∀ rule ∈ policy.rules, Compilable regExp rule) ↔
      policy.Compiles regExp ∧ ∀ rule ∈ policy.rules, Interpreted rule.condition := by
  constructor
  · intro h
    exact ⟨PolicyDocument.compiles_of_forall fun rule hrule => compileRule_of_compilable (h rule hrule),
      fun rule hrule => interpreted_iff.mpr (h rule hrule).2⟩
  · rintro ⟨hcompiles, hgrammar⟩ rule hrule
    obtain ⟨compiled, hcompiled⟩ := compileRule_of_compiles hcompiles hrule
    exact ⟨patternCompiles_of_compileRule hcompiled, interpreted_iff.mp (hgrammar rule hrule)⟩

/-- **When the check is sound for the evaluator.** -/
theorem validator_sound_iff (regExp : RegExpEngine) {parsed : JsValue} {policy : PolicyDocument}
    (h : validatePolicyDocument parsed = .ok policy) :
    Sound regExp parsed policy ↔
      isCompiledPolicy parsed = false ∧ ∀ rule ∈ policy.rules, Compilable regExp rule := by
  have hread := accepted_read h
  rw [compilable_iff]
  constructor
  · rintro ⟨hgrammar, ⟨compiled, hcompiled, hevaluable⟩, -⟩
    refine ⟨?_, ⟨compiled, hcompiled⟩, hgrammar⟩
    unfold toEvaluable at hevaluable
    split at hevaluable
    · cases hevaluable
    · rename_i hplain
      simpa using hplain
  · rintro ⟨hplain, ⟨compiled, hcompiled⟩, hgrammar⟩
    have hevaluable : toEvaluable regExp parsed = .ok (.compiled compiled) := by
      unfold toEvaluable
      rw [hplain, hread, hcompiled]
      rfl
    refine ⟨hgrammar, ⟨compiled, hcompiled, hevaluable⟩, fun intent _ => ⟨compiled, hcompiled, ?_⟩⟩
    unfold evaluateParsed
    rw [hevaluable]
    rfl

/-! ## Sample documents -/

/-- A document with one rule, which denies, and further members. -/
def denying (capability : String) (condition : JsValue) (others : JsObject) : JsValue :=
  .obj ([("version", .str "1.0"), ("rules", .arr [.obj [("id", .str "r1"),
    ("capability", .str capability), ("condition", condition), ("action", .str "deny")]])] ++ others)

/-- The engine refuses every expression that is not made from a plain pattern. -/
def sampleEngine : RegExpEngine := regExp fun _ => .error "Invalid regular expression"

def deniesProduction : JsValue := .obj [("eq", .arr [.str "input.env", .str "prod"])]

/-- A rule that denies what it names, as it is meant. -/
theorem validator_sound_sample : Sound sampleEngine (denying "*" deniesProduction [])
    ⟨[⟨"r1", "*", deniesProduction, .deny⟩], none⟩ := by
  refine (validator_sound_iff sampleEngine rfl).mpr ⟨rfl, ?_⟩
  simp only [List.forall_mem_singleton]
  exact ⟨⟨.matchAll, rfl⟩, rfl⟩

/-- An operator that the compiler does not know. -/
def unknownOperator : JsValue := .obj [("equals", .arr [.str "input.amount", .num 5000])]

/-- The document is accepted as the policy, and this is not sound. -/
def Unsound (parsed : JsValue) (policy : PolicyDocument) : Prop :=
  validatePolicyDocument parsed = .ok policy ∧ ¬ Sound sampleEngine parsed policy

/-- A rule that denies every capability under an unknown operator leaves the intent to the default; a
document with a member `_source` is not compiled; and a pattern that opens a group cannot be. -/
theorem validator_unsound :
    (Unsound (denying "*" unknownOperator [("default_action", .str "allow")])
        ⟨[⟨"r1", "*", unknownOperator, .deny⟩], some .allow⟩ ∧
      evaluateParsed sampleEngine Document.samplePayment
        (denying "*" unknownOperator [("default_action", .str "allow")]) =
          .ok ⟨.allow, "Default allow - no rules matched", none⟩) ∧
    Unsound (denying "*" deniesProduction [("_source", .null)])
      ⟨[⟨"r1", "*", deniesProduction, .deny⟩], none⟩ ∧
    Unsound (denying "(*" deniesProduction []) ⟨[⟨"r1", "(*", deniesProduction, .deny⟩], none⟩ := by
  refine ⟨⟨⟨rfl, fun h => ?_⟩, rfl⟩, ⟨rfl, fun h => ?_⟩, ⟨rfl, fun h => ?_⟩⟩
  · have hread := interpreted_iff.mp (h.grammar _ List.mem_cons_self)
    exact absurd hread (by decide)
  · obtain ⟨compiled, -, hevaluable⟩ := h.compiled
    cases hevaluable
  · obtain ⟨compiled, hcompiled, -⟩ := h.compiled
    cases hcompiled

end PolicyRoutes

end MapProtocol
