import MapProtocol.Lib.SortedSearch
import MapProtocol.Sdk.PolicyRules

/-!
# Rules of single tenants

The Python engine with the rules it loads from a configuration, among them those of single tenants.
A global rule is tested against its target before it is taken. The rules of a tenant are taken as
they are, so that the evaluation may end at one whose target is another request
(`targets_respected_iff`).
-/

namespace MapProtocol.Sdk

open Js Py

/-! ## Configurations -/

inductive ConditionConfig where
  | mk (operator : Option String) (field : Option String) (value : Option Value)
      (conditions : Option (List ConditionConfig))

/-- A target. The risk classes are the texts of the configuration. -/
structure RuleTarget where
  capability : Option String        := none
  agentId    : Option String        := none
  riskClass  : Option (List String) := none

structure RuleConfig where
  id        : Option String          := none
  name      : Option String          := none
  target    : Option RuleTarget      := none
  condition : Option ConditionConfig := none
  effect    : Option String          := none
  reason    : Option String          := none
  priority  : Option Int             := none

/-- A configuration: the rules for all tenants, and the rules of each tenant named. -/
structure RulesConfig where
  rules       : Option (List RuleConfig)                               := none
  tenantRules : Option (List (String × Option (List RuleConfig)))      := none

/-- A rule as the Python package holds it. -/
structure LoadedRule where
  id        : String
  name      : String
  target    : Option RuleTarget
  condition : Option PolicyCondition
  effect    : PolicyEffect
  reason    : Option String
  priority  : Int

namespace LoadedRule

/-- The rule without its target. -/
def untargeted (rule : LoadedRule) : PolicyRule where
  id        := rule.id
  name      := rule.name
  target    := {}
  condition := rule.condition
  effect    := rule.effect
  reason    := rule.reason
  priority  := rule.priority

def byPriority (a b : LoadedRule) : Bool := b.priority ≤ a.priority

theorem byPriority_trans (a b c : LoadedRule) (hab : byPriority a b = true)
    (hbc : byPriority b c = true) : byPriority a c = true := by
  simp only [byPriority, decide_eq_true_eq] at *
  omega

theorem byPriority_total (a b : LoadedRule) : (byPriority a b || byPriority b a) = true := by
  simp only [byPriority, Bool.or_eq_true, decide_eq_true_eq]
  omega

end LoadedRule

namespace Python

/-- What a condition is for its operator. One that no branch names is never met, like `any([])`. -/
def conditionOf (operator : String) (field : Option String) (value : Option Value)
    (conditions : Option (List PolicyCondition)) : PolicyCondition :=
  match operator with
  | "and"      => .and conditions
  | "or"       => .or conditions
  | "not"      => .not conditions
  | "eq"       => .comparison .eq field value
  | "neq"      => .comparison .neq field value
  | "gt"       => .comparison .gt field value
  | "lt"       => .comparison .lt field value
  | "gte"      => .comparison .gte field value
  | "lte"      => .comparison .lte field value
  | "in"       => .comparison .isIn field value
  | "contains" => .comparison .contains field value
  | _          => .or (some [])

mutual

/-- `_parse_condition_from_dict`, or `none` where it raises: an operator has to be there. -/
def parseCondition : ConditionConfig → Option PolicyCondition
  | .mk operator field value conditions => do
      let conditions ← parseOptional conditions
      return conditionOf (← operator) field value conditions

def parseOptional : Option (List ConditionConfig) → Option (Option (List PolicyCondition))
  | none            => some none
  | some conditions => (parseConditions conditions).map some

def parseConditions : List ConditionConfig → Option (List PolicyCondition)
  | []                      => some []
  | condition :: conditions => do
      let first ← parseCondition condition
      return first :: (← parseConditions conditions)

end

/-- `PolicyEffect(text)` -/
def parseEffect : String → Option PolicyEffect
  | "allow"            => some .allow
  | "deny"             => some .deny
  | "deny_with_reason" => some .denyWithReason
  | "challenge"        => some .challenge
  | _                  => none

/-- `_parse_rule_from_dict`, or `none` where it raises. -/
def parseRule (rule : RuleConfig) : Option LoadedRule := do
  let condition ← match rule.condition with
    | some condition => (parseCondition condition).map some
    | none           => some none
  return {
    id        := ← rule.id
    name      := ← rule.name
    target    := rule.target
    condition
    effect    := ← parseEffect (rule.effect.getD "allow")
    reason    := rule.reason
    priority  := rule.priority.getD 0 }

end Python

/-! ## The engine -/

/-- `PolicyContext`, with its tenant. -/
structure TenantContext extends PolicyContext where
  tenantId : Option String := none

/-- An engine with the rules of tenants: the rules for all, those of higher priority first. -/
structure TenantEngine where
  rules         : List LoadedRule
  tenantRules   : List (String × List LoadedRule)
  defaultEffect : PolicyEffect
  sorted        : rules.Pairwise fun a b => LoadedRule.byPriority a b = true

namespace TenantEngine

def empty (defaultEffect : PolicyEffect) : TenantEngine := ⟨[], [], defaultEffect, .nil⟩

def addRule (engine : TenantEngine) (rule : LoadedRule) : TenantEngine where
  rules := (engine.rules ++ [rule]).mergeSort LoadedRule.byPriority
  tenantRules := engine.tenantRules
  defaultEffect := engine.defaultEffect
  sorted := List.pairwise_mergeSort LoadedRule.byPriority_trans LoadedRule.byPriority_total _

def setTenantRules (engine : TenantEngine) (tenantId : String) (rules : List LoadedRule) :
    TenantEngine :=
  { engine with tenantRules := OrderedMap.setEntries tenantId rules engine.tenantRules }

/-- The loop over `config["rules"]`; `false` where it raises. -/
def loadRules (engine : TenantEngine) : List RuleConfig → TenantEngine × Bool
  | []            => (engine, true)
  | rule :: rules =>
      match Python.parseRule rule with
      | some rule => (engine.addRule rule).loadRules rules
      | none      => (engine, false)

/-- The loop over `config["tenant_rules"]`. -/
def loadTenants (engine : TenantEngine) :
    List (String × Option (List RuleConfig)) → TenantEngine × Bool
  | []                           => (engine, true)
  | (tenantId, rules) :: tenants =>
      match (rules.getD []).mapM Python.parseRule with
      | some rules => (engine.setTenantRules tenantId rules).loadTenants tenants
      | none       => (engine, false)

/-- `load_rules_from_config`, and whether it returns. What was loaded before it raises stays. -/
def loadRulesFromConfig (engine : TenantEngine) (config : RulesConfig) : TenantEngine × Bool :=
  match engine.loadRules (config.rules.getD []) with
  | (engine, true)  => engine.loadTenants (config.tenantRules.getD [])
  | (engine, false) => (engine, false)

/-- The rules that the engine holds for the tenant of the context. -/
def rulesOfTenant (engine : TenantEngine) (context : Option TenantContext) : List LoadedRule :=
  match context.bind fun context => given context.tenantId with
  | some tenantId => (OrderedMap.getEntries tenantId engine.tenantRules).getD []
  | none          => []

end TenantEngine

namespace Python

/-- `_rule_applies` -/
def targetMatches (envelope : Envelope) (rule : LoadedRule) : Bool :=
  match rule.target with
  | none        => true
  | some target =>
      let riskClass := target.riskClass.getD []
      if !riskClass.isEmpty && !riskClass.contains envelope.riskClass.text then false
      else if match given target.capability with
          | some capability => !(envelopeCapability envelope).equals (.str capability)
          | none            => false then false
      else match given target.agentId with
        | some agentId => agentId = envelope.targetAgent
        | none         => true

def getApplicableRules (engine : TenantEngine) (envelope : Envelope)
    (context : Option TenantContext) : List LoadedRule :=
  -- the targets of the tenant's rules are not looked at
  (engine.rulesOfTenant context ++ engine.rules.filter (targetMatches envelope)).mergeSort
    LoadedRule.byPriority

/-- What becomes of a rule's condition: `none` where it raises. -/
def conditionMet (foreignDigit : Char → Option Nat) (envelope : Envelope)
    (context : Option TenantContext) (rule : LoadedRule) : Option Bool :=
  fires foreignDigit envelope (context.map TenantContext.toPolicyContext) rule.untargeted

/-- The loop of `evaluate` over the rules that apply. -/
def evaluateRules (foreignDigit : Char → Option Nat) (defaultEffect : PolicyEffect) (envelope : Envelope)
    (context : Option TenantContext) (rules : List LoadedRule) : Option PolicyResult :=
  firstResult defaultEffect
    (fires foreignDigit envelope (context.map TenantContext.toPolicyContext))
    (rules.map LoadedRule.untargeted)

/-- `evaluate` -/
def evaluateForTenant (foreignDigit : Char → Option Nat) (engine : TenantEngine)
    (envelope : Envelope) (context : Option TenantContext) : Option PolicyResult :=
  let applicable := getApplicableRules engine envelope context
  if applicable.isEmpty then some { effect := engine.defaultEffect }
  else evaluateRules foreignDigit engine.defaultEffect envelope context applicable

end Python

/-! ## Which rule ends the evaluation -/

section Targets

open Python

variable (foreignDigit : Char → Option Nat) (engine : TenantEngine) (envelope : Envelope)
  (context : Option TenantContext)

/-- The rule at which the evaluation ends: the first one whose condition does not come out false. -/
def EndsAt (rule : LoadedRule) : Prop :=
  FirstMatch (fun rule => conditionMet foreignDigit envelope context rule ≠ some false)
    (getApplicableRules engine envelope context) (some rule)

/-- The rules of the tenant and the rules for all whose target is the request, those of higher
priority first and those of the tenant first among equals. -/
def matchingRules : List LoadedRule :=
  ((engine.rulesOfTenant context).filter (targetMatches envelope) ++
    engine.rules.filter (targetMatches envelope)).mergeSort LoadedRule.byPriority

/-- The evaluation respects the targets of the rules, and the tenant that they are for. -/
structure RespectsTargets : Prop where
  targeted : ∀ rule, EndsAt foreignDigit engine envelope context rule →
    targetMatches envelope rule = true
  tenant   : ∀ rule, EndsAt foreignDigit engine envelope context rule →
    rule ∈ engine.rules ∨ ∃ tenantId rules, context.bind TenantContext.tenantId = some tenantId ∧
      OrderedMap.getEntries tenantId engine.tenantRules = some rules ∧ rule ∈ rules
  decision : evaluateForTenant foreignDigit engine envelope context =
    evaluateRules foreignDigit engine.defaultEffect envelope context
      (matchingRules engine envelope context)

/-- The rule matches the request, and its condition does not come out false. -/
def Decisive (rule : LoadedRule) : Prop :=
  targetMatches envelope rule = true ∧ conditionMet foreignDigit envelope context rule ≠ some false

/-- Before the tenant's rule at place `j` a decisive rule is tried: one of higher priority, or one of
the tenant's of the same priority that stands before it. -/
def Preempted (j : Nat) (rule : LoadedRule) : Prop :=
  (∃ i other, (engine.rulesOfTenant context)[i]? = some other ∧
    Decisive foreignDigit envelope context other ∧
    (rule.priority < other.priority ∨ rule.priority = other.priority ∧ i < j)) ∨
  ∃ other ∈ engine.rules, Decisive foreignDigit envelope context other ∧
    rule.priority < other.priority

/-- Each of the tenant's rules that is for another request has a false condition or is preempted. -/
def OthersIdle : Prop :=
  ∀ j rule, (engine.rulesOfTenant context)[j]? = some rule → targetMatches envelope rule = false →
    conditionMet foreignDigit envelope context rule = some false ∨
      Preempted foreignDigit engine envelope context j rule

variable {foreignDigit engine envelope context}

theorem evaluateForTenant_eq :
    evaluateForTenant foreignDigit engine envelope context =
      evaluateRules foreignDigit engine.defaultEffect envelope context
        (getApplicableRules engine envelope context) := by
  unfold evaluateForTenant
  dsimp only
  split
  · rename_i hempty
    rw [List.isEmpty_iff.mp hempty]
    rfl
  · rfl

theorem filter_applicableRules :
    (getApplicableRules engine envelope context).filter (targetMatches envelope) =
      matchingRules engine envelope context := by
  unfold getApplicableRules matchingRules
  rw [filter_mergeSort LoadedRule.byPriority_trans LoadedRule.byPriority_total, List.filter_append,
    List.filter_filter]
  simp only [Bool.and_self]

/-- The search ends at a rule that matches when each one before that does not has a false condition. -/
theorem targeted_iff {rules : List LoadedRule} :
    (∀ rule, FirstMatch (fun rule => conditionMet foreignDigit envelope context rule ≠ some false)
        rules (some rule) → targetMatches envelope rule = true) ↔
      UpToFirst (Decisive foreignDigit envelope context)
        (fun rule => targetMatches envelope rule = true ∨
          conditionMet foreignDigit envelope context rule = some false) rules := by
  induction rules with
  | nil =>
      simp only [UpToFirst, iff_true]
      intro rule h
      cases h
  | cons rule rules ih =>
      simp only [FirstMatch.cons_some_iff, UpToFirst, ← ih]
      by_cases hfalse : conditionMet foreignDigit envelope context rule = some false
      · simp [hfalse, Decisive]
      · simp only [hfalse, not_false_eq_true, ne_eq, true_and, false_and, or_false, not_true_eq_false,
          Decisive, and_true]
        constructor
        · intro h
          exact ⟨h rule rfl, fun hnot => absurd (h rule rfl) hnot⟩
        · rintro ⟨htarget, -⟩ other rfl
          exact htarget

theorem evaluateRules_cons {rule : LoadedRule} {rules : List LoadedRule} {d : PolicyEffect} :
    evaluateRules foreignDigit d envelope context (rule :: rules) =
      match conditionMet foreignDigit envelope context rule with
      | some true  => some rule.untargeted.result
      | some false => evaluateRules foreignDigit d envelope context rules
      | none       => none := by
  unfold evaluateRules conditionMet
  rw [List.map_cons, firstResult]
  cases fires foreignDigit envelope (context.map TenantContext.toPolicyContext) rule.untargeted with
  | none => rfl
  | some met => cases met <;> rfl

/-- Then it does not matter that the others are tried too. -/
theorem evaluateRules_filter {rules : List LoadedRule} {d : PolicyEffect}
    (h : UpToFirst (Decisive foreignDigit envelope context)
      (fun rule => targetMatches envelope rule = true ∨
        conditionMet foreignDigit envelope context rule = some false) rules) :
    evaluateRules foreignDigit d envelope context rules =
      evaluateRules foreignDigit d envelope context (rules.filter (targetMatches envelope)) := by
  induction rules with
  | nil => rfl
  | cons rule rules ih =>
      obtain ⟨hgood, hrest⟩ := h
      by_cases hfalse : conditionMet foreignDigit envelope context rule = some false
      · -- a rule with a false condition ends nothing, whatever its target
        have htail := ih (hrest fun hdecisive => hdecisive.2 hfalse)
        rw [evaluateRules_cons, hfalse]
        by_cases htarget : targetMatches envelope rule = true
        · rw [List.filter_cons_of_pos htarget, evaluateRules_cons, hfalse]
          exact htail
        · rw [List.filter_cons_of_neg htarget]
          exact htail
      · have htarget := hgood.resolve_right hfalse
        rw [List.filter_cons_of_pos htarget, evaluateRules_cons, evaluateRules_cons]
        cases hmet : conditionMet foreignDigit envelope context rule with
        | none => rfl
        | some met =>
            cases met with
            | false => exact absurd hmet hfalse
            | true => rfl

/-- A rule is preempted by one that stands before it once the rules of the tenant are sorted, or by a rule
for all that stands before it in any case. -/
theorem preempted_iff {j : Nat} {rule : LoadedRule} :
    Preempted foreignDigit engine envelope context j rule ↔
      Preceded LoadedRule.byPriority (Decisive foreignDigit envelope context)
          (engine.rulesOfTenant context) j rule ∨
        ∃ other ∈ engine.rules.filter (targetMatches envelope),
          Decisive foreignDigit envelope context other ∧ LoadedRule.byPriority rule other = false := by
  have hbelow : ∀ other, LoadedRule.byPriority rule other = false ↔ rule.priority < other.priority := by
    simp [LoadedRule.byPriority]
  have habove : ∀ other, LoadedRule.byPriority other rule = true ↔ rule.priority ≤ other.priority := by
    simp [LoadedRule.byPriority]
  unfold Preempted Preceded
  refine or_congr ?_ ?_
  · refine exists_congr fun i => exists_congr fun other => and_congr_right fun _ =>
      and_congr_right fun _ => ?_
    rw [hbelow, habove]
    omega
  · refine exists_congr fun other => ?_
    rw [hbelow, List.mem_filter, and_assoc]
    exact and_congr_right fun _ => ⟨fun h => ⟨h.1.1, h⟩, fun h => h.2⟩

/-- What the search of the applicable rules meets, said of the rules of the engine. -/
theorem othersIdle_iff :
    UpToFirst (Decisive foreignDigit envelope context)
        (fun rule => targetMatches envelope rule = true ∨
          conditionMet foreignDigit envelope context rule = some false)
        (getApplicableRules engine envelope context) ↔
      OthersIdle foreignDigit engine envelope context := by
  have hmatch : ∀ rule ∈ engine.rules.filter (targetMatches envelope),
      targetMatches envelope rule = true ∨
        conditionMet foreignDigit envelope context rule = some false :=
    fun rule hrule => .inl (List.of_mem_filter hrule)
  unfold getApplicableRules OthersIdle
  rw [upToFirst_mergeSort_iff LoadedRule.byPriority_trans LoadedRule.byPriority_total,
    forall_places_append hmatch]
  refine forall_congr' fun j => forall_congr' fun rule => imp_congr_right fun _ => ?_
  rw [← preempted_iff, or_assoc, or_iff_not_imp_left, Bool.not_eq_true]

/-- A rule that is tried is a rule for all, or one of the rules of the context's tenant. -/
theorem mem_applicableRules {rule : LoadedRule}
    (h : rule ∈ getApplicableRules engine envelope context) :
    rule ∈ engine.rules ∨ ∃ tenantId rules,
      context.bind TenantContext.tenantId = some tenantId ∧
        OrderedMap.getEntries tenantId engine.tenantRules = some rules ∧ rule ∈ rules := by
  rcases List.mem_append.mp (List.mem_mergeSort.mp h) with htenant | hrule
  · right
    unfold TenantEngine.rulesOfTenant at htenant
    split at htenant
    · rename_i tenantId hcontext
      cases hrules : OrderedMap.getEntries tenantId engine.tenantRules with
      | none => simp [hrules] at htenant
      | some rules =>
          obtain ⟨context', rfl, hgiven⟩ := Option.bind_eq_some_iff.mp hcontext
          exact ⟨tenantId, rules, (Option.filter_eq_some_iff.mp hgiven).1, hrules,
            by simpa [hrules] using htenant⟩
    · cases htenant
  · exact .inl (List.mem_of_mem_filter hrule)

/-- **The targets are respected exactly when the tenant's rules for other requests stay idle.** -/
theorem targets_respected_iff (foreignDigit : Char → Option Nat) (engine : TenantEngine)
    (config : RulesConfig) (envelope : Envelope) (context : Option TenantContext) :
    RespectsTargets foreignDigit (engine.loadRulesFromConfig config).1 envelope context ↔
      OthersIdle foreignDigit (engine.loadRulesFromConfig config).1 envelope context := by
  generalize (engine.loadRulesFromConfig config).1 = engine
  rw [← othersIdle_iff]
  constructor
  · intro h
    exact targeted_iff.mp h.targeted
  · intro h
    refine ⟨targeted_iff.mpr h, fun rule hends => mem_applicableRules hends.mem, ?_⟩
    rw [evaluateForTenant_eq, evaluateRules_filter h, filter_applicableRules]

end Targets

/-! ## A tenant's rule for other requests -/

/-- The tenant `acme` is allowed what is critical. -/
def criticalConfig : RulesConfig where
  tenantRules := some [("acme", some [
    { id := some "critical", name := some "critical", target := some { riskClass := some ["critical"] }
      effect := some "allow" }])]

def criticalRule : LoadedRule where
  id        := "critical"
  name      := "critical"
  target    := some { riskClass := some ["critical"] }
  condition := none
  effect    := .allow
  reason    := none
  priority  := 0

def lowRiskEnvelope : Envelope where
  requesterIdentity := { type := .user, id := "u", tenantId := some "acme" }
  targetAgent := "agent"
  riskClass := .low
  common := none
  domain := none

/-- The rule of the tenant allows a request of low risk too. -/
theorem targets_respected_fails :
    ¬ ∀ (foreignDigit : Char → Option Nat) (engine : TenantEngine) (config : RulesConfig)
        (envelope : Envelope) (context : Option TenantContext),
      RespectsTargets foreignDigit (engine.loadRulesFromConfig config).1 envelope context := by
  intro h
  have hrespects := h (fun _ => none) (.empty .deny) criticalConfig lowRiskEnvelope
    (some { tenantId := some "acme" })
  have hloaded : ((TenantEngine.empty .deny).loadRulesFromConfig criticalConfig).1 =
      ⟨[], [("acme", [criticalRule])], .deny, .nil⟩ := rfl
  rw [hloaded] at hrespects
  have htried : Python.getApplicableRules ⟨[], [("acme", [criticalRule])], .deny, .nil⟩
      lowRiskEnvelope (some { tenantId := some "acme" }) = [criticalRule] := by
    unfold Python.getApplicableRules
    exact List.mergeSort_singleton criticalRule
  have htarget := hrespects.targeted criticalRule (by
    unfold EndsAt
    rw [htried]
    exact .here (by simp [Python.conditionMet, Python.fires, criticalRule, LoadedRule.untargeted]))
  exact absurd htarget (by decide)

end MapProtocol.Sdk
