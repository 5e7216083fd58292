import MapProtocol.Core.Semantics
import MapProtocol.Map

/-!
# The simple policy DSL

`map()` takes a list of simple rules in place of a policy document and translates it rule by rule.
Below the translation, the direct reading of a simple rule, and how far the two say the same: the
translation infers a default of `allow` from the mere presence of a rule `{ when: '*', require:
'allow' }`, whatever else that rule asks for.
-/

namespace MapProtocol

open Js

inductive Requirement where
  | allow
  | deny
  | approval
  deriving DecidableEq, Repr

structure SimpleRule where
  when          : String
  amountGt      : Option Rat := none
  amountGte     : Option Rat := none
  env           : Option String := none
  risk          : Option RiskLevel := none
  requesterType : Option RequesterType := none
  require       : Requirement
  description   : Option String := none

/-- The defaults that a caller may ask for. -/
inductive SimpleDefault where
  | allow
  | deny
  deriving DecidableEq, Repr

def SimpleDefault.action : SimpleDefault → PolicyAction
  | .allow => .allow
  | .deny  => .deny

namespace SimpleRule

/-! ## The translation -/

/-- `s.replace(/\s+/g, "-")`, on characters; `within` a run of white space. -/
def dashes : Bool → List Char → List Char
  | _, []           => []
  | within, c :: cs =>
      if isWhiteSpace c then if within then dashes true cs else '-' :: dashes true cs
      else c :: dashes false cs

def ruleId (description : Option String) (index : Nat) : String :=
  match description with
  | none      => "rule-" ++ toString index
  | some text =>
      if text = "" then "rule-" ++ toString index
      else String.ofList ((dashes false (toLowerCase text).toList).take 40)

def conditions (rule : SimpleRule) : List Condition :=
  (rule.amountGt.map fun amount => .order .gt "input.amount" (.num amount)).toList ++
  (rule.amountGte.map fun amount => .order .gte "input.amount" (.num amount)).toList ++
  (rule.env.map fun env => .eq "constraints.environment" (.str env)).toList ++
  (rule.risk.map fun risk => .eq "risk_class" (.str risk.text)).toList ++
  (rule.requesterType.map fun type => .eq "requester.type" (.str type.text)).toList

/-- The condition made of several: a rule without any always matches. -/
def combine : List Condition → Condition
  | []  => .always
  | [c] => c
  | cs  => .and cs

def action (rule : SimpleRule) : PolicyAction :=
  match rule.require with
  | .approval => .requireApproval
  | .deny     => .deny
  | .allow    => .allow

def compileSimpleRule (rule : SimpleRule) (index : Nat) : Rule :=
  ⟨ruleId rule.description index, rule.when, combine rule.conditions, rule.action⟩

/-- The rule list contains a rule `{ when: '*', require: 'allow' }`. -/
def hasCatchAllAllow (rules : List SimpleRule) : Bool :=
  rules.any fun rule => rule.when = "*" ∧ rule.require = .allow

def effectiveDefault (rules : List SimpleRule) (defaultAction : Option SimpleDefault) :
    SimpleDefault :=
  defaultAction.getD (if hasCatchAllAllow rules then .allow else .deny)

def compileRules (rules : List SimpleRule) (defaultAction : Option SimpleDefault) : Document :=
  ⟨rules.zipIdx.map fun (rule, i) => compileSimpleRule rule i,
    some (effectiveDefault rules defaultAction).action⟩

/-- `compilePolicy(rules, defaultAction)`: a full document stays as it is. -/
def compilePolicy (rules : List SimpleRule ⊕ PolicyDocument)
    (defaultAction : Option SimpleDefault) : PolicyDocument :=
  match rules with
  | .inr document    => document
  | .inl simpleRules => (compileRules simpleRules defaultAction).toPolicy

example : ruleId (some "High  value payments") 3 = "high-value-payments" := by decide

/-! ## The direct reading -/

/-- The rule, read as its fields say, matches the intent. -/
structure Matches (intent : Intent) (rule : SimpleRule) : Prop where
  when          : PatternMatches rule.when intent.capability
  amountGt      : ∀ bound, rule.amountGt = some bound →
    ∃ amount, intent.input.get "amount" = .num amount ∧ amount > bound
  amountGte     : ∀ bound, rule.amountGte = some bound →
    ∃ amount, intent.input.get "amount" = .num amount ∧ amount ≥ bound
  env           : ∀ env, rule.env = some env →
    ∃ constraints, intent.constraints = some constraints ∧ constraints.environment = .str env
  risk          : ∀ risk, rule.risk = some risk → intent.riskClass = some risk
  requesterType : ∀ type, rule.requesterType = some type → intent.requester.type = type

/-- What a list of rules says about an intent: the first rule that matches decides, else the caller's
default, else nothing is allowed. -/
def Says (rules : List SimpleRule) (defaultAction : Option SimpleDefault) (intent : Intent)
    (action : PolicyAction) : Prop :=
  ∃ rule, FirstMatch (Matches intent) rules rule ∧
    action = match rule with
      | some rule => rule.action
      | none      => (defaultAction.getD .deny).action

/-! ## What the translated conditions read -/

section

variable (intent : Intent)

open Condition (readPath)

end

/-- An instance whose uuids count. -/
def sampleEnv : MapEnv :=
  ⟨none, false, false, regExp fun _ => .error "", Orchestrator.counterUuids.uuid⟩

def samplePayment : Intent :=
  MapInstance.buildIntent sampleEnv 0 "payment.execute" [("amount", .num 5000)] ⟨none, none, none⟩

end SimpleRule

end MapProtocol
