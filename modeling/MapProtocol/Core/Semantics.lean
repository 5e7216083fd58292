import MapProtocol.Core.Conditions
import MapProtocol.Core.GlobPatterns
import MapProtocol.Lib.FirstMatch

/-!
# What a policy document says

A well-typed document says one thing: the first rule whose capability pattern and condition match
decides, and the default where there is none. The evaluator says the same as long as no pattern that
is tested has characters that the expression made from it gives a meaning of its own, no star has to
cover a line terminator, and no path that is read meets a property that is inherited rather than own.
-/

namespace MapProtocol

open Js

/-! ## The first matching rule -/

theorem compileRule_action {regExp : RegExpEngine} {rule : PolicyRule} {compiled : CompiledRule}
    (h : compileRule regExp rule = .ok compiled) : compiled.action = rule.action := by
  unfold compileRule at h
  simp only [bind_eq_ok, pure_eq_ok] at h
  obtain ⟨matcher, -, condition, -, rfl⟩ := h
  rfl

def PolicyRule.Matches (regExp : RegExpEngine) (intent : Intent) (rule : PolicyRule) : Prop :=
  ∃ compiled, compileRule regExp rule = .ok compiled ∧
    (compiled.capabilityMatcher.matchesCapability intent.capability &&
      compiled.condition intent.toJs) = true

namespace PolicyDocument

variable {regExp : RegExpEngine} {policy : PolicyDocument}

def Compiles (regExp : RegExpEngine) (policy : PolicyDocument) : Prop :=
  ∃ compiled, compilePolicy regExp policy = .ok compiled

def actionOf (policy : PolicyDocument) : Option PolicyRule → PolicyAction
  | some rule => rule.action
  | none      => policy.defaultAction.getD .deny

theorem compiles_iff :
    policy.Compiles regExp ↔ ∃ rules,
      List.Forall₂ (fun rule compiled => compileRule regExp rule = .ok compiled) policy.rules rules := by
  simp [Compiles, compilePolicy, mapM_eq_ok]

theorem compiles_of_forall
    (h : ∀ rule ∈ policy.rules, ∃ compiled, compileRule regExp rule = .ok compiled) :
    policy.Compiles regExp := by
  obtain ⟨rules, -, hrules⟩ := mapM_ok_of_forall fun rule hrule =>
    (h rule hrule).imp fun _ hcompiled => ⟨hcompiled, hcompiled⟩
  exact compiles_iff.mpr ⟨rules, hrules⟩

/-- A document that compiles is decided by its first matching rule. -/
theorem evaluate_first (h : policy.Compiles regExp) (intent : Intent) :
    ∃ decision rule, evaluate regExp intent policy = .ok decision ∧
      FirstMatch (PolicyRule.Matches regExp intent) policy.rules rule ∧
      decision.action = policy.actionOf rule := by
  obtain ⟨rules, hrules⟩ := compiles_iff.mp h
  have heval : evaluate regExp intent policy =
      .ok (evaluateCompiled intent ⟨rules, policy.defaultAction.getD .deny⟩) := by
    simp [evaluate, compilePolicy, mapM_eq_ok.mpr hrules]
  have hmatches : ∀ rule compiled, compileRule regExp rule = .ok compiled →
      (PolicyRule.Matches regExp intent rule ↔
        (compiled.capabilityMatcher.matchesCapability intent.capability &&
          compiled.condition intent.toJs) = true) := by
    intro rule compiled hcompiled
    simp [PolicyRule.Matches, hcompiled]
  obtain ⟨rule, hfirst, hrel⟩ := FirstMatch.transfer hrules hmatches FirstMatch.of_find?
  refine ⟨_, rule, heval, hfirst, ?_⟩
  cases hfind : rules.find? fun rule =>
      rule.capabilityMatcher.matchesCapability intent.capability &&
        rule.condition intent.toJs with
  | none =>
      rw [hfind] at hrel
      cases hrel
      simp [evaluateCompiled, hfind, actionOf]
  | some compiled =>
      rw [hfind] at hrel
      cases hrel with
      | some hcompiled =>
          have haction : compiled.action = _ := compileRule_action hcompiled
          simp [evaluateCompiled, hfind, actionOf, haction]

theorem compiles_iff_evaluate (intent : Intent) :
    policy.Compiles regExp ↔ ∃ decision, evaluate regExp intent policy = .ok decision := by
  constructor
  · intro h
    obtain ⟨decision, -, heval, -⟩ := evaluate_first h intent
    exact ⟨decision, heval⟩
  · rintro ⟨decision, heval⟩
    unfold evaluate at heval
    obtain ⟨compiled, hcompiled, -⟩ := bind_eq_ok.mp heval
    exact ⟨compiled, hcompiled⟩

end PolicyDocument

/-! ## Documents -/

/-- A rule of a well-typed document. -/
structure Rule where
  id         : String
  capability : String
  condition  : Condition
  action     : PolicyAction

def Rule.toPolicyRule (rule : Rule) : PolicyRule :=
  ⟨rule.id, rule.capability, rule.condition.toJs, rule.action⟩

/-- A well-typed document. -/
structure Document where
  rules         : List Rule
  defaultAction : Option PolicyAction

def Document.toPolicy (document : Document) : PolicyDocument :=
  ⟨document.rules.map Rule.toPolicyRule, document.defaultAction⟩

namespace Rule

variable (intent : Intent) (rule : Rule)

def Applies : Prop :=
  PatternMatches rule.capability intent.capability ∧ rule.condition.Holds intent.toJs

/-- What the compiled rule tests. -/
def Fires (regExp : RegExpEngine) : Prop :=
  PatternAccepts regExp rule.capability intent.capability ∧
    rule.condition.HoldsWith JsValue.property intent.toJs

/-- The pattern has no character with a meaning of its own; and where it matches, no star has to cover
a line terminator, and nothing that is evaluated of the condition depends on an inherited property. -/
def ReadsAlike : Prop :=
  LiteralPattern rule.capability ∧ (PatternMatches rule.capability intent.capability →
    PatternTests rule.capability intent.capability ∧ rule.condition.ReadsAlike intent.toJs)

variable {intent rule}

theorem ReadsAlike.fires_iff (rest : RegExpEngine) (h : rule.ReadsAlike intent) :
    rule.Fires intent (regExpB rest) ↔ rule.Applies intent := by
  obtain ⟨hliteral, hreads⟩ := h
  rw [Fires, (hliteral.readAsGlob rest).accepts_iff]
  constructor
  · rintro ⟨htests, hholds⟩
    have hmatches := htests.matches
    exact ⟨hmatches, (hreads hmatches).2.holdsWith_iff.mp hholds⟩
  · rintro ⟨hmatches, hholds⟩
    obtain ⟨htests, halike⟩ := hreads hmatches
    exact ⟨htests, halike.holdsWith_iff.mpr hholds⟩

theorem compile_toPolicyRule {regExp : RegExpEngine} (h : PatternCompiles regExp rule.capability) :
    (∃ compiled, compileRule regExp rule.toPolicyRule = .ok compiled) ∧
      ∀ intent, rule.toPolicyRule.Matches regExp intent ↔ rule.Fires intent regExp := by
  obtain ⟨matcher, hmatcher⟩ := h
  obtain ⟨e, he, htests⟩ := Condition.compile_toJs rule.condition
  have hcompiled : compileRule regExp rule.toPolicyRule = .ok ⟨rule.id, rule.action, matcher, e⟩ := by
    simp [compileRule, toPolicyRule, hmatcher, he]
  refine ⟨⟨_, hcompiled⟩, fun intent => ?_⟩
  simp [PolicyRule.Matches, hcompiled, Fires, PatternAccepts, hmatcher, htests intent.toJs]

end Rule

namespace Document

variable (intent : Intent) (document : Document)

def actionOf (rule : Option Rule) : PolicyAction :=
  match rule with
  | some rule => rule.action
  | none      => document.defaultAction.getD .deny

/-- What the document says about an intent. -/
def Decides (action : PolicyAction) : Prop :=
  ∃ rule, FirstMatch (Rule.Applies intent) document.rules rule ∧ action = document.actionOf rule

/-- Every pattern compiles, and every rule that the search meets reads alike. -/
def ReadsAlike (regExp : RegExpEngine) : Prop :=
  (∀ rule ∈ document.rules, PatternCompiles regExp rule.capability) ∧
    UpToFirst (Rule.Applies intent) (Rule.ReadsAlike intent) document.rules

variable {intent document}

/-- Where all patterns compile, the first rule that fires decides. -/
theorem evaluate_fires {regExp : RegExpEngine} (intent : Intent)
    (hcompiles : ∀ rule ∈ document.rules, PatternCompiles regExp rule.capability) :
    ∃ decision rule, evaluate regExp intent document.toPolicy = .ok decision ∧
      FirstMatch (fun rule => Rule.Fires intent rule regExp) document.rules rule ∧
      decision.action = document.actionOf rule := by
  have hdocument : document.toPolicy.Compiles regExp := by
    refine PolicyDocument.compiles_of_forall fun policyRule hmem => ?_
    obtain ⟨rule, hrule, rfl⟩ := List.mem_map.mp hmem
    exact (Rule.compile_toPolicyRule (hcompiles rule hrule)).1
  have hlists : List.Forall₂ (fun rule policyRule => policyRule = rule.toPolicyRule ∧
      PatternCompiles regExp rule.capability) document.rules document.toPolicy.rules :=
    List.forall₂_map_right_iff.mpr (List.forall₂_same.mpr fun rule hrule =>
      ⟨rfl, hcompiles rule hrule⟩)
  have hiff : ∀ (rule : Rule) policyRule,
      policyRule = rule.toPolicyRule ∧ PatternCompiles regExp rule.capability →
      (rule.Fires intent regExp ↔ policyRule.Matches regExp intent) := by
    rintro rule _ ⟨rfl, hpattern⟩
    exact ((Rule.compile_toPolicyRule hpattern).2 intent).symm
  obtain ⟨decision, first, heval, hfirst, haction⟩ :=
    PolicyDocument.evaluate_first hdocument intent
  obtain ⟨rule, hrule, hrel⟩ := FirstMatch.transfer hlists hiff hfirst
  refine ⟨decision, rule, heval, hrule, ?_⟩
  rw [haction]
  cases hrel with
  | none => rfl
  | some h => rw [h.1]; rfl

/-- One rule with a literal pattern and a default of another action, where only one thing can be
misread: the leaf that is the condition, or the pattern. -/
def Atomic : Prop :=
  ∃ rule, document.rules = [rule] ∧ LiteralPattern rule.capability ∧
    rule.action ≠ document.defaultAction.getD .deny ∧
    (rule.capability = "*" ∧ rule.condition.IsLeaf ∨ rule.condition = .always)

/-- In an atomic document whatever is misread decides. -/
theorem Atomic.readsAlike (rest : RegExpEngine) {rule : Rule} (hrules : document.rules = [rule])
    (hliteral : LiteralPattern rule.capability)
    (hone : rule.capability = "*" ∧ rule.condition.IsLeaf ∨ rule.condition = .always)
    (hiff : rule.Fires intent (regExpB rest) ↔ rule.Applies intent) :
    document.ReadsAlike intent (regExpB rest) := by
  rw [Rule.Fires, (hliteral.readAsGlob rest).accepts_iff] at hiff
  refine ⟨by simpa [hrules] using (hliteral.readAsGlob rest).compiles, ?_⟩
  rw [hrules]
  refine ⟨⟨hliteral, fun hmatches => ?_⟩, fun _ => trivial⟩
  rcases hone with ⟨hall, hleaf⟩ | halways
  · have htests : PatternTests rule.capability intent.capability := .inl hall
    refine ⟨htests, hleaf.readsAlike_iff.mpr ?_⟩
    simpa [Rule.Applies, htests, hmatches] using hiff
  · have happlies : rule.Applies intent := ⟨hmatches, by simp [halways, Condition.HoldsWith]⟩
    refine ⟨(hiff.mpr happlies).1, ?_⟩
    rw [halways]
    trivial

/-- A rule alone before a default of another action: who decides shows in the action. -/
theorem actionOf_iff {p q : Rule → Prop} {rule : Rule} {fired applied : Option Rule}
    (haction : rule.action ≠ document.defaultAction.getD .deny)
    (hp : FirstMatch p [rule] fired) (hq : FirstMatch q [rule] applied)
    (heq : document.actionOf fired = document.actionOf applied) : p rule ↔ q rule := by
  cases hp with
  | here hp =>
      cases hq with
      | here hq => exact iff_of_true hp hq
      | later _ hnil =>
          cases hnil
          exact absurd heq haction
  | later hnp hnil =>
      cases hnil
      cases hq with
      | here => exact absurd heq.symm haction
      | later hnq => exact iff_of_false hnp hnq

/-- After the earlier calls, evaluating the document gives an action that it states. -/
def EvaluatesAsStated (regExp : RegExpEngine) (calls : List (Intent × PolicyObject))
    (intent : Intent) (ref : Nat) (document : Document) : Prop :=
  ∃ decision, (evaluateCached regExp (cacheAfter regExp calls) intent
      ⟨ref, document.toPolicy⟩).1 = .ok decision ∧
    document.Decides intent decision.action

/-- **A document that reads alike is evaluated as stated**, where what is cached for it is up to date;
among the documents in which a single thing can be misread there are no others. -/
theorem evaluated_as_stated (rest : RegExpEngine) (calls : List (Intent × PolicyObject))
    (intent : Intent) (ref : Nat) (document : Document)
    (hcache : (cacheAfter (regExpB rest) calls).UpToDate (regExpB rest) ⟨ref, document.toPolicy⟩) :
    (document.ReadsAlike intent (regExpB rest) →
      document.EvaluatesAsStated (regExpB rest) calls intent ref) ∧
    (document.Atomic →
      (document.EvaluatesAsStated (regExpB rest) calls intent ref ↔
        document.ReadsAlike intent (regExpB rest))) := by
  have hsound : document.ReadsAlike intent (regExpB rest) →
      document.EvaluatesAsStated (regExpB rest) calls intent ref := by
    rintro ⟨hcompiles, halike⟩
    obtain ⟨decision, rule, heval, hfirst, haction⟩ := evaluate_fires intent hcompiles
    -- the searches for a rule that fires and for one that applies meet the same rules
    have happlies : FirstMatch (Rule.Applies intent) document.rules rule :=
      (FirstMatch.congr_upTo (halike.mono fun rule _ halike => halike.fires_iff rest)).mp hfirst
    exact ⟨decision, (evaluateCached_eq hcache intent).trans heval, rule, happlies, haction⟩
  refine ⟨hsound, fun hatomic => ⟨fun h => ?_, hsound⟩⟩
  obtain ⟨rule, hrules, hliteral, haction, hone⟩ := hatomic
  obtain ⟨decision, heval, applied, happlied, hstated⟩ := h
  rw [evaluateCached_eq hcache] at heval
  obtain ⟨_, fired, hfires, hfirst, hfired⟩ :=
    @evaluate_fires document (regExpB rest) intent
      (by simpa [hrules] using (hliteral.readAsGlob rest).compiles)
  obtain rfl := Except.ok.inj (heval.symm.trans hfires)
  rw [hrules] at hfirst happlied
  exact Atomic.readsAlike rest hrules hliteral hone
    (actionOf_iff haction hfirst happlied (hfired.symm.trans hstated))

def samplePayment : Intent :=
  { capability := "payment.execute", input := [("amount", .num 5000)],
    requester := ⟨.user, "alice", none⟩, constraints := none, metadata := none, riskClass := none }

/-- Payments of more than 1000 need approval. -/
def sampleApproval : Document :=
  ⟨[⟨"high-value", "payment.*", .order .gt "input.amount" (.num 1000), .requireApproval⟩],
    some .allow⟩

/-- Payments that are large, or that have an input `toString`, need approval. -/
def sampleEither : Document :=
  ⟨[⟨"high-value", "payment.*",
      .or [.order .gt "input.amount" (.num 1000), .field "input.toString"], .requireApproval⟩],
    some .allow⟩

/-- The inherited property is not read where the amount decides, and the second evaluation finds the
document in the cache. -/
theorem evaluated_as_stated_sample :
    sampleEither.EvaluatesAsStated (regExpB fun _ => .error "")
      [(samplePayment, ⟨0, sampleEither.toPolicy⟩)] samplePayment 0 := by
  have hunchanged : Unchanged [(samplePayment, ⟨0, sampleEither.toPolicy⟩)]
      ⟨0, sampleEither.toPolicy⟩ := by
    intro call hcall _
    rw [List.mem_singleton.mp hcall]
  have hliteral : LiteralPattern "payment.*" := fun _ _ => by decide
  refine (evaluated_as_stated (fun _ => .error "") _ samplePayment 0 sampleEither
    (hunchanged.upToDate _)).1 ⟨?_, ⟨hliteral, fun _ => ?_⟩, fun _ => trivial⟩
  · intro rule hrule
    obtain rfl := List.mem_singleton.mp hrule
    exact (hliteral.readAsGlob _).compiles
  · refine ⟨.inr (globMatch_iff.mp (by decide)), Iff.rfl, fun hsmall => ?_⟩
    -- the amount decides, so that nothing behind it is evaluated
    refine absurd ⟨5000, 1000, rfl, rfl, ?_⟩ hsmall
    unfold OrderOperator.Compares
    decide

/-- A rule that allows whatever has an input `toString`: no payment has. -/
def sampleInherited : Document :=
  ⟨[⟨"named", "*", .field "input.toString", .allow⟩], none⟩

theorem inherited_property_read :
    ¬ sampleInherited.EvaluatesAsStated (regExpB fun _ => .error "") [] samplePayment 0 := by
  rintro ⟨decision, heval, rule, hfirst, hstated⟩
  obtain rfl : ⟨.allow, "Rule matched: named", some "named"⟩ = decision := Except.ok.inj heval
  cases hfirst with
  | here happlies =>
      have htruthy : (Condition.readPath JsValue.ownProperty samplePayment.toJs
          "input.toString").truthy = true := happlies.2
      exact absurd htruthy (by decide)
  | later _ hnil =>
      cases hnil
      cases hstated

end Document

end MapProtocol
