import MapProtocol.Core.Semantics
import MapProtocol.ControlPlane.World

/-!
# The policy routes

`POST /policy` installs any JSON document that `validatePolicyDocument` accepts. The check looks at
the version, the rules, and of each rule at its id, its capability, its action and whether there is
a condition; it looks neither into conditions nor at `default_action`. Both executors take an action
they do not know for permission, so what the check passes over decides when the gate fails closed.
-/

namespace MapProtocol

open Js

namespace PolicyRoutes

/-! ## The check -/

/-- An action as it is compared later. -/
def readAction : JsValue → PolicyAction
  | .str s =>
      if s = "allow" then .allow
      else if s = "deny" then .deny
      else if s = "require_approval" then .requireApproval
      else .other s
  | v      => .other (toText v)

/-- `default_action`, as `??` reads it. -/
def readDefaultAction : JsValue → Option PolicyAction
  | .undefined => none
  | .null      => none
  | v          => some (readAction v)

/-- `v && typeof v === "object"`. -/
def isObject : JsValue → Bool
  | .obj _ => true
  | .arr _ => true
  | _      => false

/-- A string that `trim` leaves something of. -/
def nonEmptyString (v : JsValue) : Option String :=
  match v with
  | .str s => if isBlank s then none else some s
  | _      => none

def ruleActions : List String := ["allow", "deny", "require_approval"]

def checkRule (i : Nat) (rule : JsValue) : Except String PolicyRule := do
  throwIf (!isObject rule) ("Rule at index " ++ toString i ++ " must be an object.")
  match nonEmptyString (rule.property "id") with
  | none    =>
      throw ("Rule at index " ++ toString i ++ " must have a non-empty \"id\" string.")
  | some id =>
      match nonEmptyString (rule.property "capability") with
      | none            =>
          throw ("Rule \"" ++ id ++ "\" must have a non-empty \"capability\" string.")
      | some capability => do
          throwIf (!isObject (rule.property "condition"))
            ("Rule \"" ++ id ++ "\" must have a \"condition\" object.")
          throwIf (!ruleActions.any fun action => (JsValue.str action).strictEquals
              (rule.property "action"))
            ("Rule \"" ++ id ++ "\" has invalid action \"" ++ toText (rule.property "action") ++
              "\". Must be \"allow\", \"deny\", or \"require_approval\".")
          return ⟨id, capability, rule.property "condition", readAction (rule.property "action")⟩

def checkRules : Nat → List JsValue → Except String (List PolicyRule)
  | _, []            => return []
  | i, rule :: rules => do
      let checked ← checkRule i rule
      let rest ← checkRules (i + 1) rules
      return checked :: rest

/-- `validatePolicyDocument(parsed)`: the document it accepts, or its error. -/
def validatePolicyDocument (parsed : JsValue) : Except String PolicyDocument := do
  throwIf (!isObject parsed) "Policy must be a JSON object."
  throwIf (!(parsed.property "version").strictEquals (.str "1.0"))
    ("Invalid policy version: \"" ++ toText (parsed.property "version") ++
      "\". Must be \"1.0\".")
  match parsed.property "rules" with
  | .arr rules => do
      let checked ← checkRules 0 rules
      return ⟨checked, readDefaultAction (parsed.property "default_action")⟩
  | _          => throw "Policy must have a \"rules\" array."

/-! ## What the check establishes -/

/-- One of the three actions that a policy can take. -/
def Named (action : PolicyAction) : Prop :=
  action = .allow ∨ action = .deny ∨ action = .requireApproval

theorem named_readAction {v : JsValue}
    (h : (ruleActions.any fun action => (JsValue.str action).strictEquals v) = true) :
    Named (readAction v) := by
  obtain ⟨action, hmem, hequals⟩ := List.any_eq_true.mp h
  cases v with
  | str s =>
      obtain rfl : action = s := by simpa [JsValue.strictEquals] using hequals
      simp only [ruleActions, List.mem_cons, List.not_mem_nil, or_false] at hmem
      rcases hmem with rfl | rfl | rfl
      · exact .inl rfl
      · exact .inr (.inl rfl)
      · exact .inr (.inr rfl)
  | _ => cases hequals

theorem checkRule_named {i : Nat} {rule : JsValue} {checked : PolicyRule}
    (h : checkRule i rule = .ok checked) : Named checked.action := by
  unfold checkRule at h
  simp only [bind_eq_ok] at h
  obtain ⟨_, _, h⟩ := h
  split at h
  · exact absurd h throw_ne_ok
  · split at h
    · exact absurd h throw_ne_ok
    · simp only [bind_eq_ok, throwIf_eq_ok, pure_eq_ok] at h
      obtain ⟨_, _, _, haction, rfl⟩ := h
      exact named_readAction (by simpa using haction)

theorem checkRules_named {i : Nat} {rules : List JsValue} {checked : List PolicyRule}
    (h : checkRules i rules = .ok checked) : ∀ rule ∈ checked, Named rule.action := by
  induction rules generalizing i checked with
  | nil =>
      obtain rfl := pure_eq_ok.mp h
      simp
  | cons rule rules ih =>
      simp only [checkRules, bind_eq_ok, pure_eq_ok] at h
      obtain ⟨first, hfirst, rest, hrest, rfl⟩ := h
      exact List.forall_mem_cons.mpr ⟨checkRule_named hfirst, ih hrest⟩

theorem accepted_named {parsed : JsValue} {policy : PolicyDocument}
    (h : validatePolicyDocument parsed = .ok policy) : ∀ rule ∈ policy.rules, Named rule.action := by
  unfold validatePolicyDocument at h
  simp only [bind_eq_ok] at h
  obtain ⟨_, _, _, _, h⟩ := h
  split at h
  · simp only [bind_eq_ok, pure_eq_ok] at h
    obtain ⟨checked, hchecked, rfl⟩ := h
    exact checkRules_named hchecked
  · exact absurd h throw_ne_ok

/-! ## Conditions of the type `PolicyCondition` -/

/-- `[path, value]`. -/
def isComparisonOperand : JsValue → Bool
  | .arr [.str _, _] => true
  | _                => false

mutual

/-- A single-operator object of the type `PolicyCondition`. -/
def wellFormed : JsValue → Bool
  | .obj es => wellFormedEntries es
  | _       => false

def wellFormedEntries : List (String × JsValue) → Bool
  | [(key, v)] =>
      if key = "always" ∨ key = "never" then v.strictEquals (.bool true)
      else if key ∈ comparisonOperators then isComparisonOperand v
      else if key = "and" ∨ key = "or" then wellFormedOperands v
      else if key = "not" then wellFormed v
      else if key = "$field" then v.asString.isSome
      else false
  | _          => false

def wellFormedOperands : JsValue → Bool
  | .arr xs => wellFormedAll xs
  | _       => false

def wellFormedAll : List JsValue → Bool
  | []      => true
  | v :: vs => wellFormed v && wellFormedAll vs

end

/-! ## Failing closed -/

/-- The decision to run rests on the action `allow`, and no condition met on the way to it is
malformed. -/
structure Granted (regExp : RegExpEngine) (policy : PolicyDocument) (intent : Intent) : Prop where
  allowed    : ∃ rule, FirstMatch (PolicyRule.Matches regExp intent) policy.rules rule ∧
    policy.actionOf rule = .allow
  wellFormed : UpToFirst (PolicyRule.Matches regExp intent)
    (fun rule => PatternAccepts regExp rule.capability intent.capability →
      PolicyRoutes.wellFormed rule.condition = true) policy.rules

/-- The policy lets the intent run without an approval only where that is granted. -/
def FailClosed (regExp : RegExpEngine) (policy : PolicyDocument) (intent : Intent) : Prop :=
  Passes regExp policy intent → Granted regExp policy intent

/-- What the check leaves to the author of a document that compiles. -/
structure Careful (regExp : RegExpEngine) (policy : PolicyDocument) (intent : Intent) : Prop where
  default    : (∀ rule ∈ policy.rules, ¬ rule.Matches regExp intent) →
    Named (policy.defaultAction.getD .deny)
  wellFormed : (∃ rule, FirstMatch (PolicyRule.Matches regExp intent) policy.rules rule ∧
      policy.actionOf rule = .allow) →
    UpToFirst (PolicyRule.Matches regExp intent)
      (fun rule => PatternAccepts regExp rule.capability intent.capability →
        PolicyRoutes.wellFormed rule.condition = true) policy.rules

theorem passes_iff {regExp : RegExpEngine} {policy : PolicyDocument} {intent : Intent} :
    Passes regExp policy intent ↔ policy.Compiles regExp ∧
      ∃ rule, FirstMatch (PolicyRule.Matches regExp intent) policy.rules rule ∧
        (policy.actionOf rule).gate = .passed := by
  constructor
  · rintro ⟨decision, heval, hgate⟩
    have hcompiles : policy.Compiles regExp := by
      unfold evaluate at heval
      obtain ⟨compiled, hcompiled, -⟩ := bind_eq_ok.mp heval
      exact ⟨compiled, hcompiled⟩
    obtain ⟨_, rule, heval', hfirst, haction⟩ := PolicyDocument.evaluate_first hcompiles intent
    obtain rfl := Except.ok.inj (heval.symm.trans heval')
    exact ⟨hcompiles, rule, hfirst, haction ▸ hgate⟩
  · rintro ⟨hcompiles, rule, hfirst, hgate⟩
    obtain ⟨decision, rule', heval, hfirst', haction⟩ :=
      PolicyDocument.evaluate_first hcompiles intent
    obtain rfl := hfirst.unique hfirst'
    exact ⟨decision, heval, haction ▸ hgate⟩

theorem Named.eq_allow {action : PolicyAction} (h : Named action) (hgate : action.gate = .passed) :
    action = .allow := by
  rcases h with rfl | rfl | rfl
  · rfl
  · cases hgate
  · cases hgate

theorem failClosed_iff {regExp : RegExpEngine} {policy : PolicyDocument} {intent : Intent}
    (hnamed : ∀ rule ∈ policy.rules, Named rule.action) :
    FailClosed regExp policy intent ↔
      (policy.Compiles regExp → Careful regExp policy intent) := by
  constructor
  · intro hclosed hcompiles
    refine ⟨fun hnone => ?_, ?_⟩
    · by_contra hdefault
      have hfirst : FirstMatch (PolicyRule.Matches regExp intent) policy.rules none :=
        FirstMatch.none_iff.mpr hnone
      have hpassed : (policy.actionOf none).gate = .passed := by
        show (policy.defaultAction.getD .deny).gate = .passed
        cases h : policy.defaultAction.getD .deny with
        | allow => rfl
        | other text => rfl
        | deny => exact absurd (.inr (.inl h)) hdefault
        | requireApproval => exact absurd (.inr (.inr h)) hdefault
      obtain ⟨rule, hrule, hallow⟩ :=
        (hclosed (passes_iff.mpr ⟨hcompiles, none, hfirst, hpassed⟩)).allowed
      obtain rfl := hfirst.unique hrule
      exact hdefault (.inl hallow)
    · rintro ⟨rule, hfirst, hallow⟩
      exact (hclosed (passes_iff.mpr ⟨hcompiles, rule, hfirst, by rw [hallow]; rfl⟩)).wellFormed
  · rintro hcareful hpasses
    obtain ⟨hcompiles, rule, hfirst, hgate⟩ := passes_iff.mp hpasses
    have haction : policy.actionOf rule = .allow := by
      refine Named.eq_allow ?_ hgate
      cases rule with
      | some rule => exact hnamed rule hfirst.mem
      | none => exact (hcareful hcompiles).default (FirstMatch.none_iff.mp hfirst)
    exact ⟨⟨rule, hfirst, haction⟩, (hcareful hcompiles).wellFormed ⟨rule, hfirst, haction⟩⟩

/-! ## At the orchestrator -/

/-- Whatever ran without an approval had passed the policy then in force. -/
def RanByPolicy (env : OrchestratorEnv) (w : Runtime) : Prop :=
  ∀ call origin t intent policy, .executed call origin t intent policy ∈ w.history →
    (∀ reference, origin ≠ .approve reference) → Passes env.regExp policy intent

theorem ranByPolicy_move {env : OrchestratorEnv} {g : Orchestrator.Guard} {now : Millis}
    {w w' : Runtime} (hledger : Orchestrator.Ledger env w) (h : RanByPolicy env w)
    (hm : Orchestrator.Move env g now w w') : RanByPolicy env w' := by
  intro call origin t intent policy hmem horigin
  rcases hm.logged hmem with hold | hnew
  · exact h _ _ _ _ _ hold horigin
  · cases hnew with
    | executed _ _ _ hpasses => simpa [hledger.policy] using hpasses
    | approved => exact absurd rfl (horigin _)

/-- **The gate.** In every run an adapter runs without an approval only if the policy in force lets
the intent pass; and an accepted document does so only by an `allow` reached over well-formed
conditions exactly where its author was careful. -/
theorem gate_fails_closed (env : OrchestratorEnv) (initial : PolicyDocument)
    (deadLetters : List DeadLetterRecord) (now : Millis) (ls : List Label) :
    RanByPolicy env (Orchestrator.run env (Orchestrator.init env initial deadLetters now) ls).outer ∧
      ∀ parsed policy, validatePolicyDocument parsed = .ok policy → ∀ intent,
        (FailClosed env.regExp policy intent ↔
          (policy.Compiles env.regExp → Careful env.regExp policy intent)) := by
  refine ⟨?_, fun parsed policy haccepted intent => failClosed_iff (accepted_named haccepted)⟩
  have hinit : RanByPolicy env (Orchestrator.init env initial deadLetters now).outer := by
    simp [RanByPolicy]
  exact (Orchestrator.run_of_moves (g := .any) (fun _ _ _ => ranByPolicy_move)
    (Orchestrator.init_worldLedger env initial deadLetters now) hinit
    (Transition.stepsMeet_of_forall (Orchestrator.allowed_any env) _ ls)).2

/-! ## Two documents -/

section

open Orchestrator (sampleEnv sampleInit sampleDispatch noCrypto)

def sampleAllow : JsValue :=
  .obj [("version", .str "1.0"), ("rules", .arr [.obj [("id", .str "restarts"),
    ("capability", .str "ops.restart"), ("condition", .obj [("always", .bool true)]),
    ("action", .str "allow")]])]

theorem gate_fails_closed_sample : ∃ policy, validatePolicyDocument sampleAllow = .ok policy ∧
    ∀ intent, FailClosed (sampleEnv "ops.restart" noCrypto).regExp policy intent := by
  refine ⟨⟨[⟨"restarts", "ops.restart", .obj [("always", .bool true)], .allow⟩], none⟩, rfl,
    fun intent => ((gate_fails_closed (sampleEnv "ops.restart" noCrypto) ⟨[], none⟩ [] 0 []).2
      sampleAllow _ rfl intent).mpr fun _ => ⟨fun _ => .inr (.inl rfl), fun _ => ?_⟩⟩
  exact ⟨fun _ => rfl, fun _ => trivial⟩

/-- A default action that no part of the program knows. -/
def samplePermit : JsValue :=
  .obj [("version", .str "1.0"), ("rules", .arr []), ("default_action", .str "permit")]

/-- The document is accepted, and once it is installed the adapter runs without any rule or default
that says `allow`. -/
theorem unknown_default_runs :
    validatePolicyDocument samplePermit = .ok ⟨[], some (.other "permit")⟩ ∧
      (∃ call intent, .executed call .dispatch "t1" intent ⟨[], some (.other "permit")⟩ ∈
        (Orchestrator.run (sampleEnv "ops.restart" noCrypto) (sampleInit .deny)
          [.setPolicy ⟨[], some (.other "permit")⟩,
            sampleDispatch "ops.restart" none {}]).outer.history) ∧
      ∀ intent, ¬ FailClosed (sampleEnv "ops.restart" noCrypto).regExp
        ⟨[], some (.other "permit")⟩ intent := by
  refine ⟨rfl, ⟨0, _, List.mem_of_head? rfl⟩, fun intent hclosed => ?_⟩
  obtain ⟨rule, hfirst, hallow⟩ := (hclosed ⟨_, rfl, rfl⟩).allowed
  cases hfirst
  cases hallow

end

end PolicyRoutes

end MapProtocol
