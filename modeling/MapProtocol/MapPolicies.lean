import MapProtocol.MapChecks
import MapProtocol.SimpleRules

/-!
# Installing a policy

`map()` takes a policy inline or as the path of a file, and so does `setPolicy`. Only a file that is
read at construction is given the default action of the options where its document has none; the
other three leave such a document to the default of the evaluation, which is to deny
(`policies_agree_iff`).
-/

namespace MapProtocol

open Js SimpleRule

/-- The files, as `JSON.parse(readFileSync(path, "utf8"))` reads the policy documents in them. No file
has an empty path. -/
structure PolicyFiles where
  read   : String → Except String PolicyDocument
  noName : ∃ message, read "" = .error message

inductive PolicySource where
  | inline (rules : List SimpleRule ⊕ PolicyDocument)
  | path (path : String)

/-- The options of `map()` that a policy comes from. -/
structure MapOptions where
  policy        : Option PolicySource  := none
  defaultAction : Option SimpleDefault := none

def defaultPolicy (defaultAction : Option SimpleDefault) : PolicyDocument :=
  ⟨[], some (defaultAction.getD .deny).action⟩

/-- The policy that `map()` loads, or what reading a file throws. -/
def loadPolicy (files : PolicyFiles) (options : MapOptions) : Except String PolicyDocument :=
  match options.policy with
  | none                 => .ok (defaultPolicy options.defaultAction)
  | some (.path path)    =>
      if path = "" then .ok (defaultPolicy options.defaultAction)
      else do
        let policyDoc ← files.read path
        return match policyDoc.defaultAction with
          | some _ => policyDoc
          | none   =>
              { policyDoc with defaultAction := options.defaultAction.map SimpleDefault.action }
  | some (.inline rules) => .ok (SimpleRule.compilePolicy rules options.defaultAction)

namespace MapInstance

/-- `map(options)` -/
def new (files : PolicyFiles) (options : MapOptions) (now : Nat) : Except String MapInstance :=
  (loadPolicy files options).map fun policy => init policy now

/-- `setPolicy` of an instance with this default action. -/
def installPolicy (files : PolicyFiles) (defaultAction : Option SimpleDefault)
    (source : PolicySource) (m : MapInstance) : Except String MapInstance :=
  match source with
  | .path path    => (files.read path).map fun policy => setPolicy policy m
  | .inline rules => .ok (setPolicy (SimpleRule.compilePolicy rules defaultAction) m)

/-- The decision that the executor acts on. -/
def decision (env : MapEnv) (uuid : Nat) (capability : String) (input : JsObject)
    (options : RunOptions) (m : MapInstance) : Except String PolicyDecision :=
  evaluate env.regExp (normalizeIntent (buildIntent env uuid capability input options))
    m.executorPolicy

end MapInstance

/-- The ways in which an instance with a default action gets a policy document. -/
inductive Installed (files : PolicyFiles) (defaultAction : Option SimpleDefault)
    (policy : PolicyDocument) : MapInstance → Prop where
  | inline {now : Nat} {m : MapInstance} :
      MapInstance.new files ⟨some (.inline (.inr policy)), defaultAction⟩ now = .ok m →
        Installed files defaultAction policy m
  | file {path : String} {now : Nat} {m : MapInstance} : files.read path = .ok policy →
      MapInstance.new files ⟨some (.path path), defaultAction⟩ now = .ok m →
        Installed files defaultAction policy m
  | setInline {m₀ m : MapInstance} :
      m₀.installPolicy files defaultAction (.inline (.inr policy)) = .ok m →
        Installed files defaultAction policy m
  | setFile {path : String} {m₀ m : MapInstance} : files.read path = .ok policy →
      m₀.installPolicy files defaultAction (.path path) = .ok m →
        Installed files defaultAction policy m

/-- The two instances decide alike on every capability and input. -/
structure SameDecisions (env : MapEnv) (m m' : MapInstance) : Prop where
  check    : ∀ uuid capability input options,
    m.check env uuid capability input options = m'.check env uuid capability input options
  decision : ∀ uuid capability input options,
    m.decision env uuid capability input options = m'.decision env uuid capability input options

/-- Some rule of the document matches whatever is asked for. -/
def RulesDecide (env : MapEnv) (policy : PolicyDocument) : Prop :=
  ∀ compiled, compilePolicy env.regExp policy = .ok compiled →
    ∀ uuid capability input options, ∃ rule ∈ compiled.rules,
      let intent := MapInstance.buildIntent env uuid capability input options
      (rule.capabilityMatcher.matchesCapability intent.capability &&
        rule.condition intent.toJs) = true

/-- The default does not matter: the document has its own, the option is what the evaluation does
anyway, or no request is left to it. -/
def DefaultSettled (env : MapEnv) (defaultAction : Option SimpleDefault) (policy : PolicyDocument) :
    Prop :=
  policy.defaultAction ≠ none ∨ defaultAction ≠ some .allow ∨ RulesDecide env policy

/-! ## What the default decides -/

section

variable {env : MapEnv} {files : PolicyFiles} {defaultAction : Option SimpleDefault}
  {policy : PolicyDocument}

/-- The document, with the default action of the options where it has none. -/
def filled (defaultAction : Option SimpleDefault) (policy : PolicyDocument) : PolicyDocument :=
  match policy.defaultAction with
  | some _ => policy
  | none   => { policy with defaultAction := defaultAction.map SimpleDefault.action }

theorem path_ne_empty {path : String} (h : files.read path = .ok policy) : path ≠ "" := by
  rintro rfl
  obtain ⟨message, hnone⟩ := files.noName
  rw [hnone] at h
  cases h

theorem Installed.policy_eq {m : MapInstance} (h : Installed files defaultAction policy m) :
    m.executorPolicy = m.policyDoc ∧
      (m.policyDoc = policy ∨ m.policyDoc = filled defaultAction policy) := by
  cases h with
  | inline hnew =>
      cases hnew
      exact ⟨rfl, .inl rfl⟩
  | @file path now _ hread hnew =>
      unfold MapInstance.new loadPolicy at hnew
      dsimp only at hnew
      rw [if_neg (path_ne_empty hread), hread] at hnew
      cases hnew
      exact ⟨rfl, .inr rfl⟩
  | setInline hset =>
      cases hset
      exact ⟨rfl, .inl rfl⟩
  | setFile hread hset =>
      unfold MapInstance.installPolicy at hset
      dsimp only at hset
      rw [hread] at hset
      cases hset
      exact ⟨rfl, .inl rfl⟩

theorem compilePolicy_eq (regExp : RegExpEngine) (policy : PolicyDocument) :
    compilePolicy regExp policy = (policy.rules.mapM (compileRule regExp)).map fun rules =>
      ⟨rules, policy.defaultAction.getD .deny⟩ := by
  unfold compilePolicy
  cases policy.rules.mapM (compileRule regExp) <;> rfl

theorem evaluate_eq (regExp : RegExpEngine) (intent : Intent) (policy : PolicyDocument) :
    evaluate regExp intent policy = (policy.rules.mapM (compileRule regExp)).map fun rules =>
      evaluateCompiled intent ⟨rules, policy.defaultAction.getD .deny⟩ := by
  unfold evaluate
  rw [compilePolicy_eq]
  cases policy.rules.mapM (compileRule regExp) <;> rfl

theorem evaluateCompiled_of_match {intent : Intent} {rules : List CompiledRule}
    (h : ∃ rule ∈ rules, (rule.capabilityMatcher.matchesCapability intent.capability &&
      rule.condition intent.toJs) = true) (a b : PolicyAction) :
    evaluateCompiled intent ⟨rules, a⟩ = evaluateCompiled intent ⟨rules, b⟩ := by
  obtain ⟨rule, hrule, hmatch⟩ := h
  unfold evaluateCompiled
  dsimp only
  cases hfind : rules.find? fun rule =>
      rule.capabilityMatcher.matchesCapability intent.capability && rule.condition intent.toJs with
  | some first => rfl
  | none => exact absurd hmatch (List.find?_eq_none.mp hfind rule hrule)

theorem evaluateCompiled_of_none {intent : Intent} {rules : List CompiledRule}
    (h : ¬ ∃ rule ∈ rules, (rule.capabilityMatcher.matchesCapability intent.capability &&
      rule.condition intent.toJs) = true) (a : PolicyAction) :
    (evaluateCompiled intent ⟨rules, a⟩).action = a := by
  have hfind : rules.find? (fun rule =>
      rule.capabilityMatcher.matchesCapability intent.capability && rule.condition intent.toJs) =
        none :=
    List.find?_eq_none.mpr fun rule hrule hmatch => h ⟨rule, hrule, hmatch⟩
  unfold evaluateCompiled
  dsimp only
  rw [hfind]

theorem filled_rules : (filled defaultAction policy).rules = policy.rules := by
  unfold filled
  split <;> rfl

theorem filled_of_own (h : policy.defaultAction ≠ none) : filled defaultAction policy = policy := by
  unfold filled
  split
  · rfl
  · contradiction

theorem defaultAction_filled (h : policy.defaultAction = none) :
    (filled defaultAction policy).defaultAction = defaultAction.map SimpleDefault.action := by
  unfold filled
  rw [h]

/-- Two defaults decide alike exactly when no request is left to them. -/
theorem evaluateCompiled_iff {a b : PolicyAction} (hne : a ≠ b) {rules : List CompiledRule}
    {intent : Intent} :
    evaluateCompiled intent ⟨rules, a⟩ = evaluateCompiled intent ⟨rules, b⟩ ↔
      ∃ rule ∈ rules, (rule.capabilityMatcher.matchesCapability intent.capability &&
        rule.condition intent.toJs) = true := by
  constructor
  · intro hsame
    by_contra hnone
    have haction := congrArg PolicyDecision.action hsame
    rw [evaluateCompiled_of_none hnone, evaluateCompiled_of_none hnone] at haction
    exact hne haction
  · intro h
    exact evaluateCompiled_of_match h a b

theorem evaluate_allow_iff (hnone : policy.defaultAction = none) :
    (∀ uuid capability input options,
      let intent := MapInstance.buildIntent env uuid capability input options
      evaluate env.regExp intent (filled (some .allow) policy) = evaluate env.regExp intent policy) ↔
      RulesDecide env policy := by
  have hfilled := @defaultAction_filled (some .allow) _ hnone
  dsimp only
  simp only [evaluate_eq, filled_rules, hfilled, hnone]
  unfold RulesDecide
  rw [compilePolicy_eq, hnone]
  cases policy.rules.mapM (compileRule env.regExp) with
  | error message => exact iff_of_true (fun _ _ _ _ => rfl) nofun
  | ok rules =>
      have hne : PolicyAction.allow ≠ PolicyAction.deny := by decide
      constructor
      · intro h compiled hcompiled uuid capability input options
        cases hcompiled
        exact (evaluateCompiled_iff hne).mp (Except.ok.inj (h uuid capability input options))
      · intro h uuid capability input options
        exact congrArg Except.ok ((evaluateCompiled_iff hne).mpr (h _ rfl uuid capability input options))

/-- **Both documents decide alike exactly when the default does not matter.** -/
theorem evaluate_filled_iff :
    (∀ uuid capability input options,
      let intent := MapInstance.buildIntent env uuid capability input options
      evaluate env.regExp intent (filled defaultAction policy) = evaluate env.regExp intent policy) ↔
      DefaultSettled env defaultAction policy := by
  by_cases hown : policy.defaultAction = none
  · by_cases hallow : defaultAction = some .allow
    · subst hallow
      rw [evaluate_allow_iff hown]
      simp [DefaultSettled, hown]
    · -- what is filled in is what the evaluation falls back to
      have hdefault : (filled defaultAction policy).defaultAction.getD .deny =
          policy.defaultAction.getD .deny := by
        rw [defaultAction_filled hown, hown]
        cases defaultAction with
        | none => rfl
        | some action =>
            cases action with
            | allow => exact absurd rfl hallow
            | deny => rfl
      dsimp only
      simp only [evaluate_eq, filled_rules]
      rw [hdefault]
      exact iff_of_true (fun _ _ _ _ => rfl) (.inr (.inl hallow))
  · rw [filled_of_own hown]
    exact iff_of_true (fun _ _ _ _ => rfl) (.inl hown)

theorem normalizeIntent_buildIntent (env : MapEnv) (uuid : Nat) (capability : String)
    (input : JsObject) (options : RunOptions) :
    ∃ capability' options', normalizeIntent (MapInstance.buildIntent env uuid capability input
      options) = MapInstance.buildIntent env uuid capability' input options' := by
  let requester := options.requester.getD (env.requester.getD ⟨.service, "default", none⟩)
  refine ⟨trim (toLowerCase capability), { options with
    requester := some { requester with
      id := trim requester.id, tenantId := requester.tenantId.map trim } }, ?_⟩
  rfl

end

/-- **A policy means the same however it is installed exactly when its default is settled.** -/
theorem policies_agree_iff (env : MapEnv) (files : PolicyFiles)
    (defaultAction : Option SimpleDefault) (policy : PolicyDocument) {path : String}
    (hfile : files.read path = .ok policy) :
    (∀ m m', Installed files defaultAction policy m → Installed files defaultAction policy m' →
        SameDecisions env m m') ↔
      DefaultSettled env defaultAction policy := by
  rw [← evaluate_filled_iff]
  constructor
  · intro h uuid capability input options
    have hfromFile : MapInstance.new files ⟨some (.path path), defaultAction⟩ 0 =
        .ok (MapInstance.init (filled defaultAction policy) 0) := by
      unfold MapInstance.new loadPolicy
      dsimp only
      rw [if_neg (path_ne_empty hfile), hfile]
      rfl
    -- the instance from the file has the filled document, the inline one the document as it is
    exact (h _ _ (.file hfile hfromFile) (@Installed.inline _ _ _ 0 _ rfl)).check uuid capability input
      options
  · intro h m m' hm hm'
    obtain ⟨hexecutor, hpolicy⟩ := hm.policy_eq
    obtain ⟨hexecutor', hpolicy'⟩ := hm'.policy_eq
    have hsame : ∀ uuid capability input options,
        evaluate env.regExp (MapInstance.buildIntent env uuid capability input options) m.policyDoc =
          evaluate env.regExp (MapInstance.buildIntent env uuid capability input options)
            m'.policyDoc := by
      intro uuid capability input options
      have hfilled := h uuid capability input options
      rcases hpolicy with hpolicy | hpolicy <;> rcases hpolicy' with hpolicy' | hpolicy' <;>
        rw [hpolicy, hpolicy']
      · exact hfilled.symm
      · exact hfilled
    refine ⟨hsame, fun uuid capability input options => ?_⟩
    obtain ⟨capability', options', hnormal⟩ :=
      normalizeIntent_buildIntent env uuid capability input options
    unfold MapInstance.decision
    rw [hexecutor, hexecutor', hnormal]
    exact hsame uuid capability' input options'

/-- A document without rules and without a default, and the file that holds it. -/
def barePolicy : PolicyDocument := ⟨[], none⟩

def bareFiles : PolicyFiles where
  read path := if path = "policy.json" then .ok barePolicy else .error "ENOENT"
  noName    := ⟨"ENOENT", rfl⟩

def bareEnv : MapEnv :=
  ⟨none, false, false, fun _ => .error "Invalid regular expression", fun _ => "id"⟩

theorem policies_agree_iff_sample :
    bareFiles.read "policy.json" = .ok barePolicy ∧
      ((∀ m m', Installed bareFiles (some .deny) barePolicy m →
          Installed bareFiles (some .deny) barePolicy m' → SameDecisions bareEnv m m') ↔
        DefaultSettled bareEnv (some .deny) barePolicy) :=
  ⟨rfl, policies_agree_iff bareEnv bareFiles (some .deny) barePolicy
    (show bareFiles.read "policy.json" = .ok barePolicy from rfl)⟩

/-- Read from its file at construction, the document allows everything; inline, it denies. -/
theorem policies_agree_fails :
    ¬ ∀ (env : MapEnv) (files : PolicyFiles) (defaultAction : Option SimpleDefault)
        (policy : PolicyDocument) (m m' : MapInstance),
      Installed files defaultAction policy m → Installed files defaultAction policy m' →
        SameDecisions env m m' := by
  intro h
  have hsame := (h bareEnv bareFiles (some .allow) barePolicy
    (MapInstance.init ⟨[], some .allow⟩ 0) (MapInstance.init barePolicy 0)
    (@Installed.file _ _ _ "policy.json" 0 _ rfl rfl)
    (@Installed.inline _ _ _ 0 _ rfl)).check 0 "db.read" [] ⟨none, none, none⟩
  have haction := congrArg (fun d => d.map PolicyDecision.action) hsame
  cases haction

end MapProtocol
