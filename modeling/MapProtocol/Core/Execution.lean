import MapProtocol.Core.Policy

/-!
# The executor

Validation and normalisation of an intent, and `Executor`. An `execute` call runs synchronously as
far as the adapter: it has then either rejected, or given the receipt of an intent it refuses, or
handed the input to the adapter. `Invocation` names these three.
-/

namespace MapProtocol

open Js

/-! ## Intents -/

def isLower (c : Char) : Bool := 'a' ≤ c && c ≤ 'z'

def isNameChar (c : Char) : Bool := isLower c || ('0' ≤ c && c ≤ '9') || c == '_' || c == '-'

/-- `[a-z][a-z0-9_-]*`. -/
def isSegment : List Char → Bool
  | []      => false
  | c :: cs => isLower c && cs.all isNameChar

/-- `^[a-z][a-z0-9_-]*(\.[a-z][a-z0-9_-]*)+(:[a-z0-9_-]+)?$`. -/
def isCapabilityName (capability : String) : Bool :=
  let name := capability.toList.takeWhile (· ≠ ':')
  let version := capability.toList.dropWhile (· ≠ ':')
  let segments := splitChars '.' name
  decide (2 ≤ segments.length) && segments.all isSegment &&
    match version with
    | []      => true
    | _ :: vs => !vs.isEmpty && vs.all isNameChar

def checkString (field : String) : JsValue → List ValidationError
  | .undefined => []
  | .str _     => []
  | _          => [⟨field, "must be string"⟩]

def checkEnvironment : JsValue → List ValidationError
  | .undefined => []
  | .str s     =>
      if s ∈ ["development", "staging", "production"] then []
      else [⟨"/constraints/environment", "must be equal to one of the allowed values"⟩]
  | _          =>
      [⟨"/constraints/environment", "must be string"⟩,
        ⟨"/constraints/environment", "must be equal to one of the allowed values"⟩]

def checkTimeout : JsValue → List ValidationError
  | .undefined => []
  | .num n     =>
      (if n.den = 1 then [] else [⟨"/constraints/timeout_ms", "must be integer"⟩]) ++
        (if n < 0 then [⟨"/constraints/timeout_ms", "must be >= 0"⟩] else [])
  | _          => [⟨"/constraints/timeout_ms", "must be integer"⟩]

def checkAmount : JsValue → List ValidationError
  | .undefined => []
  | .num _     => []
  | _          => [⟨"/constraints/max_amount", "must be number"⟩]

/-- The errors of `intent.schema.json`, where the types leave room for one. -/
def intentErrors (intent : Intent) : List ValidationError :=
  (if isCapabilityName intent.capability then []
    else [⟨"/capability",
      "must match pattern \"^[a-z][a-z0-9_-]*(\\.[a-z][a-z0-9_-]*)+(:[a-z0-9_-]+)?$\""⟩]) ++
  (if intent.requester.id = "" then [⟨"/requester/id", "must NOT have fewer than 1 characters"⟩]
    else []) ++
  match intent.constraints with
  | none   => []
  | some c => checkEnvironment c.environment ++ checkTimeout c.timeoutMs ++
      checkAmount c.maxAmount ++ checkString "/constraints/resource_id" c.resourceId

/-- `validate(intent)`. -/
def validateIntent (intent : Intent) : ValidationResult :=
  ⟨(intentErrors intent).isEmpty, intentErrors intent⟩

/-- `errors.map((e) => e.message).join(", ")`. -/
def joinMessages : List ValidationError → String
  | []      => ""
  | [e]     => e.message
  | e :: es => e.message ++ ", " ++ joinMessages es

/-- `normalize(intent)`. Risk levels are lower case already. -/
def normalizeIntent (intent : Intent) : Intent :=
  { intent with
    capability := trim (toLowerCase intent.capability)
    requester := { intent.requester with
      id := trim intent.requester.id
      tenantId := intent.requester.tenantId.map trim } }

/-! ## Valid capabilities -/

def isCapabilityChar (c : Char) : Bool := isNameChar c || c == '.' || c == ':'

theorem isSegment_chars {w : List Char} (h : isSegment w = true) :
    ∀ c ∈ w, isCapabilityChar c = true := by
  cases w with
  | nil => simp
  | cons d w =>
      simp only [isSegment, Bool.and_eq_true, List.all_eq_true] at h
      intro c hc
      rcases List.mem_cons.mp hc with rfl | hc
      · simp [isCapabilityChar, isNameChar, h.1]
      · simp [isCapabilityChar, h.2 c hc]

theorem isCapabilityName_chars {capability : String} (h : isCapabilityName capability = true) :
    ∀ c ∈ capability.toList, isCapabilityChar c = true := by
  simp only [isCapabilityName, Bool.and_eq_true, List.all_eq_true] at h
  obtain ⟨⟨-, hsegments⟩, hversion⟩ := h
  intro c hc
  rw [← List.takeWhile_append_dropWhile (p := (· ≠ ':')) (l := capability.toList)] at hc
  rcases List.mem_append.mp hc with hname | hrest
  · by_cases hdot : c = '.'
    · simp [isCapabilityChar, hdot]
    · obtain ⟨w, hw, hcw⟩ := mem_splitChars hdot hname
      exact isSegment_chars (hsegments w hw) c hcw
  · split at hversion
    · rename_i hnil
      rw [hnil] at hrest
      cases hrest
    · rename_i d vs hcons
      have hcolon := List.head?_dropWhile_not (· ≠ ':') capability.toList
      rw [hcons] at hcolon hrest
      simp only [Bool.and_eq_true, List.all_eq_true] at hversion
      rcases List.mem_cons.mp hrest with rfl | hc
      · have hc : c = ':' := by simpa using hcolon
        simp [isCapabilityChar, hc]
      · simp [isCapabilityChar, hversion.2 c hc]

theorem isCapabilityChar.normal {c : Char} (h : isCapabilityChar c = true) :
    c.toLower = c ∧ isWhiteSpace c = false := by
  have hbound : c ≤ 'z' := by
    simp only [isCapabilityChar, isNameChar, isLower, Bool.or_eq_true, Bool.and_eq_true,
      decide_eq_true_eq, beq_iff_eq] at h
    rcases h with (((((⟨-, h⟩ | ⟨-, h⟩) | rfl) | rfl) | rfl) | rfl)
    · exact h
    · exact Char.le_trans h (by decide)
    all_goals decide
  -- the code points up to that of `z` are few enough to look at each
  have hsmall : ∀ n < 123, isCapabilityChar (Char.ofNat n) = true →
      (Char.ofNat n).toLower = Char.ofNat n ∧ isWhiteSpace (Char.ofNat n) = false := by
    decide
  have hlt : c.toNat < 123 := Nat.lt_succ_of_le (UInt32.le_iff_toNat_le.mp hbound)
  have hc := hsmall c.toNat hlt
  rw [Char.ofNat_toNat] at hc
  exact hc h

theorem isCapabilityName_of_valid {intent : Intent} (h : (validateIntent intent).valid = true) :
    isCapabilityName intent.capability = true := by
  by_contra hname
  simp [validateIntent, intentErrors, hname] at h

theorem normalize_capability {capability : String} (h : isCapabilityName capability = true) :
    trim (toLowerCase capability) = capability := by
  have hchars := isCapabilityName_chars h
  have hlower : toLowerCase capability = capability := by
    have hmap : capability.toList.map Char.toLower = capability.toList.map id :=
      List.map_congr_left fun c hc => (isCapabilityChar.normal (hchars c hc)).1
    rw [toLowerCase, hmap, List.map_id, String.ofList_toList]
  rw [hlower]
  exact trim_eq_self fun c hc => (isCapabilityChar.normal (hchars c hc)).2

/-! ## Executing -/

/-- Where an `execute` call stands when it first waits: it rejected, it answered with a receipt, or
the adapter runs on the intent. -/
inductive Invocation where
  | rejected (message : String)
  | refused (receipt : CoreReceipt)
  | adapter (intent : Intent) (context : ExecutionContext)

structure Executor where
  policy      : PolicyDocument
  adapters    : OrderedMap String ExecutionAdapter
  signReceipt : Option (CoreReceipt → String)

namespace Executor

/-- `intent.metadata?.intent_id || generateId()`. -/
def intentId (intent : Intent) (generatedId : String) : String :=
  match intent.metadata with
  | some m => if m.intentId = "" then generatedId else m.intentId
  | none   => generatedId

def buildReceipt (executor : Executor) (now : Nat) (generatedId : String) (intent : Intent)
    (action : ReceiptAction) (status : ExecutionStatus) : CoreReceipt :=
  let id := intentId intent generatedId
  let receipt : CoreReceipt :=
    { receiptId := "receipt:" ++ id ++ ":" ++ toString now, intentId := id,
      capability := intent.capability, action := action, timestamp := toISOString now,
      status := status, signature := "" }
  match executor.signReceipt with
  | some sign => { receipt with signature := sign receipt }
  | none      => receipt

@[simp] theorem buildReceipt_action (executor : Executor) (now : Nat) (generatedId : String)
    (intent : Intent) (action : ReceiptAction) (status : ExecutionStatus) :
    (executor.buildReceipt now generatedId intent action status).action = action := by
  unfold buildReceipt
  dsimp only
  split <;> rfl

def executeNormalizedIntent (executor : Executor) (generatedId : String) (intent : Intent) :
    Invocation :=
  match executor.adapters.get intent.capability with
  | none         => .rejected ("No adapter for capability: " ++ intent.capability)
  | some adapter =>
      let validation := adapter.validate intent.input
      if validation.valid then
        .adapter intent ⟨intentId intent generatedId, intent.requester⟩
      else .rejected ("Invalid input: " ++ joinMessages validation.errors)

def execute (executor : Executor) (regExp : RegExpEngine) (now : Nat) (generatedId : String)
    (intent : Intent) : Invocation :=
  let validation := validateIntent intent
  if !validation.valid then .rejected ("Invalid intent: " ++ joinMessages validation.errors)
  else
    let normalizedIntent := normalizeIntent intent
    match evaluate regExp normalizedIntent executor.policy with
    | .error message => .rejected message
    | .ok decision   =>
        match decision.action with
        | .deny            => .refused (executor.buildReceipt now generatedId normalizedIntent
            .denied .error)
        | .requireApproval => .refused (executor.buildReceipt now generatedId normalizedIntent
            .approvalRequired .error)
        | _                => executor.executeNormalizedIntent generatedId normalizedIntent

def executeApproved (executor : Executor) (generatedId : String) (intent : Intent) : Invocation :=
  let validation := validateIntent intent
  if !validation.valid then .rejected ("Invalid intent: " ++ joinMessages validation.errors)
  else executor.executeNormalizedIntent generatedId (normalizeIntent intent)

end Executor

/-! ## What reaches the adapter -/

/-- The three ways a decision is acted on. Both executors take any action other than `deny` and
`require_approval` for permission. -/
inductive Gate where
  | denied
  | approval
  | passed
  deriving DecidableEq, Repr

def PolicyAction.gate : PolicyAction → Gate
  | .deny            => .denied
  | .requireApproval => .approval
  | _                => .passed

/-- The policy lets the intent reach the adapter without an approval. -/
def Passes (regExp : RegExpEngine) (policy : PolicyDocument) (intent : Intent) : Prop :=
  ∃ decision, evaluate regExp intent policy = .ok decision ∧ decision.action.gate = .passed

/-- What the adapter is run on, where it is. -/
def Invocation.executed : Invocation → Option (Intent × ExecutionContext)
  | .adapter intent context => some (intent, context)
  | _                       => none

namespace Executor

/-- The decision that `execute` acts on, where it comes to one. -/
def decision (regExp : RegExpEngine) (policy : PolicyDocument) (intent : Intent) : Option Gate :=
  if (validateIntent intent).valid then
    match evaluate regExp (normalizeIntent intent) policy with
    | .ok decision => some decision.action.gate
    | .error _     => none
  else none

/-- What `execute` comes to, by its decision. -/
def actOn (executor : Executor) (now : Nat) (generatedId message : String) (intent : Intent) :
    Option Gate → Invocation
  | none           => .rejected message
  | some .denied   => .refused (executor.buildReceipt now generatedId intent .denied .error)
  | some .approval =>
      .refused (executor.buildReceipt now generatedId intent .approvalRequired .error)
  | some .passed   => executor.executeNormalizedIntent generatedId intent

theorem execute_eq (executor : Executor) (regExp : RegExpEngine) (now : Nat)
    (generatedId : String) (intent : Intent) :
    ∃ message, executor.execute regExp now generatedId intent =
      executor.actOn now generatedId message (normalizeIntent intent)
        (decision regExp executor.policy intent) := by
  unfold execute decision
  cases hvalid : (validateIntent intent).valid with
  | false => exact ⟨_, by simp only [hvalid]; rfl⟩
  | true =>
      cases heval : evaluate regExp (normalizeIntent intent) executor.policy with
      | error message => exact ⟨message, by simp [hvalid, heval, actOn]⟩
      | ok decision =>
          refine ⟨"", ?_⟩
          cases haction : decision.action <;>
            simp [hvalid, heval, haction, actOn, PolicyAction.gate]

theorem execute_executed (executor : Executor) (regExp : RegExpEngine) (now : Nat)
    (generatedId : String) (intent : Intent) :
    (executor.execute regExp now generatedId intent).executed =
      if decision regExp executor.policy intent = some .passed then
        (executor.executeNormalizedIntent generatedId (normalizeIntent intent)).executed
      else none := by
  obtain ⟨message, heq⟩ := executor.execute_eq regExp now generatedId intent
  rw [heq]
  match decision regExp executor.policy intent with
  | none           => rfl
  | some .denied   => rfl
  | some .approval => rfl
  | some .passed   => rfl

theorem executeNormalizedIntent_adapter {executor : Executor} {generatedId : String}
    {intent handed : Intent} {context : ExecutionContext}
    (h : executor.executeNormalizedIntent generatedId intent = .adapter handed context) :
    handed = intent := by
  unfold executeNormalizedIntent at h
  split at h
  · cases h
  · dsimp only at h
    split at h
    · exact (Invocation.adapter.inj h).1.symm
    · cases h

/-- What `execute` hands to the adapter has passed the policy. -/
theorem execute_adapter {executor : Executor} {regExp : RegExpEngine} {now : Nat}
    {generatedId : String} {intent handed : Intent} {context : ExecutionContext}
    (h : executor.execute regExp now generatedId intent = .adapter handed context) :
    Passes regExp executor.policy handed := by
  have hexecuted := execute_executed executor regExp now generatedId intent
  rw [h] at hexecuted
  split at hexecuted
  · rename_i hpassed
    cases hrun : executor.executeNormalizedIntent generatedId (normalizeIntent intent) with
    | rejected message => simp [hrun, Invocation.executed] at hexecuted
    | refused receipt => simp [hrun, Invocation.executed] at hexecuted
    | adapter run context' =>
        obtain rfl : handed = run := by
          simpa [hrun, Invocation.executed] using congrArg (Option.map Prod.fst) hexecuted
        obtain rfl := executeNormalizedIntent_adapter hrun
        unfold decision at hpassed
        split at hpassed
        · split at hpassed
          · rename_i decision heval
            exact ⟨decision, heval, Option.some.inj hpassed⟩
          · cases hpassed
        · cases hpassed
  · cases hexecuted

end Executor

end MapProtocol
