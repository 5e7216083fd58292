import MapProtocol.Lib.Transition
import MapProtocol.Protocol.Types
import MapProtocol.ControlPlane.TaskStore
import MapProtocol.Security.Wire

/-!
# Delegation tokens at a micro-agent

`BaseMicroAgent.invoke` asks for a delegation token that is signed, not expired, not used before for
the task, and that binds the call. A use is remembered under the text of the signature and the task,
until the token expires. Two things go wrong. A signature has many texts, so a token that is written
another way is new. And a use is remembered before the binding of the token is checked, so a call
that is refused uses the token up (`token_reused_and_used_up`). Where neither happens, a token
authorises a task once (`token_used_once`).
-/

namespace MapProtocol

open Js Transition Wire

/-- What a micro-agent takes from outside. -/
structure MicroAgentEnv where
  /-- What the schema has against a token. -/
  validateDelegationToken : Record → Option String
  /-- `Date.parse`; `none` is `NaN`. -/
  parseDate               : String → Option Int
  localeCompare           : String → String → Int

/-- A call of `invoke`, at the time that `Date.now()` tells and with the signing keys of that time. The
token is the one that the schema validation leaves: it strips what the schema does not name. -/
structure InvokeCall where
  now      : Int
  config   : SigningConfig
  agentId  : String
  token    : Record
  envelope : TaskEnvelope

inductive AuthorizationError where
  | invalidToken (text : String)
  | subject
  | signature
  | expired
  | replay
  | noCapability
  | action (name : String)
  | scope
  | noRequester
  | requester
  | tenant
  deriving DecidableEq, Repr

def AuthorizationError.message : AuthorizationError → String
  | .invalidToken text => "Invalid MAP delegation token: " ++ text
  | .subject           => "Delegation token subject does not match target micro-agent."
  | .signature         => "Delegation token signature is invalid."
  | .expired           => "Delegation token is expired or invalid."
  | .replay            => "Delegation token replay detected."
  | .noCapability      => "Missing capability binding in task envelope metadata."
  | .action name       => "Delegation token does not allow action: " ++ name
  | .scope             => "Delegation token resource scope does not match task constraints."
  | .noRequester       => "Delegation token requester identity is missing."
  | .requester         => "Delegation token requester identity does not match task requester."
  | .tenant            => "Delegation token tenant scope does not match task tenant."

/-- `envelope.constraints` as an object. -/
def TaskConstraints.toJs (constraints : TaskConstraints) : JsObject :=
  (constraints.common.toList.map fun common => ("common", JsValue.obj common)) ++
    constraints.domain.toList.map fun domain => ("domain", JsValue.obj domain)

/-- The text of a signature; a validated token has one. -/
def signatureText (token : Record) : String := ((field token "signature").asString).getD ""

/-- What the signature of a token is made over. -/
def signedContent (token : Record) : String := stableStringify (tokenSigningPayload token)

def InvokeCall.replayKey (call : InvokeCall) : String :=
  signatureText call.token ++ ":" ++ call.envelope.taskId

namespace MicroAgentEnv

variable (env : MicroAgentEnv)

mutual

/-- `stableStringify(value)`; `none` is `undefined`. -/
def stableText : JsValue → Option String
  | .arr xs => some ("[" ++ commaSeparated (stableElements xs) ++ "]")
  | .obj es =>
      some ("\x7b" ++ commaSeparated (((stableMembers es).mergeSort fun a b =>
        decide (env.localeCompare a.1 b.1 ≤ 0)).map fun e => quote e.1 ++ ":" ++ e.2) ++ "\x7d")
  | v => stringify? v

def stableElements : List JsValue → List String
  | []      => []
  | v :: vs => (stableText v).getD "" :: stableElements vs

def stableMembers : List (String × JsValue) → List (String × String)
  | []           => []
  | (k, v) :: es => (k, (stableText v).getD "undefined") :: stableMembers es

end

def scopeMatches (scope constraints : JsValue) : Bool :=
  env.stableText scope == env.stableText constraints

/-- `Date.parse(token.constraints.expires_at)`. -/
def tokenExpiry (token : Record) : Option Int :=
  (((field token "constraints").property "expires_at").asString).bind env.parseDate

/-- The checks before the replay check; they give the time at which the token expires. -/
def checkToken (call : InvokeCall) : Except AuthorizationError Int :=
  match env.validateDelegationToken call.token with
  | some text => .error (.invalidToken text)
  | none      =>
      if !(field call.token "subject_agent").strictEquals (.str call.agentId) then .error .subject
      else if !verifyDelegationTokenSignature call.config call.token then .error .signature
      else match env.tokenExpiry call.token with
        | none           => .error .expired
        | some expiresAt => if expiresAt ≤ call.now then .error .expired else .ok expiresAt

/-- The checks after it. -/
def checkBinding (call : InvokeCall) : Except AuthorizationError Unit :=
  let action := toText ((call.envelope.meta "capability").orElse (.str ""))
  let tokenRequester := field call.token "requester_identity"
  let requester := call.envelope.requesterIdentity
  if action = "" then .error .noCapability
  else if !(match field call.token "allowed_actions" with
      | .arr actions => actions.any fun allowed => allowed.strictEquals (.str action)
      | _            => false) then .error (.action action)
  else if !env.scopeMatches (field call.token "resource_scope")
      (.obj call.envelope.constraints.toJs) then .error .scope
  else if !tokenRequester.truthy then .error .noRequester
  else if !((tokenRequester.property "type").strictEquals (.str requester.type.text) &&
      (tokenRequester.property "id").strictEquals (.str requester.id)) then .error .requester
  else if TaskStore.resolveTenantId (tokenRequester.property "tenant_id").asString ≠
      TaskStore.resolveTenantId requester.tenantId then .error .tenant
  else .ok ()

def cleanupSeenTokenUses (now : Int) (seen : OrderedMap String Int) : OrderedMap String Int :=
  seen.filter fun expiresAt => decide (now < expiresAt)

/-- Whether a call is authorised, and the uses that are remembered after it. -/
def assertAuthorized (call : InvokeCall) (seenTokenUses : OrderedMap String Int) :
    Except AuthorizationError Unit × OrderedMap String Int :=
  match env.checkToken call with
  | .error e      => (.error e, seenTokenUses)
  | .ok expiresAt =>
      let seen := cleanupSeenTokenUses call.now seenTokenUses
      match seen.get call.replayKey with
      | some _ => (.error .replay, seen)
      | none   => (env.checkBinding call, seen.set call.replayKey expiresAt)

end MicroAgentEnv

/-! ## Runs -/

structure InvokeAttempt where
  call    : InvokeCall
  outcome : Except AuthorizationError Unit

/-- What the process remembers, and the calls so far in their order. -/
structure TokenUses where
  seen    : OrderedMap String Int
  history : List InvokeAttempt

def TokenUses.start : TokenUses := ⟨.empty, []⟩

namespace MicroAgentEnv

variable (env : MicroAgentEnv)

def invoke (s : TokenUses) (call : InvokeCall) : TokenUses :=
  let (outcome, seen) := env.assertAuthorized call s.seen
  ⟨seen, s.history ++ [⟨call, outcome⟩]⟩

/-- The two calls use one token for one task. -/
def SameUse (first later : InvokeCall) : Prop :=
  signedContent first.token = signedContent later.token ∧
    first.envelope.taskId = later.envelope.taskId

/-- Of two authorised calls that use one token for one task, the later comes when it has expired. -/
def UsedOnce (history : List InvokeAttempt) : Prop :=
  history.Pairwise fun first later =>
    first.outcome = .ok () → later.outcome = .ok () → SameUse first.call later.call →
      ∀ expiresAt, env.tokenExpiry first.call.token = some expiresAt → expiresAt ≤ later.call.now

/-- A call that is refused as a replay repeats a call that was authorised. -/
def RefusedNeverBlocks (history : List InvokeAttempt) : Prop :=
  ∀ before inv after, history = before ++ inv :: after → inv.outcome = .error .replay →
    ∃ first ∈ before, first.outcome = .ok () ∧ first.call.replayKey = inv.call.replayKey

/-- The call does not come before one that was made. -/
def Later (s : TokenUses) (call : InvokeCall) : Prop := ∀ inv ∈ s.history, inv.call.now ≤ call.now

/-- The token of a call has the signature text that it was used with for the task, and a call whose
use would be remembered passes the other checks too. -/
structure Regular (s : TokenUses) (call : InvokeCall) : Prop where
  spelled : ∀ expiresAt, env.checkToken call = .ok expiresAt → env.checkBinding call = .ok () →
    ∀ first ∈ s.history, first.outcome = .ok () → SameUse first.call call →
      ∀ firstExpires, env.tokenExpiry first.call.token = some firstExpires →
        call.now < firstExpires → signatureText first.call.token = signatureText call.token
  bound   : ∀ expiresAt, env.checkToken call = .ok expiresAt →
    (s.seen.get call.replayKey).all (fun e => decide (e ≤ call.now)) = true →
      env.checkBinding call = .ok ()

variable {env}

theorem tokenExpiry_of_checkToken {call : InvokeCall} {expiresAt : Int}
    (h : env.checkToken call = .ok expiresAt) : env.tokenExpiry call.token = some expiresAt := by
  unfold checkToken at h
  split at h
  · cases h
  · split at h
    · cases h
    · split at h
      · cases h
      · split at h
        · cases h
        · rename_i hexpiry
          split at h
          · cases h
          · cases h
            exact hexpiry

theorem get_cleanupSeenTokenUses {now : Int} {seen : OrderedMap String Int} {key : String} {e : Int} :
    (cleanupSeenTokenUses now seen).get key = some e ↔ seen.get key = some e ∧ now < e := by
  unfold cleanupSeenTokenUses
  rw [OrderedMap.get_filter, Option.filter_eq_some_iff, decide_eq_true_iff]

/-- What a call does: it is refused before the replay check, or by it, or it is remembered. -/
theorem assertAuthorized_cases (call : InvokeCall) (seen : OrderedMap String Int) :
    (∃ e, env.checkToken call = .error e ∧ env.assertAuthorized call seen = (.error e, seen)) ∨
    (∃ expiresAt e, env.checkToken call = .ok expiresAt ∧
      seen.get call.replayKey = some e ∧ call.now < e ∧
        env.assertAuthorized call seen = (.error .replay, cleanupSeenTokenUses call.now seen)) ∨
    ∃ expiresAt, env.checkToken call = .ok expiresAt ∧
      (∀ e, seen.get call.replayKey = some e → e ≤ call.now) ∧
        env.assertAuthorized call seen = (env.checkBinding call,
          (cleanupSeenTokenUses call.now seen).set call.replayKey expiresAt) := by
  unfold assertAuthorized
  cases hcheck : env.checkToken call with
  | error e => exact .inl ⟨e, rfl, rfl⟩
  | ok expiresAt =>
      right
      dsimp only
      cases hseen : (cleanupSeenTokenUses call.now seen).get call.replayKey with
      | some e =>
          obtain ⟨hget, hlive⟩ := get_cleanupSeenTokenUses.mp hseen
          exact .inl ⟨expiresAt, e, rfl, hget, hlive, rfl⟩
      | none =>
          refine .inr ⟨expiresAt, rfl, fun e hget => ?_, rfl⟩
          by_contra hlive
          -- what the cleaning dropped has expired
          rw [get_cleanupSeenTokenUses.mpr ⟨hget, Int.not_le.mp hlive⟩] at hseen
          cases hseen

/-- What is remembered are the uses that were authorised, and those are remembered until their token
expires. -/
structure Remembers (env : MicroAgentEnv) (s : TokenUses) : Prop where
  authorised : ∀ key e, s.seen.get key = some e →
    ∃ inv ∈ s.history, inv.outcome = .ok () ∧ inv.call.replayKey = key
  kept       : ∀ inv ∈ s.history, inv.outcome = .ok () →
    ∀ now, (∀ other ∈ s.history, other.call.now ≤ now) →
      ∀ expiresAt, env.tokenExpiry inv.call.token = some expiresAt →
        expiresAt ≤ now ∨ s.seen.get inv.call.replayKey = some expiresAt
  once       : env.UsedOnce s.history
  blocks     : RefusedNeverBlocks s.history

theorem refusedNeverBlocks_append {history : List InvokeAttempt} {inv : InvokeAttempt}
    (h : RefusedNeverBlocks history) (hinv : inv.outcome = .error .replay →
      ∃ first ∈ history, first.outcome = .ok () ∧ first.call.replayKey = inv.call.replayKey) :
    RefusedNeverBlocks (history ++ [inv]) := by
  intro before later after heq hreplay
  rcases List.eq_nil_or_concat after with rfl | ⟨after', last, rfl⟩
  · obtain ⟨rfl, hlast⟩ := List.append_inj' heq rfl
    cases hlast
    exact hinv hreplay
  · rw [List.concat_eq_append, ← List.cons_append, ← List.append_assoc] at heq
    obtain ⟨hhistory, -⟩ := List.append_inj' heq rfl
    exact h before later after' hhistory hreplay

theorem usedOnce_append {history : List InvokeAttempt} {inv : InvokeAttempt} (h : env.UsedOnce history)
    (hinv : inv.outcome = .ok () → ∀ first ∈ history, first.outcome = .ok () →
      SameUse first.call inv.call → ∀ expiresAt,
        env.tokenExpiry first.call.token = some expiresAt → expiresAt ≤ inv.call.now) :
    env.UsedOnce (history ++ [inv]) := by
  unfold UsedOnce
  rw [List.pairwise_append]
  refine ⟨h, List.pairwise_singleton _ _, fun first hfirst later hlater hok hlaterok => ?_⟩
  obtain rfl := List.mem_singleton.mp hlater
  exact hinv hlaterok first hfirst hok

theorem forall_now_append {history : List InvokeAttempt} {inv : InvokeAttempt} {now : Int} :
    (∀ other ∈ history ++ [inv], other.call.now ≤ now) ↔
      (∀ other ∈ history, other.call.now ≤ now) ∧ inv.call.now ≤ now := by
  simp [or_imp, forall_and]

/-- A call keeps the invariant if it forgets only what has expired, and remembers only itself and only
where it is authorised. -/
theorem remembers_append {s : TokenUses} (h : Remembers env s) {inv : InvokeAttempt}
    {seen : OrderedMap String Int}
    (hseen : ∀ key e, seen.get key = some e →
      s.seen.get key = some e ∨ inv.outcome = .ok () ∧ inv.call.replayKey = key)
    (hkept : ∀ key e, s.seen.get key = some e → e ≤ inv.call.now ∨ seen.get key = some e)
    (hnew : inv.outcome = .ok () → ∀ expiresAt, env.tokenExpiry inv.call.token = some expiresAt →
      seen.get inv.call.replayKey = some expiresAt)
    (honce : inv.outcome = .ok () → ∀ first ∈ s.history, first.outcome = .ok () →
      SameUse first.call inv.call → ∀ expiresAt,
        env.tokenExpiry first.call.token = some expiresAt → expiresAt ≤ inv.call.now)
    (hblocks : inv.outcome = .error .replay →
      ∃ first ∈ s.history, first.outcome = .ok () ∧ first.call.replayKey = inv.call.replayKey) :
    Remembers env ⟨seen, s.history ++ [inv]⟩ where
  authorised := by
    intro key e hget
    rcases hseen key e hget with hold | ⟨hok, hkey⟩
    · obtain ⟨first, hfirst, hok, hkey⟩ := h.authorised key e hold
      exact ⟨first, List.mem_append_left _ hfirst, hok, hkey⟩
    · exact ⟨inv, List.mem_append_right _ (List.mem_singleton_self _), hok, hkey⟩
  kept := by
    intro other hother hok now hall expiresAt hexpires
    obtain ⟨hpast, hnow⟩ := forall_now_append.mp hall
    rcases List.mem_append.mp hother with hold | hlast
    · rcases h.kept other hold hok now hpast expiresAt hexpires with hexpired | hget
      · exact .inl hexpired
      · exact (hkept _ _ hget).imp_left fun hle => Int.le_trans hle hnow
    · obtain rfl := List.mem_singleton.mp hlast
      exact .inr (hnew hok expiresAt hexpires)
  once := usedOnce_append h.once honce
  blocks := refusedNeverBlocks_append h.blocks hblocks

theorem checkToken_ne_replay (call : InvokeCall) : env.checkToken call ≠ .error .replay := by
  intro h
  unfold checkToken at h
  repeat' split at h
  all_goals cases h

theorem remembers_invoke {s : TokenUses} {call : InvokeCall} (h : Remembers env s)
    (hstep : Later s call ∧ env.Regular s call) : Remembers env (env.invoke s call) := by
  obtain ⟨hlater, hregular⟩ := hstep
  unfold invoke
  rcases @assertAuthorized_cases env call s.seen with
    ⟨e, hcheck, hcall⟩ | ⟨expiresAt, e, hcheck, hget, hlive, hcall⟩ | ⟨expiresAt, hcheck, hfree, hcall⟩
  · -- refused before the replay check
    rw [hcall]
    refine remembers_append h (fun _ _ hget => .inl hget) (fun _ _ hget => .inr hget)
      (fun hok => nomatch hok) (fun hok => nomatch hok) (fun hreplay => ?_)
    cases hreplay
    exact absurd hcheck (checkToken_ne_replay call)
  · -- refused as a replay
    rw [hcall]
    refine remembers_append h (fun _ _ hget => .inl (get_cleanupSeenTokenUses.mp hget).1)
      (fun key e hget => ?_) (fun hok => nomatch hok) (fun hok => nomatch hok) (fun _ => ?_)
    · by_cases hlive : call.now < e
      · exact .inr (get_cleanupSeenTokenUses.mpr ⟨hget, hlive⟩)
      · exact .inl (Int.not_lt.mp hlive)
    · exact h.authorised _ e hget
  · -- remembered, and so authorised
    have hbound : env.checkBinding call = .ok () := by
      refine hregular.bound expiresAt hcheck ?_
      cases hseen : s.seen.get call.replayKey with
      | none => rfl
      | some e => exact decide_eq_true (hfree e hseen)
    rw [hcall, hbound]
    refine remembers_append h (fun key e hget => ?_) (fun key e hget => ?_) (fun _ e he => ?_)
      (fun _ first hfirst hok hsame e he => ?_) (fun hreplay => nomatch hreplay)
    · rw [OrderedMap.get_set] at hget
      split at hget
      · rename_i hkey
        exact .inr ⟨rfl, hkey⟩
      · exact .inl (get_cleanupSeenTokenUses.mp hget).1
    · by_cases hlive : call.now < e
      · have hkey : call.replayKey ≠ key := by
          rintro rfl
          exact Int.not_lt.mpr (hfree e hget) hlive
        rw [OrderedMap.get_set_ne _ hkey]
        exact .inr (get_cleanupSeenTokenUses.mpr ⟨hget, hlive⟩)
      · exact .inl (Int.not_lt.mp hlive)
    · rw [tokenExpiry_of_checkToken hcheck] at he
      rw [OrderedMap.get_set, if_pos rfl, he]
    · -- a use that is still remembered has another key, so it is spelled another way
      by_contra hlive
      have hlive : call.now < e := Int.not_le.mp hlive
      have htext := hregular.spelled expiresAt hcheck hbound first hfirst hok hsame e he hlive
      have hkey : first.call.replayKey = call.replayKey := by
        unfold InvokeCall.replayKey
        rw [htext, hsame.2]
      rcases h.kept first hfirst hok call.now hlater e he with hpast | hget
      · exact Int.not_lt.mpr hpast hlive
      · exact Int.not_lt.mpr (hfree e (hkey ▸ hget)) hlive

theorem remembers_start : Remembers env .start where
  authorised := fun _ _ h => nomatch h
  kept := fun _ h => nomatch h
  once := List.Pairwise.nil
  blocks := fun before inv after h => by simp [TokenUses.start] at h

/-- **A token authorises a task once**, as long as tokens are not written another way and each use that
is remembered is authorised. -/
theorem token_used_once (env : MicroAgentEnv) (calls : List InvokeCall)
    (h : StepsMeet env.invoke (fun s call => Later s call ∧ env.Regular s call) .start calls) :
    env.UsedOnce (run env.invoke .start calls).history ∧
      RefusedNeverBlocks (run env.invoke .start calls).history := by
  have hremembers := run_invariant (I := Remembers env) (fun s call hs hc => remembers_invoke hs hc)
    remembers_start h
  exact ⟨hremembers.once, hremembers.blocks⟩

/-! ## A token written another way, and a token used up -/

theorem bytesOfBase64url_padded (text : String) :
    bytesOfBase64url (text ++ "=") = bytesOfBase64url text := by
  have hpadding : base64Value '=' = none := by decide
  unfold bytesOfBase64url
  rw [String.toList_append, List.filterMap_append]
  simp [hpadding]

theorem invoke_of_free {s : TokenUses} {call : InvokeCall} {expiresAt : Int}
    (hcheck : env.checkToken call = .ok expiresAt)
    (hfree : (cleanupSeenTokenUses call.now s.seen).get call.replayKey = none) :
    env.invoke s call = ⟨(cleanupSeenTokenUses call.now s.seen).set call.replayKey expiresAt,
      s.history ++ [⟨call, env.checkBinding call⟩]⟩ := by
  unfold invoke assertAuthorized
  rw [hcheck]
  dsimp only
  rw [hfree]

theorem invoke_of_seen {s : TokenUses} {call : InvokeCall} {expiresAt e : Int}
    (hcheck : env.checkToken call = .ok expiresAt)
    (hseen : (cleanupSeenTokenUses call.now s.seen).get call.replayKey = some e) :
    env.invoke s call = ⟨cleanupSeenTokenUses call.now s.seen,
      s.history ++ [⟨call, .error .replay⟩]⟩ := by
  unfold invoke assertAuthorized
  rw [hcheck]
  dsimp only
  rw [hseen]

theorem eq_of_mem_first {call : InvokeCall} {inv : InvokeAttempt}
    (h : inv ∈ (env.invoke .start call).history) :
    inv = ⟨call, (env.assertAuthorized call .empty).1⟩ := by
  rcases List.mem_append.mp h with hold | hlast
  · cases hold
  · exact List.mem_singleton.mp hlast

def payEnv : MicroAgentEnv where
  validateDelegationToken := fun _ => none
  parseDate := fun text => if text = "1970-01-01T00:00:02.000Z" then some 2000 else none
  localeCompare := fun a b => if a = b then 0 else if a < b then -1 else 1

def payKey : SigningKey := ⟨"k1", .active, ["delegation_token"], .hmac "secret"⟩

/-- A token for payments, still unsigned. -/
def payToken : Record :=
  ⟨[("issuer", .str "shop"), ("subject_agent", .str "pay-agent"),
    ("allowed_actions", .arr [.str "pay"]), ("resource_scope", .obj [("common", .obj [])]),
    ("constraints", .obj [("common", .obj []), ("domain", .obj []),
      ("expires_at", .str "1970-01-01T00:00:02.000Z")]),
    ("requester_identity", .obj [("type", .str "user"), ("id", .str "u1")])], by decide⟩

/-- The signature of the token, and the same with padding. -/
def paySignature : String :=
  SigningConfig.signingInput payKey (signedContent payToken) ++ "." ++ base64urlOfBytes
    (SigningConfig.quotingCrypto.hmacSha256 "secret"
      (SigningConfig.signingInput payKey (signedContent payToken)))

/-- A call with the token for the task `t1`. -/
def payCall (signature capability : String) : InvokeCall where
  now := 1000
  config := SigningConfig.openConfig [payKey]
  agentId := "pay-agent"
  token := payToken.set "signature" (.str signature)
  envelope :=
    { taskId := "t1", orderId := none, parentTaskId := none, contextId := none
      requesterIdentity := ⟨.user, "u1", none⟩, targetAgent := "pay-agent", intent := "pay"
      constraints := ⟨some [], none⟩, riskClass := .low, deadline := none, delegationToken := ""
      requestedOutputMode := .summary, metadata := some [("capability", .str capability)]
      idempotencyToken := none, extensions := none }

theorem replayKey_payCall (signature capability : String) :
    (payCall signature capability).replayKey = signature ++ ":" ++ "t1" := rfl

theorem tokenExpiry_payCall (signature capability : String) :
    payEnv.tokenExpiry (payCall signature capability).token = some 2000 := rfl

theorem signedContent_payCall (signature capability : String) :
    signedContent (payCall signature capability).token = signedContent payToken := by
  unfold signedContent payCall
  rw [tokenSigningPayload_signature]

theorem sameUse_payCall (signature signature' capability : String) :
    SameUse (payCall signature capability) (payCall signature' capability) := by
  constructor
  · rw [signedContent_payCall, signedContent_payCall]
  · rfl

theorem checkToken_payCall {signature capability : String}
    (h : (SigningConfig.openConfig [payKey]).verifyCompactSignatureFromCanonical signature
      (signedContent payToken) (some .delegationToken) = true) :
    payEnv.checkToken (payCall signature capability) = .ok 2000 := by
  have hverify : verifyDelegationTokenSignature (SigningConfig.openConfig [payKey])
      (payToken.set "signature" (.str signature)) = true := by
    unfold verifyDelegationTokenSignature
    rw [field_set, if_pos rfl]
    dsimp only
    rw [tokenSigningPayload_delete, tokenSigningPayload_signature]
    exact h
  have hsubject : (field (payCall signature capability).token "subject_agent").strictEquals
      (.str (payCall signature capability).agentId) = true := rfl
  have hvalid : payEnv.validateDelegationToken (payCall signature capability).token = none := rfl
  unfold checkToken
  rw [hvalid]
  dsimp only
  rw [hsubject, if_neg (by simp), show verifyDelegationTokenSignature
    (payCall signature capability).config (payCall signature capability).token = true from hverify,
    if_neg (by simp), tokenExpiry_payCall]
  rfl

theorem checkBinding_payCall (signature : String) :
    payEnv.checkBinding (payCall signature "pay") = .ok () := by
  have hscope : payEnv.scopeMatches (field (payCall signature "pay").token "resource_scope")
      (.obj (payCall signature "pay").envelope.constraints.toJs) = true := beq_self_eq_true _
  unfold checkBinding
  rw [hscope]
  rfl

theorem checkBinding_refund (signature : String) :
    payEnv.checkBinding (payCall signature "refund") = .error (.action "refund") := rfl

/-- The second call with the token is refused as a replay of the first. -/
theorem token_used_once_paid :
    payEnv.UsedOnce (run payEnv.invoke .start
        [payCall paySignature "pay", payCall paySignature "pay"]).history ∧
      RefusedNeverBlocks (run payEnv.invoke .start
        [payCall paySignature "pay", payCall paySignature "pay"]).history := by
  refine token_used_once payEnv [payCall paySignature "pay", payCall paySignature "pay"]
    ⟨⟨(fun _ h => nomatch h), (fun _ _ _ _ h => nomatch h), fun _ _ _ => checkBinding_payCall _⟩,
      ⟨fun inv h => ?_, fun _ _ _ first h _ _ _ _ _ => ?_, fun _ _ _ => checkBinding_payCall _⟩,
      trivial⟩
  · obtain rfl := eq_of_mem_first h
    exact Int.le_refl _
  · obtain rfl := eq_of_mem_first h
    rfl

theorem verify_paySignature (padding : String) (h : padding = "" ∨ padding = "=") :
    (SigningConfig.openConfig [payKey]).verifyCompactSignatureFromCanonical
      (paySignature ++ padding) (signedContent payToken) (some .delegationToken) = true := by
  unfold paySignature
  rw [@String.append_assoc _ _ padding]
  refine Wire.verify_of_decoded rfl rfl (by decide) (by decide) ?_ ?_
  · rw [String.toList_append, List.mem_append, not_or]
    refine ⟨dot_notMem_base64urlOfBytes _, ?_⟩
    rcases h with rfl | rfl <;> decide
  · rcases h with rfl | rfl
    · rw [String.append_empty, bytesOfBase64url_base64urlOfBytes]
      rfl
    · rw [bytesOfBase64url_padded, bytesOfBase64url_base64urlOfBytes]
      rfl

theorem checkToken_paySignature (capability : String) :
    payEnv.checkToken (payCall paySignature capability) = .ok 2000 := by
  have h := verify_paySignature "" (.inl rfl)
  rw [String.append_empty] at h
  exact checkToken_payCall h

/-- The first call of a run. -/
theorem invoke_start (capability : String) :
    payEnv.invoke .start (payCall paySignature capability) =
      ⟨OrderedMap.empty.set (payCall paySignature capability).replayKey 2000,
        [⟨payCall paySignature capability,
          payEnv.checkBinding (payCall paySignature capability)⟩]⟩ :=
  invoke_of_free (checkToken_paySignature capability) rfl

/-- Padded, the signature authorises a second payment for the task. A call for something else, though
it is refused, leaves the payment refused as a replay. -/
theorem token_reused_and_used_up :
    ¬ payEnv.UsedOnce (run payEnv.invoke .start
        [payCall paySignature "pay", payCall (paySignature ++ "=") "pay"]).history ∧
      ¬ RefusedNeverBlocks (run payEnv.invoke .start
        [payCall paySignature "refund", payCall paySignature "pay"]).history := by
  constructor
  · have hkey : (payCall paySignature "pay").replayKey ≠
        (payCall (paySignature ++ "=") "pay").replayKey := by
      rw [replayKey_payCall, replayKey_payCall]
      intro heq
      have hlength := congrArg String.length heq
      simp only [String.length_append] at hlength
      exact absurd hlength (by simp)
    -- the spelling with padding is another key
    have hfree : (cleanupSeenTokenUses 1000
        (OrderedMap.empty.set (payCall paySignature "pay").replayKey 2000)).get
          (payCall (paySignature ++ "=") "pay").replayKey = none := by
      rw [Option.eq_none_iff_forall_not_mem]
      intro e he
      have hget := (get_cleanupSeenTokenUses.mp he).1
      rw [OrderedMap.get_set_ne _ hkey] at hget
      cases hget
    have hsecond := @invoke_of_free payEnv
      ⟨OrderedMap.empty.set (payCall paySignature "pay").replayKey 2000,
        [⟨payCall paySignature "pay", .ok ()⟩]⟩ _ _
      (checkToken_payCall (verify_paySignature "=" (.inr rfl))) hfree
    rw [run_cons, run_cons, run_nil, invoke_start, checkBinding_payCall, hsecond,
      checkBinding_payCall]
    intro h
    have hpair := (List.pairwise_cons.mp h).1 _ (List.mem_singleton_self _) rfl rfl
      (sameUse_payCall _ _ _) 2000 (tokenExpiry_payCall _ _)
    exact absurd hpair (by decide)
  · have hseen : (cleanupSeenTokenUses 1000
        (OrderedMap.empty.set (payCall paySignature "refund").replayKey 2000)).get
          (payCall paySignature "pay").replayKey = some 2000 :=
      get_cleanupSeenTokenUses.mpr ⟨by
        rw [replayKey_payCall, replayKey_payCall, OrderedMap.get_set, if_pos rfl], by decide⟩
    have hsecond := @invoke_of_seen payEnv
      ⟨OrderedMap.empty.set (payCall paySignature "refund").replayKey 2000,
        [⟨payCall paySignature "refund", .error (.action "refund")⟩]⟩ _ _ _
      (checkToken_paySignature "pay") hseen
    rw [run_cons, run_cons, run_nil, invoke_start, checkBinding_refund, hsecond]
    intro h
    obtain ⟨first, hfirst, hok, -⟩ := h [_] _ [] rfl rfl
    obtain rfl := List.mem_singleton.mp hfirst
    cases hok

end MicroAgentEnv

end MapProtocol
