import MapProtocol.ControlPlane.Runtime
import MapProtocol.Server.AdminRoutes

/-!
# The mutation routes

`POST /dispatch` and `POST /approve`. Both check the load, the tenant, the runtime controls and the
authentication, in this order, and then call the orchestrator. The two differ in what they are given
and in the metadata they add. Audit events and the subject that is logged with them are left out.
-/

namespace MapProtocol

open Js

inductive AuthScheme where
  | none
  | bearer
  | mtls
  | signedRequest
  | oauth2
  deriving DecidableEq, Repr

structure RateLimitDecision where
  allowed      : Bool
  retryAfterMs : Option Nat

/-- What the routes are given: the options of the server, the scheme that the registry holds for a
capability, the schema checks, the rate limiter and the depth of the queue. -/
structure MutationContext where
  enforceSignedRequests   : Bool
  enforceBearerAuth       : Bool
  requireTenant           : Bool
  capabilityScheme        : String → String → Option AuthScheme
  validateDispatchRequest : JsValue → Except String DispatchRequest
  validateApprovalRequest : JsValue → Except String ApprovalRequest
  checkMutationRateLimit  : Option String → RateLimitDecision
  asyncQueueMaxQueueDepth : Nat
  asyncQueueDepth         : Nat
  requestId               : String

structure Refusal where
  statusCode : Nat
  code       : String
  message    : String
  retryable  : Bool
  deriving DecidableEq, Repr

/-- A call of the orchestrator. -/
inductive Mutation where
  | dispatch (request : DispatchRequest)
  | approve (request : ApprovalRequest)

namespace Mutation

def envelope : Mutation → TaskEnvelope
  | .dispatch request => request.envelope
  | .approve request  => request.envelope

def capability : Mutation → String
  | .dispatch request => request.capability
  | .approve request  => request.capability

def withEnvelope (change : TaskEnvelope → TaskEnvelope) : Mutation → Mutation
  | .dispatch request => .dispatch { request with envelope := change request.envelope }
  | .approve request  => .approve { request with envelope := change request.envelope }

end Mutation

inductive MutationOutcome where
  | notHandled
  | refused (refusal : Refusal)
  | calls (mutation : Mutation)

def extractTenantId (value : JsValue) : Option String :=
  (nonBlankText (((value.property "envelope").property "requester_identity").property "tenant_id")).map
    trim

/-- The tenant of a request that passed its schema. -/
def tenantOfEnvelope (envelope : TaskEnvelope) : Option String :=
  (envelope.requesterIdentity.tenantId.filter fun tenantId => !isBlank tenantId).map trim

/-- `{ ...metadata, request_id, idempotency_key? }`. -/
def addMetadata (requestId : String) (idempotencyKey : Option String) (envelope : TaskEnvelope) :
    TaskEnvelope :=
  let identified := (envelope.metadata.getD []).set "request_id" (.str requestId)
  { envelope with
    metadata := some (match idempotencyKey with
      | some key => identified.set "idempotency_key" (.str key)
      | none     => identified) }

def getRequiredAuthScheme (ctx : MutationContext) (targetAgent capability : String) : AuthScheme :=
  (ctx.capabilityScheme targetAgent capability).getD .none

/-- Backpressure at nine tenths of the queue, and the rate limit. -/
def checkLoad (ctx : MutationContext) (tenantId : Option String) : Option Refusal :=
  if 0 < ctx.asyncQueueMaxQueueDepth ∧ 9 * ctx.asyncQueueMaxQueueDepth ≤ 10 * ctx.asyncQueueDepth then
    some ⟨429, "rate_limited", "Async queue is at critical capacity. Please retry later.", true⟩
  else if (ctx.checkMutationRateLimit tenantId).allowed then none
  else some ⟨429, "rate_limited", "Rate limit exceeded for MAP mutating requests.", true⟩

def checkTenant (ctx : MutationContext) (envelope : TaskEnvelope) : Option Refusal :=
  if ctx.requireTenant ∧ tenantOfEnvelope envelope = none then
    some ⟨400, "policy_denied", "tenant_id is required when strict tenant mode is enabled", false⟩
  else none

/-- The runtime controls: the agent first, then the capability. -/
def checkControls (controls : RuntimeControls) (targetAgent capability : String) : Option Refusal :=
  if controls.isAgentDisabled targetAgent then
    some ⟨403, "agent_disabled", "Target agent is disabled in runtime controls: " ++ targetAgent,
      false⟩
  else if controls.isCapabilityDisabled targetAgent capability then
    some ⟨403, "capability_disabled", "Capability is disabled in runtime controls: " ++ capability,
      false⟩
  else none

def authRefusal (error : AuthError) : Refusal :=
  ⟨if error.code = "auth_required" then 401 else 403, error.code, error.message, false⟩

namespace ServerEnv

variable (env : ServerEnv) (ctx : MutationContext)
variable {nonces : NonceCache} {now : Int} {req : IncomingMessage} {rawBody : String}
  {mutation : Mutation} {controls : RuntimeControls} {call : HttpCall}

def checkAuth (nonces : NonceCache) (controls : RuntimeControls) (call : HttpCall) (rawBody : String)
    (mutation : Mutation) : Except String (Option Refusal) :=
  let requiredAuthScheme :=
    if ctx.enforceSignedRequests then AuthScheme.signedRequest
    else getRequiredAuthScheme ctx mutation.envelope.targetAgent mutation.capability
  let requiresSignedRequest :=
    decide (requiredAuthScheme = .signedRequest) || wantsSignedRequestAuth call.request
  if ctx.enforceBearerAuth && !wantsSignedRequestAuth call.request &&
      decide (requiredAuthScheme ≠ .signedRequest) then
    (env.getBearerTokenError call.now call.request).map fun error => error.map authRefusal
  else if requiresSignedRequest then
    (env.getSignedRequestError nonces call.now call.request rawBody
      (env.getEffectiveRevokedKeyIds controls)).1.map fun error => error.map authRefusal
  else .ok none

/-- The checks of a mutation that passed its schema, and the call where they pass. -/
def admitMutation (nonces : NonceCache) (controls : RuntimeControls) (call : HttpCall)
    (rawBody : String) (idempotencyKey : Option String) (mutation : Mutation) :
    Except String MutationOutcome :=
  match checkTenant ctx mutation.envelope with
  | some refusal => .ok (.refused refusal)
  | none         =>
      match checkControls controls mutation.envelope.targetAgent mutation.capability with
      | some refusal => .ok (.refused refusal)
      | none         =>
          (env.checkAuth ctx nonces controls call rawBody mutation).map fun refusal =>
            match refusal with
            | some refusal => .refused refusal
            | none         =>
                .calls (mutation.withEnvelope (addMetadata ctx.requestId idempotencyKey))

/-- One of the two routes, with its schema check. -/
def runMutation (nonces : NonceCache) (controls : RuntimeControls) (call : HttpCall)
    (validate : JsValue → Except String Mutation) (idempotencyKey : Option String) :
    Except String MutationOutcome := do
  let body ← readJsonBody call.request
  match checkLoad ctx (extractTenantId body.parsed) with
  | some refusal => return .refused refusal
  | none         => do
      let mutation ← validate body.parsed
      env.admitMutation ctx nonces controls call body.raw idempotencyKey mutation

/-- The idempotency key of a dispatch; it is not trimmed. -/
def headerIdempotencyKey (req : IncomingMessage) : Option String :=
  (req.headers "x-map-idempotency-key").filter fun key => !isBlank key

def handleMutationRoutes (nonces : NonceCache) (controls : RuntimeControls) (call : HttpCall) :
    Except String MutationOutcome :=
  if call.request.method = some "POST" ∧ call.request.url = some "/dispatch" then
    env.runMutation ctx nonces controls call
      (fun parsed => (ctx.validateDispatchRequest parsed).map .dispatch)
      (headerIdempotencyKey call.request)
  else if call.request.method = some "POST" ∧ call.request.url = some "/approve" then
    env.runMutation ctx nonces controls call
      (fun parsed => (ctx.validateApprovalRequest parsed).map .approve) none
  else .ok .notHandled

/-! ## Who gets through -/

/-- A signed request is demanded: by the server, by the capability, or by what the request says of
itself. -/
def DemandsSignature (req : IncomingMessage) (mutation : Mutation) : Prop :=
  ctx.enforceSignedRequests = true ∨
    ctx.capabilityScheme mutation.envelope.targetAgent mutation.capability = some .signedRequest ∨
      wantsSignedRequestAuth req = true

/-- A request with a valid signature under a key id that is not revoked. -/
def ValidSignedRequest (now : Int) (req : IncomingMessage) (rawBody : String)
    (revokedKeyIds : List String) : Prop :=
  ∃ r, env.signedRequest req rawBody = some r ∧ r.payload.keyId ∉ revokedKeyIds ∧
    env.Fresh now r.payload.timestamp ∧ env.Authentic r

/-- A token of three parts whose payload has an `exp` that is not over. -/
def UnexpiredJwt (now : Int) (token : String) : Prop :=
  ∃ header encodedPayload signature payload exp, split token '.' = [header, encodedPayload, signature] ∧
    parse (fromUtf8 (bytesOfBase64url encodedPayload)) = some payload ∧
      (payload.property "exp").asNumber.or (env.toNumber (payload.property "exp")) = some exp ∧
        ((now / 1000 : Int) : Rat) ≤ exp

/-- A bearer token that equals the static token, or where none is configured, an unexpired JWT. -/
def ValidBearer (now : Int) (req : IncomingMessage) : Prop :=
  ∃ token, bearerText req = some token ∧ token ≠ "" ∧
    match env.staticToken.filter fun staticToken => !isBlank staticToken with
    | some staticToken => env.sha256 token = env.sha256 staticToken
    | none             => env.jwksUrl.any (fun url => url ≠ "") = true ∧ env.UnexpiredJwt now token

variable {env ctx}

theorem validSignedRequest_iff {revokedKeyIds : List String} :
    (env.getSignedRequestError nonces now req rawBody revokedKeyIds).1 = .ok none ↔
      env.ValidSignedRequest now req rawBody revokedKeyIds := getSignedRequestError_iff

theorem unexpiredJwt_of_ok {token : String} (h : env.jwtError now token = .ok none) :
    env.UnexpiredJwt now token := by
  unfold jwtError at h
  split at h
  · rename_i header encodedPayload signature hsplit
    split at h
    · cases h
    · cases h
    · rename_i payload _ hpayload
      dsimp only at h
      split at h
      · cases h
      · split at h
        · cases h
        · rename_i exp hexp
          split at h
          · cases h
          · rename_i hage
            exact ⟨header, encodedPayload, signature, payload, exp, hsplit, hpayload, hexp,
              Rat.not_lt.mp hage⟩
  · cases h

theorem validBearer_of_ok (h : env.getBearerTokenError now req = .ok none) :
    env.ValidBearer now req := by
  unfold getBearerTokenError at h
  split at h
  · cases h
  · rename_i token htoken
    split at h
    · cases h
    · rename_i hne
      refine ⟨token, htoken, hne, ?_⟩
      revert h
      cases env.staticToken.filter fun staticToken => !isBlank staticToken with
      | some staticToken =>
          intro h
          dsimp only at h ⊢
          split at h
          · cases h
          · rename_i hequal
            exact not_not.mp hequal
      | none =>
          intro h
          dsimp only at h ⊢
          split at h
          · rename_i url hurl
            obtain ⟨hsome, hnonempty⟩ := Option.filter_eq_some_iff.mp hurl
            exact ⟨by rw [hsome]; exact hnonempty, unexpiredJwt_of_ok h⟩
          · cases h

theorem map_authRefusal {x : Except String (Option AuthError)} :
    x.map (fun error => error.map authRefusal) = .ok none ↔ x = .ok none := by
  simp

def requiredScheme (ctx : MutationContext) (mutation : Mutation) : AuthScheme :=
  if ctx.enforceSignedRequests then .signedRequest
  else getRequiredAuthScheme ctx mutation.envelope.targetAgent mutation.capability

theorem demandsSignature_iff :
    DemandsSignature ctx req mutation ↔
      requiredScheme ctx mutation = .signedRequest ∨ wantsSignedRequestAuth req = true := by
  unfold DemandsSignature requiredScheme getRequiredAuthScheme
  cases ctx.enforceSignedRequests with
  | true => simp
  | false =>
      cases ctx.capabilityScheme mutation.envelope.targetAgent mutation.capability with
      | none => simp
      | some scheme => simp

theorem checkAuth_signed (h : DemandsSignature ctx call.request mutation) :
    env.checkAuth ctx nonces controls call rawBody mutation =
      (env.getSignedRequestError nonces call.now call.request rawBody
        (env.getEffectiveRevokedKeyIds controls)).1.map fun error => error.map authRefusal := by
  have hdemands := demandsSignature_iff.mp h
  unfold checkAuth
  dsimp only
  rw [← requiredScheme]
  rcases hdemands with hscheme | hwants
  · rw [if_neg (by simp [hscheme]), if_pos (by simp [hscheme])]
  · rw [if_neg (by simp [hwants]), if_pos (by simp [hwants])]

theorem checkAuth_bearer (h : ¬ DemandsSignature ctx call.request mutation)
    (hbearer : ctx.enforceBearerAuth = true) :
    env.checkAuth ctx nonces controls call rawBody mutation =
      (env.getBearerTokenError call.now call.request).map fun error => error.map authRefusal := by
  obtain ⟨hscheme, hwants⟩ := not_or.mp fun hdemands => h (demandsSignature_iff.mpr hdemands)
  unfold checkAuth
  dsimp only
  rw [← requiredScheme, if_pos (by simp [hbearer, hscheme, hwants])]

/-- **What the gate lets through.** -/
theorem checkAuth_passed (h : env.checkAuth ctx nonces controls call rawBody mutation = .ok none) :
    (DemandsSignature ctx call.request mutation →
      env.ValidSignedRequest call.now call.request rawBody
        (env.getEffectiveRevokedKeyIds controls)) ∧
    (¬ DemandsSignature ctx call.request mutation → ctx.enforceBearerAuth = true →
      env.ValidBearer call.now call.request) := by
  constructor
  · intro hdemands
    rw [checkAuth_signed hdemands, map_authRefusal] at h
    exact validSignedRequest_iff.mp h
  · intro hdemands hbearer
    rw [checkAuth_bearer hdemands hbearer, map_authRefusal] at h
    exact validBearer_of_ok h

/-- A mutation that is called was admitted: the body is one that passes the schema, and the gate let
it through. -/
theorem admitted_of_calls {validate : JsValue → Except String Mutation}
    {idempotencyKey : Option String} {called : Mutation}
    (h : env.runMutation ctx nonces controls call validate idempotencyKey = .ok (.calls called)) :
    ∃ body mutation, readJsonBody call.request = .ok body ∧ validate body.parsed = .ok mutation ∧
      called = mutation.withEnvelope (addMetadata ctx.requestId idempotencyKey) ∧
        checkControls controls mutation.envelope.targetAgent mutation.capability = none ∧
          env.checkAuth ctx nonces controls call body.raw mutation = .ok none := by
  unfold runMutation at h
  simp only [bind_eq_ok] at h
  obtain ⟨body, hbody, h⟩ := h
  split at h
  · cases h
  · simp only [bind_eq_ok] at h
    obtain ⟨mutation, hmutation, h⟩ := h
    unfold admitMutation at h
    split at h
    · cases h
    · split at h
      · cases h
      · rename_i hcontrols
        obtain ⟨refusal, hauth, hcalled⟩ := map_eq_ok.mp h
        cases refusal with
        | some refusal => cases hcalled
        | none =>
            cases hcalled
            exact ⟨body, mutation, hbody, hmutation, rfl, hcontrols, hauth⟩

theorem demandsSignature_withEnvelope (requestId : String) (idempotencyKey : Option String)
    (mutation : Mutation) :
    DemandsSignature ctx req (mutation.withEnvelope (addMetadata requestId idempotencyKey)) ↔
      DemandsSignature ctx req mutation := by
  cases mutation <;> exact Iff.rfl

theorem route_of_calls {called : Mutation}
    (h : env.handleMutationRoutes ctx nonces controls call = .ok (.calls called)) :
    (call.request.url = some "/dispatch" ∨ call.request.url = some "/approve") ∧
      ∃ validate idempotencyKey,
        env.runMutation ctx nonces controls call validate idempotencyKey = .ok (.calls called) := by
  unfold handleMutationRoutes at h
  split at h
  · rename_i hroute
    exact ⟨.inl hroute.2, _, _, h⟩
  · split at h
    · rename_i hroute
      exact ⟨.inr hroute.2, _, _, h⟩
    · cases h

/-- **The gate of the mutation routes.** The orchestrator is called only for a valid signed request
where a signature is demanded, and else only for a valid bearer token where the server enforces
those. -/
theorem mutation_authenticated {nonces : NonceCache} {controls : RuntimeControls} {call : HttpCall}
    {called : Mutation}
    (h : env.handleMutationRoutes ctx nonces controls call = .ok (.calls called)) :
    ∃ body, readJsonBody call.request = .ok body ∧
      (DemandsSignature ctx call.request called →
        env.ValidSignedRequest call.now call.request body.raw
          (env.getEffectiveRevokedKeyIds controls)) ∧
      (¬ DemandsSignature ctx call.request called → ctx.enforceBearerAuth = true →
        env.ValidBearer call.now call.request) := by
  obtain ⟨-, validate, idempotencyKey, hrun⟩ := route_of_calls h
  obtain ⟨body, mutation, hbody, -, rfl, -, hauth⟩ := admitted_of_calls hrun
  rw [demandsSignature_withEnvelope]
  exact ⟨body, hbody, checkAuth_passed hauth⟩

/-! ## Samples -/

/-- A context that enforces nothing, and in which every body is the dispatch of one request. -/
def sampleContext (request : DispatchRequest) : MutationContext where
  enforceSignedRequests := false
  enforceBearerAuth := false
  requireTenant := false
  capabilityScheme _ _ := none
  validateDispatchRequest _ := .ok request
  validateApprovalRequest _ := .error "Invalid MAP approval request: data must be object"
  checkMutationRateLimit _ := ⟨true, none⟩
  asyncQueueMaxQueueDepth := 0
  asyncQueueDepth := 0
  requestId := "r1"

def sampleRequest : DispatchRequest :=
  ⟨Orchestrator.sampleEnvelope "alice" "restart web" none, "ops.restart", none, none⟩

/-- The dispatch of an empty body, with these headers. -/
def postDispatch (headers : String → Option String) : HttpCall :=
  ⟨⟨some "POST", some "/dispatch", headers, .ok []⟩, 1709164800000⟩

/-- What a mutation that passes the gate comes to in these contexts. -/
theorem calls_of_checkAuth {ctx : MutationContext} {controls : RuntimeControls}
    {headers : String → Option String}
    (hload : checkLoad ctx none = none) (htenant : ctx.requireTenant = false)
    (hvalid : ctx.validateDispatchRequest (.obj []) = .ok sampleRequest)
    (hcontrols : checkControls controls "agent:ops" "ops.restart" = none)
    (hauth : env.checkAuth ctx .empty controls (postDispatch headers) "" (.dispatch sampleRequest) =
      .ok none) :
    env.handleMutationRoutes ctx .empty controls (postDispatch headers) =
      .ok (.calls ((Mutation.dispatch sampleRequest).withEnvelope
        (addMetadata ctx.requestId (headerIdempotencyKey (postDispatch headers).request)))) := by
  have hbody : readJsonBody (postDispatch headers).request = .ok ⟨"", .obj []⟩ := rfl
  have hcontrols : checkControls controls (Mutation.dispatch sampleRequest).envelope.targetAgent
      (Mutation.dispatch sampleRequest).capability = none := hcontrols
  have hmutation : env.admitMutation ctx .empty controls (postDispatch headers) ""
      (headerIdempotencyKey (postDispatch headers).request) (.dispatch sampleRequest) =
        .ok (.calls ((Mutation.dispatch sampleRequest).withEnvelope
          (addMetadata ctx.requestId (headerIdempotencyKey (postDispatch headers).request)))) := by
    unfold admitMutation checkTenant
    rw [htenant, if_neg (by simp)]
    dsimp only
    rw [hcontrols]
    dsimp only
    rw [hauth]
    rfl
  unfold handleMutationRoutes
  rw [if_pos ⟨rfl, rfl⟩]
  unfold runMutation
  have hnone : extractTenantId (.obj []) = none := rfl
  refine bind_eq_ok.mpr ⟨_, hbody, ?_⟩
  dsimp only
  rw [hnone, hload]
  exact bind_eq_ok.mpr ⟨_, congrArg (Except.map Mutation.dispatch) hvalid, hmutation⟩

theorem mutation_authenticated_signed : ∃ headers called,
    sampleServer.handleMutationRoutes { sampleContext sampleRequest with enforceSignedRequests := true }
        .empty noControls (postDispatch headers) = .ok (.calls called) ∧
      ∃ body, readJsonBody (postDispatch headers).request = .ok body ∧
        sampleServer.ValidSignedRequest 1709164800000 (postDispatch headers).request body.raw
          (sampleServer.getEffectiveRevokedKeyIds noControls) := by
  obtain ⟨headers, hsign⟩ : ∃ headers, sampleServer.signHttpRequest
      ⟨"POST", "/dispatch", toISOString 1709164800000, "map-dev-key-1", ""⟩ "n1" = .ok headers :=
    ⟨_, rfl⟩
  obtain ⟨config, hconfig, hsound⟩ := sampleServer_config
  have hpath : pathname sampleServer.foreignPath "/dispatch" = some "/dispatch" := by decide
  have hlive : "map-dev-key-1" ∉ sampleServer.getEffectiveRevokedKeyIds noControls := by decide
  have hvalid : sampleServer.ValidSignedRequest 1709164800000 (postDispatch headers.lookup).request ""
      (sampleServer.getEffectiveRevokedKeyIds noControls) :=
    ⟨_, signedRequest_of_sign hsign rfl rfl rfl rfl (requestPayload_of_pathname hpath _ _ _),
      hlive, ⟨1709164800000, rfl, by decide, by decide +kernel⟩,
      authentic_of_sign hconfig hsound (by decide) hsign⟩
  have hdemands : DemandsSignature
      { sampleContext sampleRequest with enforceSignedRequests := true }
      (postDispatch headers.lookup).request (.dispatch sampleRequest) := .inl rfl
  have hcalls := @calls_of_checkAuth sampleServer
    { sampleContext sampleRequest with enforceSignedRequests := true } noControls headers.lookup
    rfl rfl rfl rfl (by
      rw [checkAuth_signed hdemands, map_authRefusal]
      exact validSignedRequest_iff.mpr hvalid)
  obtain ⟨body, hbody, hsigned, -⟩ := mutation_authenticated hcalls
  exact ⟨headers.lookup, _, hcalls, body, hbody, hsigned (.inl rfl)⟩

/-- The payload of this token is `{"exp":4102444800}`. -/
def forgedToken : String := "e30.eyJleHAiOjQxMDI0NDQ4MDB9.forged"

/-- A capability that asks for a bearer token is called without one, and where bearer tokens are
enforced against a key set, a token that nobody signed does. -/
theorem unverified_calls :
    (∃ called, sampleServer.handleMutationRoutes
        { sampleContext sampleRequest with capabilityScheme := fun _ _ => some .bearer }
        .empty noControls (postDispatch fun _ => none) = .ok (.calls called)) ∧
      ∃ called, { sampleServer with jwksUrl := some "https://keys" }.handleMutationRoutes
        { sampleContext sampleRequest with enforceBearerAuth := true } .empty noControls
        (postDispatch fun name =>
          if name = "authorization" then some ("Bearer " ++ forgedToken) else none) =
            .ok (.calls called) := by
  refine ⟨⟨_, calls_of_checkAuth rfl rfl rfl rfl rfl⟩, _, calls_of_checkAuth rfl rfl rfl rfl ?_⟩
  decide +kernel

end ServerEnv

end MapProtocol
