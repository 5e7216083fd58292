import MapProtocol.Security.RequestSigning
import MapProtocol.Server.Http

/-!
# Authentication of requests

The three checks that a route can make of a request: that it is a signed request, that it carries a
bearer token, and that it comes from an administrator. Each returns its error, and `none` accepts.
Header values are the strings that `node:http` delivers.
-/

namespace MapProtocol

open Js

/-- What the server reads of its process and platform: `Number(v)` where it is finite, the paths of
targets that are not read here, SHA-256 in hexadecimal, and the variables that configure the checks. -/
structure ServerEnv extends RequestEnv where
  toNumber    : JsValue → Option Rat
  foreignPath : String → Option String
  sha256      : String → String
  staticToken : Option String
  jwksUrl     : Option String
  adminToken  : Option String

structure AuthError where
  code    : String
  message : String
  deriving DecidableEq, Repr

def AuthError.codes : List String := ["auth_required", "invalid_auth", "token_expired"]

def wantsSignedRequestAuth (req : IncomingMessage) : Bool :=
  req.headers "x-map-auth-scheme" = some "signed_request"

namespace ServerEnv

variable (env : ServerEnv)
variable {timestamp signature rawBody keyId : String} {nonces : NonceCache} {now : Int}
  {req : IncomingMessage} {error : AuthError}

def normalizePath (url : String) : Except String String :=
  match pathname env.foreignPath url with
  | some path => .ok path
  | none      => .error "Invalid URL"

/-! ## Signed requests -/

def FIVE_MINUTES_MS : Int := 5 * 60 * 1000

/-- Whether the age of a timestamp is outside five minutes; that of no date is not. -/
def outsideWindow (timestamp : String) (now : Int) : Bool :=
  match env.parseDate timestamp with
  | some timestampMs =>
      decide (FIVE_MINUTES_MS < now - timestampMs) || decide (now - timestampMs < -FIVE_MINUTES_MS)
  | none             => false

/-- The payload that a request must be signed over. -/
def requestPayload (req : IncomingMessage) (rawBody timestamp keyId : String) :
    Except String SignedRequestPayload :=
  (env.normalizePath (req.url.getD "/")).map fun path =>
    ⟨req.method.getD "GET", path, timestamp, keyId, rawBody⟩

/-- The check of the signature: no nonce is passed on. -/
def signatureError (nonces : NonceCache) (now : Int) (req : IncomingMessage)
    (rawBody timestamp keyId signature : String) : Except String (Option AuthError) × NonceCache :=
  match env.requestPayload req rawBody timestamp keyId with
  | .error error  => (.error error, nonces)
  | .ok payload   =>
      match env.verifyHttpRequestSignature nonces now payload signature none with
      | (.error error, nonces) => (.error error, nonces)
      | (.ok true, nonces)     => (.ok none, nonces)
      | (.ok false, nonces)    =>
          (.ok (some ⟨"invalid_auth", "Invalid MAP signed_request signature."⟩), nonces)

def getSignedRequestError (nonces : NonceCache) (now : Int) (req : IncomingMessage)
    (rawBody : String) (revokedKeyIds : List String) : Except String (Option AuthError) × NonceCache :=
  if req.headers "x-map-auth-scheme" ≠ some "signed_request" then
    (.ok (some ⟨"auth_required", "MAP signed_request authentication is required."⟩), nonces)
  else match req.headers "x-map-key-id", req.headers "x-map-timestamp",
      req.headers "x-map-request-signature" with
    | some keyId, some timestamp, some signature =>
        if keyId ∈ revokedKeyIds then
          (.ok (some ⟨"invalid_auth", "MAP signed_request key has been revoked."⟩), nonces)
        else if env.outsideWindow timestamp now then
          (.ok (some ⟨"token_expired",
            "MAP signed_request timestamp is outside acceptable window."⟩), nonces)
        else env.signatureError nonces now req rawBody timestamp keyId signature
    | _, _, _ =>
        (.ok (some ⟨"invalid_auth", "Missing MAP signed_request authentication headers."⟩), nonces)

/-! ## Bearer tokens -/

/-- The text after `Bearer `, trimmed. -/
def bearerText (req : IncomingMessage) : Option String :=
  match req.headers "authorization" with
  | some authHeader =>
      if startsWith (toLowerCase authHeader) "bearer " then
        some (trim (String.ofList (authHeader.toList.drop 7)))
      else none
  | none => none

/-- The check of a token that is a JWT. Its signature is not verified, only its `exp`. -/
def jwtError (now : Int) (token : String) : Except String (Option AuthError) :=
  match split token '.' with
  | [_, encodedPayload, _] =>
      match parse (fromUtf8 (bytesOfBase64url encodedPayload)) with
      | none         => .ok (some ⟨"invalid_auth", "Failed to decode JWT payload."⟩)
      | some .null   => .error "Cannot read properties of null (reading 'exp')"
      | some payload =>
          let claim := payload.property "exp"
          if claim.isUndefined then
            .ok (some ⟨"invalid_auth", "JWT is missing required \x60exp\x60 claim."⟩)
          else match claim.asNumber.or (env.toNumber claim) with
            | none     =>
                .ok (some ⟨"invalid_auth", "JWT \x60exp\x60 claim is not a valid number."⟩)
            | some exp =>
                if exp < (now / 1000 : Int) then
                  .ok (some ⟨"token_expired", "OAuth 2.0 Bearer token has expired."⟩)
                else .ok none
  | _ => .ok (some ⟨"invalid_auth", "Invalid JWT format in Bearer token."⟩)

def getBearerTokenError (now : Int) (req : IncomingMessage) : Except String (Option AuthError) :=
  match bearerText req with
  | none       => .ok (some ⟨"auth_required", "OAuth 2.0 Bearer token is required."⟩)
  | some token =>
      if token = "" then .ok (some ⟨"invalid_auth", "Bearer token is empty."⟩)
      else match env.staticToken.filter fun staticToken => !isBlank staticToken with
        | some staticToken =>
            if env.sha256 token ≠ env.sha256 staticToken then
              .ok (some ⟨"invalid_auth", "Invalid OAuth 2.0 Bearer token."⟩)
            else .ok none
        | none =>
            match env.jwksUrl.filter fun url => url ≠ "" with
            | some _ => env.jwtError now token
            | none   =>
                .ok (some ⟨"invalid_auth", "OAuth 2.0 Bearer validation is not configured. " ++
                  "Set MAP_OAUTH_STATIC_TOKEN or MAP_OAUTH_JWKS_URL."⟩)

/-! ## Administrators -/

structure AdminError extends AuthError where
  statusCode : Nat
  deriving DecidableEq, Repr

def getAdminTokenError (nonces : NonceCache) (now : Int) (req : IncomingMessage) (rawBody : String)
    (revokedKeyIds : List String) : Except String (Option AdminError) × NonceCache :=
  match env.adminToken.filter fun token => !isBlank token with
  | none                 =>
      (.ok (some ⟨⟨"invalid_auth", "Admin controls are not enabled."⟩, 403⟩), nonces)
  | some configuredToken =>
      if (req.headers "x-map-admin-token").map env.sha256 ≠ some (env.sha256 configuredToken) then
        (.ok (some ⟨⟨"invalid_auth", "Invalid admin token."⟩, 403⟩), nonces)
      else
        let (signedRequestError, nonces) :=
          env.getSignedRequestError nonces now req rawBody revokedKeyIds
        (signedRequestError.map fun error => error.map fun e =>
          ⟨e, if e.code = "auth_required" then 401 else 403⟩, nonces)

/-! ## What is accepted as a signed request -/

/-- What a signature is made over, and the signature. -/
structure SignedRequest where
  payload   : SignedRequestPayload
  signature : String
  deriving DecidableEq, Repr

/-- The signed request that a request carries in its headers. -/
def signedRequest (req : IncomingMessage) (rawBody : String) : Option SignedRequest :=
  if wantsSignedRequestAuth req then
    match req.headers "x-map-key-id", req.headers "x-map-timestamp",
        req.headers "x-map-request-signature" with
    | some keyId, some timestamp, some signature =>
        (env.requestPayload req rawBody timestamp keyId).toOption.map (⟨·, signature⟩)
    | _, _, _ => none
  else none

/-- A timestamp inside both windows. -/
def Fresh (now : Int) (timestamp : String) : Prop :=
  ∃ timestampMs, env.parseDate timestamp = some timestampMs ∧
    ((now - timestampMs).natAbs : Int) ≤ FIVE_MINUTES_MS ∧
    ((now - timestampMs).natAbs : Rat) ≤ env.getRequestMaxAgeMs

/-- The signature is one that a key in force made over this request. -/
def Authentic (r : SignedRequest) : Prop := env.signatureVerifies r.payload r.signature = .ok true

variable {env}

@[simp] theorem verifyHttpRequestSignature_nonces (nonces : NonceCache) (now : Int)
    (input : SignedRequestPayload) (signature : String) :
    (env.verifyHttpRequestSignature nonces now input signature none).2 = nonces := by
  unfold RequestEnv.verifyHttpRequestSignature
  split
  · rfl
  · split <;> rfl

theorem outsideWindow_eq_false {now timestampMs : Int}
    (h : env.parseDate timestamp = some timestampMs) :
    env.outsideWindow timestamp now = false ↔
      ((now - timestampMs).natAbs : Int) ≤ FIVE_MINUTES_MS := by
  unfold outsideWindow
  rw [h]
  dsimp only
  rw [Bool.or_eq_false_iff, decide_eq_false_iff_not, decide_eq_false_iff_not]
  unfold FIVE_MINUTES_MS
  omega

/-- The primitive's part of the check. -/
theorem verifyHttpRequestSignature_iff {input : SignedRequestPayload} :
    (env.verifyHttpRequestSignature nonces now input signature none).1 = .ok true ↔
      (∃ timestampMs, env.parseDate input.timestamp = some timestampMs ∧
        ((now - timestampMs).natAbs : Rat) ≤ env.getRequestMaxAgeMs) ∧
      env.signatureVerifies input signature = .ok true := by
  unfold RequestEnv.verifyHttpRequestSignature
  cases hdate : env.parseDate input.timestamp with
  | none => simp
  | some timestampMs =>
      dsimp only
      by_cases hage : env.getRequestMaxAgeMs < ((now - timestampMs).natAbs : Rat)
      · rw [if_pos hage]
        constructor
        · exact fun h => absurd (Except.ok.inj h) (by simp)
        · rintro ⟨⟨t, ht, hle⟩, -⟩
          cases ht
          exact absurd hage (Rat.not_lt.mpr hle)
      · rw [if_neg hage]
        constructor
        · exact fun h => ⟨⟨timestampMs, rfl, Rat.not_lt.mp hage⟩, h⟩
        · exact fun h => h.2

theorem signatureError_nonces (nonces : NonceCache) (now : Int) (req : IncomingMessage)
    (rawBody timestamp keyId signature : String) :
    (env.signatureError nonces now req rawBody timestamp keyId signature).2 = nonces := by
  unfold signatureError
  cases env.requestPayload req rawBody timestamp keyId with
  | error e => rfl
  | ok payload =>
      have hkept := @verifyHttpRequestSignature_nonces env nonces now payload signature
      dsimp only
      split <;> rename_i hverify <;> rwa [hverify] at hkept

@[simp] theorem getSignedRequestError_nonces (nonces : NonceCache) (now : Int)
    (req : IncomingMessage) (rawBody : String) (revokedKeyIds : List String) :
    (env.getSignedRequestError nonces now req rawBody revokedKeyIds).2 = nonces := by
  unfold getSignedRequestError
  split
  · rfl
  · split
    · split
      · rfl
      · split
        · rfl
        · exact signatureError_nonces ..
    · rfl

theorem signatureError_iff :
    (env.signatureError nonces now req rawBody timestamp keyId signature).1 = .ok none ↔
      ∃ payload, env.requestPayload req rawBody timestamp keyId = .ok payload ∧
        (env.verifyHttpRequestSignature nonces now payload signature none).1 = .ok true := by
  unfold signatureError
  cases env.requestPayload req rawBody timestamp keyId with
  | error e => simp
  | ok payload =>
      dsimp only
      split <;> rename_i hverify <;> simp [hverify]

theorem requestPayload_of_pathname {req : IncomingMessage} {path : String}
    (h : pathname env.foreignPath (req.url.getD "/") = some path)
    (rawBody timestamp keyId : String) : env.requestPayload req rawBody timestamp keyId =
      .ok ⟨req.method.getD "GET", path, timestamp, keyId, rawBody⟩ := by
  unfold requestPayload normalizePath
  rw [h]
  rfl

theorem timestamp_of_requestPayload {payload : SignedRequestPayload}
    (h : env.requestPayload req rawBody timestamp keyId = .ok payload) :
    payload.timestamp = timestamp ∧ payload.keyId = keyId := by
  obtain ⟨path, _, rfl⟩ := map_eq_ok.mp h
  exact ⟨rfl, rfl⟩

theorem toOption_eq_some {α β : Type} {x : Except β α} {a : α} : x.toOption = some a ↔ x = .ok a := by
  cases x <;> simp [Except.toOption]

theorem signedRequest_eq_some {r : SignedRequest} :
    env.signedRequest req rawBody = some r ↔
      req.headers "x-map-auth-scheme" = some "signed_request" ∧
        req.headers "x-map-key-id" = some r.payload.keyId ∧
          req.headers "x-map-timestamp" = some r.payload.timestamp ∧
            req.headers "x-map-request-signature" = some r.signature ∧
              env.requestPayload req rawBody r.payload.timestamp r.payload.keyId = .ok r.payload := by
  unfold signedRequest wantsSignedRequestAuth
  constructor
  · intro h
    split at h
    · rename_i hscheme
      split at h
      · rename_i keyId timestamp signature hkeyId htimestamp hsignature
        obtain ⟨payload, hpayload, rfl⟩ := Option.map_eq_some_iff.mp h
        have hpayload := toOption_eq_some.mp hpayload
        obtain ⟨rfl, rfl⟩ := timestamp_of_requestPayload hpayload
        exact ⟨of_decide_eq_true hscheme, hkeyId, htimestamp, hsignature, hpayload⟩
      · cases h
    · cases h
  · rintro ⟨hscheme, hkeyId, htimestamp, hsignature, hpayload⟩
    rw [if_pos (decide_eq_true hscheme), hkeyId, htimestamp, hsignature]
    dsimp only
    rw [hpayload]
    rfl

/-- **What `getSignedRequestError` accepts**: a fresh authentic request under a key id that is not
revoked. The nonce cache has no part in it. -/
theorem getSignedRequestError_iff {nonces : NonceCache} {now : Int} {req : IncomingMessage}
    {rawBody : String} {revokedKeyIds : List String} :
    (env.getSignedRequestError nonces now req rawBody revokedKeyIds).1 = .ok none ↔
      ∃ r, env.signedRequest req rawBody = some r ∧ r.payload.keyId ∉ revokedKeyIds ∧
        env.Fresh now r.payload.timestamp ∧ env.Authentic r := by
  constructor
  · intro h
    unfold getSignedRequestError at h
    split at h
    · cases h
    · rename_i hscheme
      split at h
      · rename_i keyId timestamp signature hkeyId htimestamp hsignature
        split at h
        · cases h
        · rename_i hrevoked
          split at h
          · cases h
          · rename_i hwindow
            obtain ⟨payload, hpayload, hverify⟩ := signatureError_iff.mp h
            obtain ⟨⟨timestampMs, hdate, hage⟩, hsigned⟩ := verifyHttpRequestSignature_iff.mp hverify
            obtain ⟨rfl, rfl⟩ := timestamp_of_requestPayload hpayload
            -- the window is tested here and the age again by the verifier
            have hinside := (outsideWindow_eq_false hdate).mp (Bool.eq_false_iff.mpr hwindow)
            refine ⟨⟨payload, signature⟩, signedRequest_eq_some.mpr ?_, hrevoked,
              ⟨timestampMs, hdate, hinside, hage⟩, hsigned⟩
            exact ⟨not_not.mp hscheme, hkeyId, htimestamp, hsignature, hpayload⟩
      · cases h
  · rintro ⟨r, hr, hrevoked, ⟨timestampMs, hdate, hinside, hage⟩, hsigned⟩
    obtain ⟨hscheme, hkeyId, htimestamp, hsignature, hpayload⟩ := signedRequest_eq_some.mp hr
    unfold getSignedRequestError
    rw [if_neg (not_not.mpr hscheme), hkeyId, htimestamp, hsignature]
    dsimp only
    rw [if_neg hrevoked, (outsideWindow_eq_false hdate).mpr hinside, if_neg (by simp)]
    exact signatureError_iff.mpr ⟨r.payload, hpayload,
      verifyHttpRequestSignature_iff.mpr ⟨⟨timestampMs, hdate, hage⟩, hsigned⟩⟩

theorem code_of_signatureError {nonces : NonceCache} {now : Int} {req : IncomingMessage}
    {rawBody timestamp keyId signature : String} {error : AuthError}
    (h : (env.signatureError nonces now req rawBody timestamp keyId signature).1 = .ok (some error)) :
    error.code ∈ AuthError.codes := by
  unfold signatureError at h
  split at h
  · cases h
  · split at h
    · cases h
    · cases h
    · cases h
      decide

theorem code_of_getSignedRequestError {revokedKeyIds : List String}
    (h : (env.getSignedRequestError nonces now req rawBody revokedKeyIds).1 = .ok (some error)) :
    error.code ∈ AuthError.codes := by
  unfold getSignedRequestError at h
  split at h
  · cases h
    decide
  · split at h
    · split at h
      · cases h
        decide
      · split at h
        · cases h
          decide
        · exact code_of_signatureError h
    · cases h
      decide

theorem code_of_jwtError {token : String} (h : env.jwtError now token = .ok (some error)) :
    error.code ∈ AuthError.codes := by
  unfold jwtError at h
  split at h
  · split at h
    · cases h
      decide
    · cases h
    · dsimp only at h
      split at h
      · cases h
        decide
      · split at h
        · cases h
          decide
        · split at h
          · cases h
            decide
          · cases h
  · cases h
    decide

theorem code_of_getBearerTokenError (h : env.getBearerTokenError now req = .ok (some error)) :
    error.code ∈ AuthError.codes := by
  unfold getBearerTokenError at h
  split at h
  · cases h
    decide
  · split at h
    · cases h
      decide
    · split at h
      · split at h
        · cases h
          decide
        · cases h
      · split at h
        · exact code_of_jwtError h
        · cases h
          decide

/-- **Who is an administrator**: who knows the token and signs the request. -/
theorem getAdminTokenError_iff {revokedKeyIds : List String} :
    (env.getAdminTokenError nonces now req rawBody revokedKeyIds).1 = .ok none ↔
      (∃ configuredToken, env.adminToken = some configuredToken ∧ isBlank configuredToken = false ∧
        (req.headers "x-map-admin-token").map env.sha256 = some (env.sha256 configuredToken)) ∧
      (env.getSignedRequestError nonces now req rawBody revokedKeyIds).1 = .ok none := by
  unfold getAdminTokenError
  cases htoken : env.adminToken.filter fun token => !isBlank token with
  | none =>
      refine ⟨fun h => absurd h (by simp), fun h => ?_⟩
      obtain ⟨⟨configuredToken, hconfigured, hblank, -⟩, -⟩ := h
      rw [hconfigured] at htoken
      simp [hblank] at htoken
  | some configuredToken =>
      obtain ⟨hconfigured, hblank⟩ := Option.filter_eq_some_iff.mp htoken
      dsimp only
      by_cases hprovided : (req.headers "x-map-admin-token").map env.sha256 ≠
          some (env.sha256 configuredToken)
      · rw [if_pos hprovided]
        refine ⟨fun h => absurd h (by simp), fun h => ?_⟩
        obtain ⟨⟨token, htoken, -, hequal⟩, -⟩ := h
        rw [hconfigured] at htoken
        cases htoken
        exact absurd hequal hprovided
      · rw [if_neg hprovided]
        -- the status of an error does not say whether there is one
        have hmap : ((env.getSignedRequestError nonces now req rawBody revokedKeyIds).1.map
            fun error => error.map fun e : AuthError =>
              (⟨e, if e.code = "auth_required" then 401 else 403⟩ : AdminError)) = .ok none ↔
            (env.getSignedRequestError nonces now req rawBody revokedKeyIds).1 = .ok none := by
          simp
        refine hmap.trans ⟨fun h => ⟨⟨configuredToken, hconfigured, by simpa using hblank,
          not_not.mp hprovided⟩, h⟩, fun h => h.2⟩

/-- What was signed is authentic, at a server that has the key. -/
theorem authentic_of_sign {config : SigningConfig}
    (hconfig : env.signing.signingConfig env.crypto = .ok config) (hsound : config.Sound)
    {input : SignedRequestPayload} (hkid : isBlank input.keyId = false) {nonce : String}
    {headers : MapSignedRequestHeaders} (h : env.signHttpRequest input nonce = .ok headers) :
    env.Authentic ⟨input, headers.requestSignature⟩ :=
  RequestEnv.signatureVerifies_of_sign hconfig hsound hkid h

/-- A request that carries the headers of `signHttpRequest` carries the signed request. -/
theorem signedRequest_of_sign {input : SignedRequestPayload} {nonce : String}
    {headers : MapSignedRequestHeaders} (h : env.signHttpRequest input nonce = .ok headers)
    (hscheme : req.headers "x-map-auth-scheme" = some headers.authScheme)
    (hkeyId : req.headers "x-map-key-id" = some headers.keyId)
    (htimestamp : req.headers "x-map-timestamp" = some headers.timestamp)
    (hsignature : req.headers "x-map-request-signature" = some headers.requestSignature)
    (hpayload : env.requestPayload req rawBody input.timestamp input.keyId = .ok input) :
    env.signedRequest req rawBody = some ⟨input, headers.requestSignature⟩ := by
  unfold RequestEnv.signHttpRequest at h
  simp only [bind_eq_ok, pure_eq_ok] at h
  obtain ⟨_, _, signature, _, rfl⟩ := h
  exact signedRequest_eq_some.mpr ⟨hscheme, hkeyId, htimestamp, hsignature, hpayload⟩

end ServerEnv

/-! ## A sample server -/

/-- A server at the instant that `Date.parse` is asked about. -/
def sampleServer : ServerEnv where
  signing := sampleSigningEnv
  crypto := SigningConfig.quotingCrypto
  parseDate timestamp := if timestamp = toISOString 1709164800000 then some 1709164800000 else none
  maxAgeMs := none
  toNumber _ := none
  foreignPath _ := none
  sha256 token := token
  staticToken := none
  jwksUrl := none
  adminToken := none

/-- The headers that `signHttpRequest` returns, as a request carries them. -/
def MapSignedRequestHeaders.lookup (headers : MapSignedRequestHeaders) : String → Option String
  | "x-map-auth-scheme"       => some headers.authScheme
  | "x-map-key-id"            => some headers.keyId
  | "x-map-timestamp"         => some headers.timestamp
  | "x-map-request-signature" => some headers.requestSignature
  | "x-map-nonce"             => some headers.nonce
  | _                         => none

/-- A `POST` with these headers. -/
def MapSignedRequestHeaders.post (headers : MapSignedRequestHeaders) (url : String) :
    IncomingMessage :=
  ⟨some "POST", some url, headers.lookup, .ok []⟩

theorem sampleServer_config : ∃ config,
    sampleServer.signing.signingConfig sampleServer.crypto = .ok config ∧ config.Sound :=
  ⟨_, rfl, SigningConfig.sound_of_idealised (SigningConfig.idealised_quoting rfl)⟩

theorem sampleServer_signs (method path timestamp body nonce : String) : ∃ headers,
    sampleServer.signHttpRequest ⟨method, path, timestamp, "map-dev-key-1", body⟩ nonce =
      .ok headers := by
  have hkey : ∃ signature, sampleServer.signing.createCompactSignature sampleServer.crypto
      (signedRequestPayload ⟨method, path, timestamp, "map-dev-key-1", body⟩)
      (some "map-dev-key-1") (some .httpRequest) = .ok signature :=
    ⟨_, bind_eq_ok.mpr ⟨_, rfl, bind_eq_ok.mpr ⟨_, rfl, bind_eq_ok.mpr ⟨_, rfl, rfl⟩⟩⟩⟩
  obtain ⟨signature, hsignature⟩ := hkey
  exact ⟨_, bind_eq_ok.mpr ⟨(), rfl, bind_eq_ok.mpr ⟨signature, hsignature, rfl⟩⟩⟩

end MapProtocol
