import MapProtocol.Security.CompactSignature
import MapProtocol.Security.SigningKeys

/-!
# Signed requests

A request is signed over its method, its path, its timestamp, the key id it claims and its body.
`verifyHttpRequestSignature` checks the age of the timestamp and the signature; where it is given a
nonce, it also looks the nonce up in a cache of those seen lately.
-/

namespace MapProtocol

open Js

structure SignedRequestPayload where
  method    : String
  path      : String
  timestamp : String
  keyId     : String
  body      : String
  deriving DecidableEq, Repr

def signedRequestPayload (input : SignedRequestPayload) : JsObject :=
  [("method", .str (toUpperCase input.method)), ("path", .str input.path),
    ("timestamp", .str input.timestamp), ("key_id", .str input.keyId), ("body", .str input.body)]

structure MapSignedRequestHeaders where
  authScheme       : String
  keyId            : String
  timestamp        : String
  requestSignature : String
  nonce            : String

/-- When each nonce was seen. -/
abbrev NonceCache := OrderedMap String Int

def NONCE_MAX_AGE_MS : Int := 5 * 60 * 1000

def DEFAULT_REQUEST_MAX_AGE_MS : Rat := 5 * 60 * 1000

/-- What the checks of a request read besides the keys: `Date.parse` (`none` is its `NaN`), and
`Number(process.env.MAP_REQUEST_MAX_AGE_MS)` where that is set and finite. -/
structure RequestEnv where
  signing     : SigningEnv
  crypto      : Crypto
  parseDate   : String → Option Int
  maxAgeMs    : Option Rat

/-- Prunes what is too old, and takes the nonce unless it was seen. -/
def verifyNonce (nonces : NonceCache) (now : Int) (nonce : String) : Bool × NonceCache :=
  let kept := nonces.filter fun seen => now - seen ≤ NONCE_MAX_AGE_MS
  match kept.get nonce with
  | some _ => (false, kept)
  | none   => (true, kept.set nonce now)

namespace RequestEnv

variable (env : RequestEnv)

def getRequestMaxAgeMs : Rat :=
  match env.maxAgeMs with
  | some value => if 0 < value then value else DEFAULT_REQUEST_MAX_AGE_MS
  | none       => DEFAULT_REQUEST_MAX_AGE_MS

/-- `signHttpRequest(input)`, with the nonce it draws. -/
def signHttpRequest (input : SignedRequestPayload) (nonce : String) :
    Except String MapSignedRequestHeaders := do
  assertValidKeyUse "http_request" .httpRequest
  let signature ← env.signing.createCompactSignature env.crypto (signedRequestPayload input)
    (some input.keyId) (some .httpRequest)
  return ⟨"signed_request", input.keyId, input.timestamp, signature, nonce⟩

def signatureVerifies (input : SignedRequestPayload) (signature : String) : Except String Bool :=
  env.signing.verifyCompactSignature env.crypto signature (signedRequestPayload input)
    (some .httpRequest)

def verifyHttpRequestSignature (nonces : NonceCache) (now : Int) (input : SignedRequestPayload)
    (signature : String) (nonce : Option String) : Except String Bool × NonceCache :=
  match env.parseDate input.timestamp with
  | none             => (.ok false, nonces)
  | some timestampMs =>
      if env.getRequestMaxAgeMs < (now - timestampMs).natAbs then (.ok false, nonces)
      else match nonce.filter fun n => n ≠ "" with
        | none       => (env.signatureVerifies input signature, nonces)
        | some nonce =>
            match verifyNonce nonces now nonce with
            | (false, kept) => (.ok false, kept)
            | (true, kept)  => (env.signatureVerifies input signature, kept)

end RequestEnv

/-! ## What verifies under the keys of the environment -/

namespace SigningEnv

variable {env : SigningEnv} {crypto : Crypto}
variable {config : SigningConfig} {scope : Option SignatureScope} {signature : String}

theorem readsHeader_of_verify {signature canonicalPayload : String}
    (h : config.verifyCompactSignatureFromCanonical signature canonicalPayload scope = true) :
    readsHeader signature = true := by
  obtain ⟨encodedHeader, encodedSignature, header, key, hsplit, hheader, hkey, -⟩ :=
    SigningConfig.verifies_iff_parts.mp h
  obtain ⟨htyp, halg, -⟩ := SigningConfig.verificationKey_eq_some.mp hkey
  have halgorithm : key.alg.text = "HS256" ∨ key.alg.text = "RS256" := by
    cases key.alg with
    | hs256 => exact .inl rfl
    | rs256 => exact .inr rfl
  unfold readsHeader
  rw [hsplit]
  dsimp only
  rw [hheader]
  dsimp only
  rw [htyp, halg]
  simpa [JsValue.asString] using halgorithm

/-- A signature verifies exactly when the keys can be read and it verifies under them. -/
theorem verifyCompactSignature_iff {payload : JsObject} :
    env.verifyCompactSignature crypto signature payload scope = .ok true ↔
      ∃ config, env.signingConfig crypto = .ok config ∧
        config.verifyCompactSignature signature payload scope = true := by
  unfold verifyCompactSignature
  constructor
  · intro h
    split at h
    · exact map_eq_ok.mp h
    · cases h
  · rintro ⟨config, hconfig, hverify⟩
    rw [if_pos (readsHeader_of_verify hverify), hconfig]
    exact congrArg Except.ok hverify

theorem keys_of_signingConfig (h : env.signingConfig crypto = .ok config) :
    env.getSigningKeys = .ok config.keys ∧ config.activeKid = env.activeKid ∧
      config.profile = env.getDeploymentProfile ∧ config.crypto = crypto := by
  obtain ⟨keys, hkeys, rfl⟩ := map_eq_ok.mp h
  exact ⟨hkeys, rfl, rfl, rfl⟩

/-- **What a key that was read makes verifies**, where the requested kid is not blank. -/
theorem verify_of_createCompactSignature (hconfig : env.signingConfig crypto = .ok config)
    (hsound : config.Sound) {payload : JsObject} {kid : String} (hkid : isBlank kid = false)
    (h : env.createCompactSignature crypto payload (some kid) scope = .ok signature) :
    env.verifyCompactSignature crypto signature payload scope = .ok true := by
  unfold createCompactSignature at h
  rw [hconfig] at h
  refine verifyCompactSignature_iff.mpr ⟨config, hconfig, ?_⟩
  exact SigningConfig.verify_of_created hsound
    (fun key hkey => SigningConfig.found_of_authorized hkey (.inr ⟨kid, rfl, hkid⟩)) h

end SigningEnv

/-- **A request that was signed verifies**: by the server of the same keys, while it is young. -/
theorem RequestEnv.signatureVerifies_of_sign {env : RequestEnv} {config : SigningConfig}
    (hconfig : env.signing.signingConfig env.crypto = .ok config) (hsound : config.Sound)
    {input : SignedRequestPayload} (hkid : isBlank input.keyId = false) {nonce : String}
    {headers : MapSignedRequestHeaders} (h : env.signHttpRequest input nonce = .ok headers) :
    env.signatureVerifies input headers.requestSignature = .ok true := by
  unfold signHttpRequest at h
  simp only [bind_eq_ok, pure_eq_ok] at h
  obtain ⟨_, _, signature, hsign, rfl⟩ := h
  exact SigningEnv.verify_of_createCompactSignature hconfig hsound hkid hsign

end MapProtocol
