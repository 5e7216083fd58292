import MapProtocol.Sdk.Clients

/-!
# Whose requests the server accepts

The TypeScript signer writes what the server writes. The Python and the Go signer escape characters
that the server leaves, so their signatures verify where nothing that is signed has one of them.
-/

namespace MapProtocol.Sdk

open Js

def IsoTimestamp (timestamp : String) : Prop :=
  ∀ c ∈ timestamp.toList, c ∈ "0123456789-+:.TZ".toList

instance (timestamp : String) : Decidable (IsoTimestamp timestamp) :=
  decidable_of_iff _ (@List.all_iff_forall_prop _ (· ∈ "0123456789-+:.TZ".toList) _ _)

theorem IsoTimestamp.plain {timestamp : String} (h : IsoTimestamp timestamp) :
    python.Plain timestamp ∧ go.Plain timestamp := by
  have hall : ∀ c ∈ "0123456789-+:.TZ".toList, python.plain c = true ∧ go.plain c = true :=
    List.all_iff_forall_prop.mp (by decide)
  exact ⟨fun c hc => (hall c (h c hc)).1, fun c hc => (hall c (h c hc)).2⟩

/-- The characters of everything that is signed but the timestamp. -/
structure PlainInputs (e : Encoder) (kid method path body : String) : Prop where
  kid    : e.Plain kid
  method : e.Plain (toUpperCase method)
  path   : e.Plain path
  body   : e.Plain body

theorem plainRequest_iff {e : Encoder} {kid method path body timestamp : String}
    (h : e.Plain timestamp) : PlainRequest e ⟨method, path, timestamp, kid, body⟩ ↔
      PlainInputs e kid method path body :=
  ⟨fun p => ⟨p.keyId, p.method, p.path, p.body⟩, fun p => ⟨p.body, p.kid, p.method, p.path, h⟩⟩

section Accepted

variable {env : ServerEnv} {kid secret : String} {now : Int} {timestamp : String}

theorem verified_iff (hfresh : env.Fresh now timestamp) (nonces : NonceCache)
    {method path kid body signature : String} :
    (env.verifyHttpRequestSignature nonces now ⟨method, path, timestamp, kid, body⟩ signature
        none).1 = .ok true ↔
      env.signatureVerifies ⟨method, path, timestamp, kid, body⟩ signature = .ok true := by
  obtain ⟨timestampMs, hdate, -, hage⟩ := hfresh
  rw [ServerEnv.verifyHttpRequestSignature_iff]
  exact and_iff_right ⟨timestampMs, hdate, hage⟩

theorem httpSigner_verified_iff (shared : SharedKey env.toRequestEnv kid secret)
    (hfresh : env.Fresh now timestamp) {e : Encoder} (hkeys : PlainKeys e)
    (htimestamp : e.Plain timestamp) (nonces : NonceCache) (nonce method path : String)
    (body : Option String) :
    (env.verifyHttpRequestSignature nonces now ⟨method, path, timestamp, kid, body.getD ""⟩
        (HTTPSigner.signWith env.crypto ⟨kid, secret⟩ e method path timestamp body nonce).signature
        none).1 = .ok true ↔
      PlainInputs e kid method path (body.getD "") := by
  rw [verified_iff hfresh, @HTTPSigner.verifies_iff _ _ ⟨kid, secret⟩ shared e hkeys]
  exact (and_iff_right rfl).trans (plainRequest_iff htimestamp)

theorem hmacSigner_verified_iff (shared : SharedKey env.toRequestEnv kid secret)
    (hfresh : env.Fresh now timestamp) (htimestamp : go.Plain timestamp) (nonces : NonceCache)
    (method path body : String) :
    (env.verifyHttpRequestSignature nonces now ⟨method, path, timestamp, kid, body⟩
        (HMACSigner.sign env.crypto ⟨secret, kid⟩ method path body timestamp) none).1 = .ok true ↔
      PlainInputs go kid method path body := by
  rw [verified_iff hfresh, @HMACSigner.verifies_iff _ _ ⟨secret, kid⟩ shared]
  exact (and_iff_right rfl).trans (plainRequest_iff htimestamp)

theorem pythonRequest_rejected (nonces : NonceCache) {req : IncomingMessage} {rawBody : String}
    {revokedKeyIds : List String} (h : req.headers "x-map-auth-scheme" = none) :
    (env.getSignedRequestError nonces now req rawBody revokedKeyIds).1 =
      .ok (some ⟨"auth_required", "MAP signed_request authentication is required."⟩) := by
  unfold ServerEnv.getSignedRequestError
  rw [h, if_pos (by simp)]

theorem goRequest_accepted_iff (shared : SharedKey env.toRequestEnv kid secret)
    (hforeign : ForeignPaths env.foreignPath) (hfresh : env.Fresh now timestamp)
    (htimestamp : go.Plain timestamp) {revokedKeyIds : List String} (hlive : kid ∉ revokedKeyIds)
    (nonces : NonceCache) (nonce : String) (library : HttpLibrary) (call : Go.Call) :
    (env.getSignedRequestError nonces now
        (Go.request env.crypto library ⟨secret, kid⟩ call timestamp nonce) call.body
        revokedKeyIds).1 = .ok none ↔ call.Sendable ∧ go.Plain kid := by
  obtain ⟨cs, hpath⟩ := call.path_head
  unfold Go.request
  rw [@Go.newRequest_accepted_iff env ⟨secret, kid⟩ shared hforeign now timestamp hfresh
    revokedKeyIds hlive nonces library call.path cs hpath, call.sendable_iff]
  exact ⟨fun ⟨hsteady, hplain⟩ => ⟨⟨hsteady, hplain.path⟩, hplain.keyId⟩,
    fun ⟨⟨hsteady, hpath⟩, hkid⟩ =>
      ⟨hsteady, call.plain_body, hkid, call.plain_method, hpath, htimestamp⟩⟩

/-- **Which requests of the SDKs the server accepts**, under a key that it shares and in the
window. -/
theorem sdk_requests_accepted_iff (shared : SharedKey env.toRequestEnv kid secret)
    (hforeign : ForeignPaths env.foreignPath) (hiso : IsoTimestamp timestamp)
    (hfresh : env.Fresh now timestamp) {revokedKeyIds : List String} (hlive : kid ∉ revokedKeyIds)
    (nonces : NonceCache) (nonce : String) :
    (∀ method path body, (env.verifyHttpRequestSignature nonces now
        ⟨method, path, timestamp, kid, body.getD ""⟩
        (TypeScript.signRequest env.crypto ⟨kid, secret⟩ method path timestamp body nonce).signature
        none).1 = .ok true) ∧
    (∀ method path body, (env.verifyHttpRequestSignature nonces now
        ⟨method, path, timestamp, kid, body.getD ""⟩
        (Python.signRequest env.crypto ⟨kid, secret⟩ method path timestamp body nonce).signature
        none).1 = .ok true ↔ PlainInputs python kid method path (body.getD "")) ∧
    (∀ method path body, (env.verifyHttpRequestSignature nonces now
        ⟨method, path, timestamp, kid, body⟩
        (HMACSigner.sign env.crypto ⟨secret, kid⟩ method path body timestamp) none).1 = .ok true ↔
          PlainInputs go kid method path body) ∧
    (∀ library call seconds target bytes, (env.getSignedRequestError nonces now
        (Python.request env.crypto library ⟨kid, secret⟩ call seconds nonce target bytes)
        (fromUtf8 bytes) revokedKeyIds).1 =
          .ok (some ⟨"auth_required", "MAP signed_request authentication is required."⟩)) ∧
    ∀ library call, (env.getSignedRequestError nonces now
        (Go.request env.crypto library ⟨secret, kid⟩ call timestamp nonce) call.body
        revokedKeyIds).1 = .ok none ↔ Go.Call.Sendable call ∧ go.Plain kid := by
  obtain ⟨hpython, hgo⟩ := hiso.plain
  refine ⟨fun method path body => ?_, fun method path body => ?_, fun method path body => ?_,
    fun library call seconds target bytes => ?_, fun library call => ?_⟩
  · have hplain := Encoder.plain_javascript
    exact (httpSigner_verified_iff shared hfresh plainKeys_javascript (hplain _) nonces nonce method
      path body).mpr ⟨hplain _, hplain _, hplain _, hplain _⟩
  · exact httpSigner_verified_iff shared hfresh plainKeys_python hpython nonces nonce method path
      body
  · exact hmacSigner_verified_iff shared hfresh hgo nonces method path body
  · exact pythonRequest_rejected nonces (Python.request_scheme ..)
  · exact goRequest_accepted_iff shared hforeign hfresh hgo hlive nonces nonce library call

end Accepted

/-! ## Samples -/

/-- The sample server and its clients share the key of its environment. -/
def sampleShared : SharedKey sampleServer.toRequestEnv DEFAULT_KID "secret" where
  config :=
    ⟨[⟨DEFAULT_KID, .active, DEFAULT_SCOPES, .hmac "secret"⟩], none, .open, sampleServer.crypto⟩
  key := ⟨DEFAULT_KID, .active, DEFAULT_SCOPES, .hmac "secret"⟩
  read := rfl
  found := rfl
  material := rfl
  live := by decide
  scope := by decide

theorem foreignPaths_sampleServer : ForeignPaths sampleServer.foreignPath :=
  fun _ _ h => nomatch h

theorem fresh_sampleServer : sampleServer.Fresh 1709164800000 (toISOString 1709164800000) :=
  ⟨1709164800000, rfl, by decide, by decide +kernel⟩

theorem iso_sample : IsoTimestamp (toISOString 1709164800000) := by decide

def hostLibrary : HttpLibrary where
  adds name := if name = "host" then some "localhost:8787" else none
  own name h := by
    have hname : name ≠ "host" := by
      rintro rfl
      exact absurd h (by decide)
    exact if_neg hname

theorem sdk_requests_accepted_sample :
    (sampleServer.verifyHttpRequestSignature .empty 1709164800000
        ⟨"POST", "/dispatch", toISOString 1709164800000, DEFAULT_KID, "é"⟩
        (TypeScript.signRequest sampleServer.crypto ⟨DEFAULT_KID, "secret"⟩ "POST" "/dispatch"
          (toISOString 1709164800000) (some "é") "n1").signature none).1 = .ok true ∧
    (sampleServer.getSignedRequestError .empty 1709164800000
        (Go.request sampleServer.crypto hostLibrary ⟨"secret", DEFAULT_KID⟩ (.getTask "t1" "")
          (toISOString 1709164800000) "n1") "" []).1 = .ok none := by
  obtain ⟨htypescript, -, -, -, hgo⟩ := sdk_requests_accepted_iff sampleShared
    foreignPaths_sampleServer iso_sample fresh_sampleServer (List.not_mem_nil (a := DEFAULT_KID))
    .empty "n1"
  exact ⟨htypescript "POST" "/dispatch" (some "é"),
    (hgo hostLibrary (.getTask "t1" "")).mpr ⟨⟨rfl, by decide, by decide⟩, by decide⟩⟩

/-- Python escapes an accent, Go an angle bracket; the Python client sends no scheme, and the Go
client signs the query. -/
theorem sdk_requests_rejected :
    (sampleServer.verifyHttpRequestSignature .empty 1709164800000
        ⟨"POST", "/dispatch", toISOString 1709164800000, DEFAULT_KID, "é"⟩
        (Python.signRequest sampleServer.crypto ⟨DEFAULT_KID, "secret"⟩ "POST" "/dispatch"
          (toISOString 1709164800000) (some "é") "n1").signature none).1 ≠ .ok true ∧
    (sampleServer.verifyHttpRequestSignature .empty 1709164800000
        ⟨"POST", "/dispatch", toISOString 1709164800000, DEFAULT_KID, "<"⟩
        (HMACSigner.sign sampleServer.crypto ⟨"secret", DEFAULT_KID⟩ "POST" "/dispatch" "<"
          (toISOString 1709164800000)) none).1 ≠ .ok true ∧
    (sampleServer.getSignedRequestError .empty 1709164800000
        (Python.request sampleServer.crypto hostLibrary ⟨DEFAULT_KID, "secret"⟩ (.getTask "t1" "")
          1709164800 "n1" "/tasks/t1" []) "" []).1 ≠ .ok none ∧
    (sampleServer.getSignedRequestError .empty 1709164800000
        (Go.request sampleServer.crypto hostLibrary ⟨"secret", DEFAULT_KID⟩ (.getTask "t1" "acme")
          (toISOString 1709164800000) "n1") "" []).1 ≠ .ok none := by
  obtain ⟨hpython, hgo⟩ := iso_sample.plain
  refine ⟨fun h => ?_, fun h => ?_, fun h => ?_, fun h => ?_⟩
  · have hplain := (httpSigner_verified_iff sampleShared fresh_sampleServer plainKeys_python hpython
      .empty "n1" "POST" "/dispatch" (some "é")).mp h
    exact absurd hplain.body (by decide)
  · have hplain := (hmacSigner_verified_iff sampleShared fresh_sampleServer hgo .empty "POST"
      "/dispatch" "<").mp h
    exact absurd hplain.body (by decide)
  · rw [pythonRequest_rejected .empty (Python.request_scheme ..)] at h
    cases h
  · have hsendable := (goRequest_accepted_iff sampleShared foreignPaths_sampleServer
      fresh_sampleServer hgo (List.not_mem_nil (a := DEFAULT_KID)) .empty "n1" hostLibrary
      (.getTask "t1" "acme")).mp h
    exact absurd hsendable.1.1 (by decide)

end MapProtocol.Sdk
