import MapProtocol.Sdk.Encoders
import MapProtocol.Server.Auth

/-!
# The signers of the SDKs

A signer writes a header and a payload as JSON and signs both. The server takes the header as it
finds it, but writes the payload anew and compares. So the signature of a client is good exactly
where the two write the payload alike (`SharedKey.signatureVerifies_iff`).
-/

namespace MapProtocol.Sdk

open Js

/-- `base64url(header).base64url(payload).base64url(signature)`, by HMAC. -/
def compactSignature (crypto : Crypto) (secret header payload : String) : String :=
  let signingInput := base64url header ++ "." ++ base64url payload
  signingInput ++ "." ++ base64urlOfBytes (crypto.hmacSha256 secret signingInput)

/-! ## TypeScript and Python -/

/-- The text of an object of strings, by its sorted keys. -/
def stableStringify (e : Encoder) (es : List (String × String)) : String :=
  e.objectText (es.insertionSort keyOrder)

structure HTTPSigner where
  kid    : String
  secret : String

/-- What `signRequest` returns. -/
structure SignedHeaders where
  signature : String
  bodyHash  : String
  nonce     : String

namespace HTTPSigner

variable (crypto : Crypto) (signer : HTTPSigner)

def hashBody (body : Option String) : String :=
  match body.filter fun text => text ≠ "" with
  | some text => base64urlOfBytes (crypto.hmacSha256 signer.secret text)
  | none      => ""

def header (nonce : String) : List (String × String) :=
  [("alg", "HS256"), ("kid", signer.kid), ("nonce", nonce), ("typ", "MAPSIG")]

def payload (method path timestamp : String) (body : Option String) : List (String × String) :=
  [("body", body.getD ""), ("key_id", signer.kid), ("method", toUpperCase method), ("path", path),
    ("timestamp", timestamp)]

/-- The signer of a language that writes strings so, with the nonce it draws. -/
def signWith (e : Encoder) (method path timestamp : String) (body : Option String)
    (nonce : String) : SignedHeaders where
  signature := compactSignature crypto signer.secret (stableStringify e (signer.header nonce))
    (stableStringify e (signer.payload method path timestamp body))
  bodyHash := signer.hashBody crypto body
  nonce := nonce

end HTTPSigner

/-- `signRequest` of the TypeScript SDK. -/
def TypeScript.signRequest (crypto : Crypto) (signer : HTTPSigner) (method path timestamp : String)
    (body : Option String) (nonce : String) : SignedHeaders :=
  signer.signWith crypto .javascript method path timestamp body nonce

/-- `sign_request` of the Python SDK. -/
def Python.signRequest (crypto : Crypto) (signer : HTTPSigner) (method path timestamp : String)
    (body : Option String) (nonce : String) : SignedHeaders :=
  signer.signWith crypto python method path timestamp body nonce

/-! ## Go -/

structure HMACSigner where
  secret : String
  keyID  : String

namespace HMACSigner

def signingHeader (signer : HMACSigner) : List (String × String) :=
  [("alg", "HS256"), ("kid", signer.keyID), ("typ", "MAPSIG")]

/-- Fields are written in the order in which they are declared. -/
def signingPayload (signer : HMACSigner) (method path body timestamp : String) :
    List (String × String) :=
  [("body", body), ("key_id", signer.keyID), ("method", toUpperCase method), ("path", path),
    ("timestamp", timestamp)]

def sign (crypto : Crypto) (signer : HMACSigner) (method path body timestamp : String) : String :=
  compactSignature crypto signer.secret (go.objectText signer.signingHeader)
    (go.objectText (signer.signingPayload method path body timestamp))

end HMACSigner

/-! ## What the server verifies -/

/-- The members that the server writes, in their order. -/
def canonicalMembers (input : SignedRequestPayload) : List (String × String) :=
  [("body", input.body), ("key_id", input.keyId), ("method", toUpperCase input.method),
    ("path", input.path), ("timestamp", input.timestamp)]

theorem stableStringify_of_sorted {e : Encoder} {es : List (String × String)}
    (h : (es.map Prod.fst).Pairwise codeUnitOrder) :
    stableStringify e es = e.objectText es := by
  have hsorted : es.Pairwise keyOrder := (List.pairwise_map (f := Prod.fst)).mp h
  unfold stableStringify
  rw [hsorted.insertionSort_eq]

theorem sorted_canonicalMembers (body keyId method path timestamp : String) :
    [("method", method), ("path", path), ("timestamp", timestamp), ("key_id", keyId),
      ("body", body)].insertionSort keyOrder =
    [("body", body), ("key_id", keyId), ("method", method), ("path", path),
      ("timestamp", timestamp)] := by
  simp +decide only [List.insertionSort_cons, List.insertionSort_nil, List.orderedInsert_cons,
    List.orderedInsert_nil, keyOrder, if_true, if_false]

theorem stableStringify_signedRequestPayload (input : SignedRequestPayload) :
    MapProtocol.stableStringify (signedRequestPayload input) =
      Encoder.javascript.objectText (canonicalMembers input) := by
  unfold MapProtocol.stableStringify serializeJcs
  dsimp only [Option.getD_some]
  unfold signedRequestPayload
  simp only [serializeJcsMembers, serializeJcs, Option.getD_some, sorted_canonicalMembers,
    Encoder.objectText, canonicalMembers, List.map_cons, List.map_nil, Encoder.quote_javascript]

/-- The server has the secret of a key id, for requests. -/
structure SharedKey (env : RequestEnv) (kid secret : String) where
  config   : SigningConfig
  key      : SigningKey
  read     : env.signing.signingConfig env.crypto = .ok config
  found    : config.getSigningKeyByKid kid = some key
  material : key.material = .hmac secret
  live     : key.status ≠ .revoked
  scope    : "http_request" ∈ key.scopes

/-- A header that names the key of an HMAC signature. -/
structure NamesKey (members : JsObject) (kid : String) : Prop where
  typ : (JsValue.obj members).property "typ" = .str "MAPSIG"
  alg : (JsValue.obj members).property "alg" = .str "HS256"
  kid : (JsValue.obj members).property "kid" = .str kid

namespace SharedKey

variable {env : RequestEnv} {kid secret : String}

theorem verificationKey_eq (shared : SharedKey env kid secret) {members : JsObject}
    (h : NamesKey members kid) :
    shared.config.verificationKey (.obj members) (some .httpRequest) = some shared.key := by
  have halg : shared.key.alg = .hs256 := by
    unfold SigningKey.alg
    rw [shared.material]
  have hkid : shared.key.kid = kid := SigningConfig.kid_of_getSigningKeyByKid shared.found
  refine SigningConfig.verificationKey_eq_some.mpr ⟨h.typ, ?_, ?_, ?_, shared.live, ?_⟩
  · rw [halg]
    exact h.alg
  · rw [hkid]
    exact h.kid
  · rw [hkid]
    exact shared.found
  · rintro name ⟨⟩
    exact shared.scope

/-- **When a signature under the shared key verifies**: its payload is the text that the server
writes. -/
theorem signatureVerifies_iff (shared : SharedKey env kid secret) {members : JsObject}
    (hnames : NamesKey members kid) {header payload : String}
    (hheader : parse header = some (.obj members)) {input : SignedRequestPayload} :
    env.signatureVerifies input (compactSignature env.crypto secret header payload) = .ok true ↔
      payload = MapProtocol.stableStringify (signedRequestPayload input) := by
  obtain ⟨-, -, -, hcrypto⟩ := SigningEnv.keys_of_signingConfig shared.read
  have hverify : shared.config.verifyCompactSignature
      (compactSignature env.crypto secret header payload) (signedRequestPayload input)
        (some .httpRequest) = true ↔
      payload = MapProtocol.stableStringify (signedRequestPayload input) := by
    have hbytes : shared.config.verifyBytes shared.key (base64url header ++ "." ++ base64url payload)
        (env.crypto.hmacSha256 secret (base64url header ++ "." ++ base64url payload)) = true := by
      unfold SigningConfig.verifyBytes
      rw [shared.material, hcrypto]
      exact beq_self_eq_true _
    unfold SigningConfig.verifyCompactSignature compactSignature
    rw [SigningConfig.verifies_iff_of_header hheader (dot_notMem_base64urlOfBytes _),
      bytesOfBase64url_base64urlOfBytes]
    exact and_iff_left ⟨shared.key, shared.verificationKey_eq hnames, hbytes⟩
  unfold RequestEnv.signatureVerifies
  rw [SigningEnv.verifyCompactSignature_iff]
  constructor
  · rintro ⟨config, hconfig, hverified⟩
    obtain rfl : shared.config = config := Except.ok.inj (shared.read.symm.trans hconfig)
    exact hverify.mp hverified
  · exact fun h => ⟨shared.config, shared.read, hverify.mpr h⟩

end SharedKey

def PlainKeys (e : Encoder) : Prop :=
  ∀ key ∈ ["body", "key_id", "method", "path", "timestamp"], e.Plain key

theorem plainKeys_javascript : PlainKeys .javascript := fun key _ => Encoder.plain_javascript key

theorem plainKeys_python : PlainKeys python := by
  unfold PlainKeys
  decide

theorem plainKeys_go : PlainKeys go := by
  unfold PlainKeys
  decide

structure PlainRequest (e : Encoder) (input : SignedRequestPayload) : Prop where
  body      : e.Plain input.body
  keyId     : e.Plain input.keyId
  method    : e.Plain (toUpperCase input.method)
  path      : e.Plain input.path
  timestamp : e.Plain input.timestamp

theorem objectText_canonicalMembers_iff {e : Encoder} {signed input : SignedRequestPayload}
    (hkeys : PlainKeys e) :
    e.objectText (canonicalMembers signed) =
        MapProtocol.stableStringify (signedRequestPayload input) ↔
      canonicalMembers signed = canonicalMembers input ∧ PlainRequest e signed := by
  rw [stableStringify_signedRequestPayload, Encoder.objectText_eq_iff]
  refine and_congr_right fun _ => ?_
  have hb := hkeys "body" (by simp)
  have hk := hkeys "key_id" (by simp)
  have hm := hkeys "method" (by simp)
  have hp := hkeys "path" (by simp)
  have ht := hkeys "timestamp" (by simp)
  simp only [canonicalMembers, List.forall_mem_cons, Encoder.PlainMember, hb, hk, hm, hp, ht,
    true_and, List.not_mem_nil, false_implies, implies_true, and_true]
  exact ⟨fun ⟨h1, h2, h3, h4, h5⟩ => ⟨h1, h2, h3, h4, h5⟩,
    fun h => ⟨h.body, h.keyId, h.method, h.path, h.timestamp⟩⟩

theorem canonicalMembers_inj {signed input : SignedRequestPayload} :
    canonicalMembers signed = canonicalMembers input ↔
      signed.body = input.body ∧ signed.keyId = input.keyId ∧
        toUpperCase signed.method = toUpperCase input.method ∧ signed.path = input.path ∧
          signed.timestamp = input.timestamp := by
  simp [canonicalMembers]

/-- What `signRequest` signs. -/
def HTTPSigner.request (signer : HTTPSigner) (method path timestamp : String)
    (body : Option String) : SignedRequestPayload :=
  ⟨method, path, timestamp, signer.kid, body.getD ""⟩

/-- What `Sign` signs. -/
def HMACSigner.request (signer : HMACSigner) (method path body timestamp : String) :
    SignedRequestPayload := ⟨method, path, timestamp, signer.keyID, body⟩

section Verifies

variable {env : RequestEnv} {input : SignedRequestPayload}

theorem HTTPSigner.verifies_iff {signer : HTTPSigner}
    (shared : SharedKey env signer.kid signer.secret) {e : Encoder} (hkeys : PlainKeys e)
    (method path timestamp : String) (body : Option String) (nonce : String) :
    env.signatureVerifies input
        (signer.signWith env.crypto e method path timestamp body nonce).signature = .ok true ↔
      canonicalMembers (signer.request method path timestamp body) = canonicalMembers input ∧
        PlainRequest e (signer.request method path timestamp body) := by
  have hheader : parse (stableStringify e (signer.header nonce)) =
      some (.obj (stringMembers (signer.header nonce))) := by
    rw [stableStringify_of_sorted (show (List.map Prod.fst (signer.header nonce)).Pairwise _ from
      (by decide : ["alg", "kid", "nonce", "typ"].Pairwise codeUnitOrder))]
    exact e.parse_objectText (List.cons_ne_nil _ _) rfl
  have hpayload : stableStringify e (signer.payload method path timestamp body) =
      e.objectText (canonicalMembers (signer.request method path timestamp body)) :=
    stableStringify_of_sorted
      (by decide : ["body", "key_id", "method", "path", "timestamp"].Pairwise
        codeUnitOrder)
  unfold signWith
  dsimp only
  rw [shared.signatureVerifies_iff ⟨rfl, rfl, rfl⟩ hheader, hpayload,
    objectText_canonicalMembers_iff hkeys]

theorem HMACSigner.verifies_iff {signer : HMACSigner}
    (shared : SharedKey env signer.keyID signer.secret) (method path body timestamp : String) :
    env.signatureVerifies input (signer.sign env.crypto method path body timestamp) = .ok true ↔
      canonicalMembers (signer.request method path body timestamp) = canonicalMembers input ∧
        PlainRequest go (signer.request method path body timestamp) := by
  have hheader : parse (go.objectText signer.signingHeader) =
      some (.obj (stringMembers signer.signingHeader)) :=
    go.parse_objectText (List.cons_ne_nil _ _) rfl
  have hpayload : signer.signingPayload method path body timestamp =
      canonicalMembers (signer.request method path body timestamp) := rfl
  unfold sign
  rw [shared.signatureVerifies_iff ⟨rfl, rfl, rfl⟩ hheader, hpayload,
    objectText_canonicalMembers_iff plainKeys_go]

end Verifies

end MapProtocol.Sdk
