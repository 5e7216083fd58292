import MapProtocol.Security.Signing

/-!
# Where the signing keys come from

`getSigningKeys()` reads the keys anew on every call: the records of the key provider, brought into
form, or the default key where no record is usable. A key whose kid `MAP_SIGNING_REVOKED_KIDS` lists
is revoked.
-/

namespace MapProtocol

open Js

/-- What is read of the process: its environment variables, the files, and the secret and the id
that the process draws once for its ephemeral key. -/
structure SigningEnv where
  keyProvider          : Option String
  signingKeys          : Option String
  keysetJson           : Option String
  keysetPath           : Option String
  readFile             : String → Option String
  signingSecret        : Option String
  requireSigningSecret : Option String
  revokedKids          : Option String
  activeKid            : Option String
  deploymentProfile    : Option String
  ephemeralSecret      : String
  ephemeralUuid        : String

/-- The records of a key set that is written as a JSON array. -/
def keyRecords : Option String → List JsValue
  | none      => []
  | some text =>
      if isBlank text then []
      else match parse text with
        | some (.arr records) => records
        | _                   => []

def DEFAULT_SCOPES : List String :=
  ["descriptor", "delegation_token", "receipt", "http_request", "audit_checkpoint", "audit_export",
    "conformance_export", "trust_bundle"]

/-- A text that `trim` leaves something of. -/
def nonBlankText : JsValue → Option String
  | .str s => if isBlank s then none else some s
  | _      => none

/-- The kids that a comma-separated list names. -/
def listedKids : Option String → List String
  | none     => []
  | some raw =>
      if isBlank raw then [] else ((split raw ',').map trim).filter fun kid => kid ≠ ""

/-- The status of a key record; anything but the two others is `active`. -/
def recordStatus (record : JsValue) : KeyStatus :=
  if (record.property "status").asString = some "revoked" then .revoked
  else if (record.property "status").asString = some "retiring" then .retiring
  else .active

/-- The scopes of a key record. What is not a string stands for no scope. -/
def recordScopes (record : JsValue) : List String :=
  match record.property "scopes" with
  | .arr (scope :: scopes) => (scope :: scopes).filterMap JsValue.asString
  | _                      => DEFAULT_SCOPES

/-- The material of a key record, where it is complete. -/
def recordMaterial (record : JsValue) : Option KeyMaterial :=
  if (record.property "alg").asString = some "RS256" then
    (nonBlankText (record.property "public_key_pem")).map
      (.rsa (nonBlankText (record.property "private_key_pem")))
  else match record.property "secret" with
    | .str secret => if secret = "" then none else some (.hmac secret)
    | _           => none

/-- The key of a record, where the record has a kid and material. -/
def signingKeyOfRecord (record : JsValue) : Option SigningKey :=
  match nonBlankText (record.property "kid"), recordMaterial record with
  | some kid, some material => some ⟨trim kid, recordStatus record, recordScopes record, material⟩
  | _, _                    => none

namespace SigningEnv

variable (env : SigningEnv)

def getDeploymentProfile : DeploymentProfile :=
  match env.deploymentProfile with
  | some "verified"  => .verified
  | some "regulated" => .regulated
  | _                => .open

/-- The records of the key provider that `MAP_KEY_PROVIDER` selects. -/
def getSigningKeyConfigsFromProvider : List JsValue :=
  let configured := toLowerCase (trim (env.keyProvider.getD "env"))
  if configured = "json_keyset" ∨ configured = "kms_json" then keyRecords env.keysetJson
  else if configured = "file_keyset" ∨ configured = "kms_file" then
    match env.keysetPath with
    | none      => []
    | some path => if isBlank path then [] else keyRecords (env.readFile path)
  else keyRecords env.signingKeys

/-- The key of the process itself: of the configured secret, else an ephemeral one. -/
def getDefaultSigningKey : Except String SigningKey :=
  match env.signingSecret.filter fun secret => secret ≠ "" with
  | some secret => .ok ⟨DEFAULT_KID, .active, DEFAULT_SCOPES, .hmac secret⟩
  | none        => do
      throwIf (env.getDeploymentProfile ≠ .open)
        "MAP_SIGNING_SECRET must be configured for verified/regulated profiles."
      throwIf (env.requireSigningSecret = some "true")
        ("MAP_REQUIRE_SIGNING_SECRET is set but MAP_SIGNING_SECRET is not configured. " ++
          "Refusing to start with ephemeral key. Set MAP_SIGNING_SECRET for stable signing.")
      return ⟨"map-ephemeral-" ++ String.ofList (env.ephemeralUuid.toList.take 8), .active,
        DEFAULT_SCOPES, .hmac env.ephemeralSecret⟩

def getRevokedKidsFromEnv : List String := listedKids env.revokedKids

/-- A key as the environment leaves it: revoked where its kid is listed. -/
def withRevocation (key : SigningKey) : SigningKey :=
  if key.kid ∈ env.getRevokedKidsFromEnv then { key with status := .revoked } else key

def getSigningKeys : Except String (List SigningKey) :=
  match env.getSigningKeyConfigsFromProvider.filterMap signingKeyOfRecord with
  | []          => env.getDefaultSigningKey.map fun key => [env.withRevocation key]
  | key :: keys => .ok ((key :: keys).map env.withRevocation)

/-- The keys as signing and verifying see them. -/
def signingConfig (crypto : Crypto) : Except String SigningConfig :=
  env.getSigningKeys.map fun keys => ⟨keys, env.activeKid, env.getDeploymentProfile, crypto⟩

/-- Whether a compact signature has a header that names an algorithm; only then are keys read. -/
def readsHeader (signature : String) : Bool :=
  match split signature '.' with
  | [encodedHeader, _, _] =>
      match parse (fromUtf8 (bytesOfBase64url encodedHeader)) with
      | none        => false
      | some header =>
          decide ((header.property "typ").asString = some "MAPSIG") &&
            (decide ((header.property "alg").asString = some "HS256") ||
              decide ((header.property "alg").asString = some "RS256"))
  | _ => false

/-- `createCompactSignature`, with the keys of the environment. -/
def createCompactSignature (crypto : Crypto) (payload : JsObject) (requestedKid : Option String)
    (scope : Option SignatureScope) : Except String String := do
  let config ← env.signingConfig crypto
  config.createCompactSignature payload requestedKid scope

/-- `verifyCompactSignature`, with the keys of the environment. -/
def verifyCompactSignature (crypto : Crypto) (signature : String) (payload : JsObject)
    (scope : Option SignatureScope) : Except String Bool :=
  if readsHeader signature then
    (env.signingConfig crypto).map fun config => config.verifyCompactSignature signature payload scope
  else .ok false

variable {env}

@[simp] theorem kid_withRevocation (key : SigningKey) : (env.withRevocation key).kid = key.kid := by
  unfold withRevocation
  split <;> rfl

theorem mem_getSigningKeys {keys : List SigningKey} (h : env.getSigningKeys = .ok keys)
    {key : SigningKey} (hkey : key ∈ keys) : ∃ found, key = env.withRevocation found := by
  unfold getSigningKeys at h
  split at h
  · obtain ⟨found, _, rfl⟩ := map_eq_ok.mp h
    exact ⟨found, List.mem_singleton.mp hkey⟩
  · cases h
    obtain ⟨found, _, rfl⟩ := List.mem_map.mp hkey
    exact ⟨found, rfl⟩

theorem status_of_listed {keys : List SigningKey} (h : env.getSigningKeys = .ok keys)
    {key : SigningKey} (hkey : key ∈ keys) (hlisted : key.kid ∈ env.getRevokedKidsFromEnv) :
    key.status = .revoked := by
  obtain ⟨found, rfl⟩ := mem_getSigningKeys h hkey
  rw [kid_withRevocation] at hlisted
  unfold withRevocation
  rw [if_pos hlisted]

end SigningEnv

/-- A process in the open profile that has one secret and nothing else configured. -/
def sampleSigningEnv : SigningEnv where
  keyProvider := none
  signingKeys := none
  keysetJson := none
  keysetPath := none
  readFile _ := none
  signingSecret := some "secret"
  requireSigningSecret := none
  revokedKids := none
  activeKid := none
  deploymentProfile := none
  ephemeralSecret := ""
  ephemeralUuid := ""

end MapProtocol
