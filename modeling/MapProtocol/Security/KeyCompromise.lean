import MapProtocol.Js.JsonRoundTrip
import MapProtocol.Security.KmsProvider
import MapProtocol.Security.RequestSigning
import MapProtocol.Security.Wire

/-!
# Emergency revocation

`emergencyRevokeAllKeys` asks the key provider to revoke every key, and then makes an emergency key.
What the provider revokes is its own copy of the keys: signing and verifying read theirs from the
environment, on every call. Of the environment, the call changes `MAP_SIGNING_KEYS` and
`MAP_SIGNING_ACTIVE_KID`, and these only where the emergency key is an RSA pair.
-/

namespace MapProtocol

open Js

variable {existing : List JsValue}

/-! ## The providers -/

/-- The key providers that have keys. -/
inductive KmsProvider where
  | loaded (p : LocalKMSProvider)
  | env

namespace SigningEnv

variable (env : SigningEnv)

/-- The keys that `EnvKMSProvider` reads. -/
def envKeys : List SigningKey := (keyRecords env.signingKeys).filterMap signingKeyOfRecord

end SigningEnv

namespace KmsProvider

def listKeys (crypto : KmsCrypto) (env : SigningEnv) :
    KmsProvider → List (String × KeyStatus) × KmsProvider
  | .loaded p =>
      let (keys, p) := p.listKeys crypto
      (keys.map fun key => (key.kid, key.status), .loaded p)
  | .env      => (env.envKeys.map fun key => (key.kid, key.status), .env)

def revokeKey (keyId : String) : KmsProvider → Except String Unit × KmsProvider
  | .loaded p =>
      let (result, p) := p.revokeKey keyId
      (result, .loaded p)
  | .env      =>
      (.error ("EnvKMSProvider: key revocation is not supported for env-based keys. " ++
        "Use MAP_SIGNING_REVOKED_KIDS to mark keys as revoked via environment configuration."), .env)

/-- What the loop over the listed keys leaves: the kids that were revoked, and the errors. -/
structure Sweep where
  provider      : KmsProvider
  revokedKeyIds : List String
  errors        : List String

def Sweep.visit (sweep : Sweep) (key : String × KeyStatus) : Sweep :=
  if key.2 = .revoked then sweep
  else match sweep.provider.revokeKey key.1 with
    | (.ok _, provider)      => ⟨provider, sweep.revokedKeyIds ++ [key.1], sweep.errors⟩
    | (.error err, provider) =>
        ⟨provider, sweep.revokedKeyIds,
          sweep.errors ++ ["Failed to revoke key " ++ key.1 ++ ": " ++ err]⟩

def revokeAll (crypto : KmsCrypto) (env : SigningEnv) (provider : KmsProvider) : Sweep :=
  let (allKeys, provider) := provider.listKeys crypto env
  allKeys.foldl Sweep.visit ⟨provider, [], []⟩

end KmsProvider

/-! ## The emergency key -/

/-- An RSA pair as two PEM texts. -/
structure KeyPair where
  publicPem  : String
  privatePem : String

structure EmergencyKey where
  kid          : String
  secret       : Option String
  publicKeyPem : Option String
  deriving DecidableEq, Repr

structure CompromiseRecord where
  compromised    : Bool
  revokedAt      : String
  reason         : String
  emergencyKeyId : Option String
  revokedKeyIds  : List String

/-- `[...JSON.parse(MAP_SIGNING_KEYS)]`; a string is spread into its characters. -/
def existingKeys : Option String → Except String (List JsValue)
  | none      => .ok []
  | some text =>
      if text = "" then .ok []
      else match parse text with
        | none               => .error "Unexpected token in JSON"
        | some (.arr keys)   => .ok keys
        | some (.str s)      => .ok (s.toList.map fun c => .str (String.singleton c))
        | some _             => .error "existingKeys is not iterable"

def newKeyEntry (kid : String) (pair : KeyPair) : JsValue :=
  .obj [("kid", .str kid), ("alg", .str "RS256"), ("private_key_pem", .str pair.privatePem),
    ("public_key_pem", .str pair.publicPem), ("status", .str "active"), ("demo_only", .bool false),
    ("scopes", .arr (DEFAULT_SCOPES.map JsValue.str))]

def emergencyKid (now : Nat) : String := "emergency-rsa-" ++ toString now

/-- `generateEmergencyKey()` at the time `now`, with `MAP_EMERGENCY_KEY` and the pair that is drawn:
the key, and the environment after it. -/
def SigningEnv.generateEmergencyKey (env : SigningEnv) (emergencySecret : Option String) (now : Nat)
    (pair : KeyPair) : Except String (EmergencyKey × SigningEnv) :=
  match emergencySecret.filter fun secret => !isBlank secret with
  | some secret => .ok (⟨"emergency-" ++ toString now, some (trim secret), none⟩, env)
  | none        => do
      let existing ← existingKeys env.signingKeys
      let text := (stringify? (.arr (existing ++ [newKeyEntry (emergencyKid now) pair]))).getD ""
      return (⟨emergencyKid now, none, some pair.publicPem⟩,
        { env with signingKeys := some text, activeKid := some (emergencyKid now) })

/-- What `emergencyRevokeAllKeys` leaves. -/
structure Emergency where
  key    : EmergencyKey
  env    : SigningEnv
  record : CompromiseRecord
  errors : List String

def SigningEnv.emergencyRevokeAllKeys (env : SigningEnv) (crypto : KmsCrypto) (provider : KmsProvider)
    (reason : String) (emergencySecret : Option String) (now : Nat) (pair : KeyPair) :
    Except String Emergency := do
  let sweep := provider.revokeAll crypto env
  let (key, after) ← env.generateEmergencyKey emergencySecret now pair
  return ⟨key, after, ⟨true, toISOString now, reason, some key.kid, sweep.revokedKeyIds⟩, sweep.errors⟩

/-! ## The key set that is written

The new entry is appended to what was configured, and nothing is taken out. -/

/-- A pair that was drawn: the public key verifies what the private key signs. -/
structure KeyPair.Drawn (crypto : Crypto) (rsaSignature : String → Option (String → List UInt8))
    (pair : KeyPair) : Prop where
  publicPem  : isBlank pair.publicPem = false
  privatePem : isBlank pair.privatePem = false
  signs      : ∃ sign, crypto.rsaSign pair.privatePem = .ok sign ∧
    rsaSignature pair.publicPem = some sign

/-- The key that the new entry stands for. -/
def emergencySigningKey (now : Nat) (pair : KeyPair) : SigningKey :=
  ⟨emergencyKid now, .active, DEFAULT_SCOPES, .rsa (some pair.privatePem) pair.publicPem⟩

theorem not_isWhiteSpace_emergencyKid (now : Nat) :
    ∀ c ∈ (emergencyKid now).toList, isWhiteSpace c = false := by
  intro c hc
  rw [emergencyKid, String.toList_append] at hc
  rcases List.mem_append.mp hc with hc | hc
  · have hall : "emergency-rsa-".toList.all (fun c => !isWhiteSpace c) = true := by decide
    simpa using List.all_eq_true.mp hall c hc
  · have hdigit := isDigit_of_mem_toString hc
    simp only [isDigit, Bool.and_eq_true, decide_eq_true_eq] at hdigit
    have hlow : 48 ≤ c.toNat := hdigit.1
    have hhigh : c.toNat ≤ 57 := hdigit.2
    simp [isWhiteSpace]
    omega

theorem trim_emergencyKid (now : Nat) : trim (emergencyKid now) = emergencyKid now :=
  trim_eq_self (not_isWhiteSpace_emergencyKid now)

theorem head_emergencyKid (now : Nat) : (emergencyKid now).toList.head? = some 'e' := by
  rw [emergencyKid, String.toList_append]
  rfl

theorem not_isBlank_emergencyKid (now : Nat) : isBlank (emergencyKid now) = false := by
  obtain ⟨cs, hcs⟩ := List.head?_eq_some_iff.mp (head_emergencyKid now)
  unfold isBlank
  rw [hcs]
  rfl

section

variable {crypto : Crypto} {rsaSignature : String → Option (String → List UInt8)} {pair : KeyPair}

theorem signingKeyOfRecord_newKeyEntry (hpair : pair.Drawn crypto rsaSignature) (now : Nat) :
    signingKeyOfRecord (newKeyEntry (emergencyKid now) pair) =
      some (emergencySigningKey now pair) := by
  have hkid : (newKeyEntry (emergencyKid now) pair).property "kid" = .str (emergencyKid now) := rfl
  have halg : (newKeyEntry (emergencyKid now) pair).property "alg" = .str "RS256" := rfl
  have hpublic : (newKeyEntry (emergencyKid now) pair).property "public_key_pem" =
      .str pair.publicPem := rfl
  have hprivate : (newKeyEntry (emergencyKid now) pair).property "private_key_pem" =
      .str pair.privatePem := rfl
  have hstatus : recordStatus (newKeyEntry (emergencyKid now) pair) = .active := rfl
  have hscopes : recordScopes (newKeyEntry (emergencyKid now) pair) = DEFAULT_SCOPES := rfl
  have hmaterial : recordMaterial (newKeyEntry (emergencyKid now) pair) =
      some (.rsa (some pair.privatePem) pair.publicPem) := by
    unfold recordMaterial
    rw [halg, if_pos (show (JsValue.str "RS256").asString = some "RS256" from rfl), hpublic, hprivate]
    simp [nonBlankText, hpair.publicPem, hpair.privatePem]
  unfold signingKeyOfRecord
  rw [hkid, hmaterial, hstatus, hscopes]
  simp [nonBlankText, not_isBlank_emergencyKid, trim_emergencyKid, emergencySigningKey]

end

/-- Only a text with a bracket in it is parsed as an array. -/
theorem not_isBlank_of_parse {text : String} {keys : List JsValue}
    (h : parse text = some (.arr keys)) : isBlank text = false := by
  have hbracket : '[' ∈ text.toList := by
    unfold parse at h
    split at h
    · rename_i v rest hv
      split at h
      · cases h
        unfold parseValue at hv
        split at hv
        · cases hv
        · cases hv
        · cases hv
        · obtain ⟨_, _, heq⟩ := Option.map_eq_some_iff.mp hv
          cases heq
        · rename_i hskip
          refine (List.dropWhile_suffix isJsonSpace).subset ?_
          rw [show List.dropWhile isJsonSpace text.toList = _ from hskip]
          exact List.mem_cons_self
        · split at hv
          · cases hv
          · obtain ⟨_, _, heq⟩ := Option.map_eq_some_iff.mp hv
            cases heq
        · obtain ⟨_, _, heq⟩ := Option.map_eq_some_iff.mp hv
          cases heq
      · cases h
    · cases h
  rw [Bool.eq_false_iff]
  intro hblank
  exact absurd (List.all_eq_true.mp hblank _ hbracket) (by decide)

theorem keys_of_parse {text : String} {keys : List JsValue} (h : parse text = some (.arr keys)) :
    keyRecords (some text) = keys ∧ existingKeys (some text) = .ok keys := by
  have hblank := not_isBlank_of_parse h
  constructor
  · unfold keyRecords
    dsimp only
    rw [hblank, h, if_neg (by simp)]
  · have hne : text ≠ "" := by
      rintro rfl
      cases hblank
    unfold existingKeys
    dsimp only
    rw [if_neg hne, h]

theorem isJson_existingKeys {signingKeys : Option String}
    (h : existingKeys signingKeys = .ok existing) : ∀ v ∈ existing, IsJson v := by
  unfold existingKeys at h
  split at h
  · cases h
    simp
  · split at h
    · cases h
      simp
    · split at h
      · cases h
      · rename_i hparse
        cases h
        exact areJson_iff.mp (isJson_of_parse hparse)
      · cases h
        intro v hv
        obtain ⟨c, -, rfl⟩ := List.mem_map.mp hv
        trivial
      · cases h

/-- The entries that are carried over stand for the same keys. -/
theorem filterMap_existingKeys {signingKeys : Option String}
    (h : existingKeys signingKeys = .ok existing) :
    existing.filterMap signingKeyOfRecord =
      (keyRecords signingKeys).filterMap signingKeyOfRecord := by
  unfold existingKeys at h
  split at h
  · cases h
    rfl
  · rename_i text
    split at h
    · rename_i hempty
      cases h
      rw [hempty]
      rfl
    · split at h
      · cases h
      · rename_i hparse
        cases h
        rw [(keys_of_parse hparse).1]
      · rename_i s hparse
        cases h
        have hchars : (s.toList.map fun c => JsValue.str (String.singleton c)).filterMap
            signingKeyOfRecord = [] := by
          rw [List.filterMap_eq_nil_iff]
          intro v hv
          obtain ⟨c, -, rfl⟩ := List.mem_map.mp hv
          rfl
        have hnone : keyRecords (some text) = [] := by
          unfold keyRecords
          dsimp only
          rw [hparse]
          split <;> rfl
        rw [hchars, hnone]
        rfl
      · cases h

theorem keyRecords_written (h : ∀ v ∈ existing, IsJson v) (now : Nat) (pair : KeyPair) :
    keyRecords (some ((stringify? (.arr (existing ++ [newKeyEntry (emergencyKid now) pair]))).getD
      "")) = existing ++ [newKeyEntry (emergencyKid now) pair] := by
  have hentry : IsJson (newKeyEntry (emergencyKid now) pair) := by
    refine ⟨by simp, ?_⟩
    simp [HaveJson, IsJson, AreJson, DEFAULT_SCOPES]
  have hjson : IsJson (.arr (existing ++ [newKeyEntry (emergencyKid now) pair])) := by
    refine areJson_iff.mpr fun v hv => ?_
    rcases List.mem_append.mp hv with hv | hv
    · exact h v hv
    · rwa [List.mem_singleton.mp hv]
  obtain ⟨text, htext⟩ := hjson.text
  rw [htext, Option.getD_some]
  exact (keys_of_parse (parse_stringify? hjson htext)).1

/-! ## The keys after the call

The call rewrites `MAP_SIGNING_KEYS`: what was configured, and the emergency key behind it. -/

namespace SigningEnv

/-- The key provider is the one that reads `MAP_SIGNING_KEYS`. -/
def ReadsSigningKeys (env : SigningEnv) : Prop :=
  toLowerCase (trim (env.keyProvider.getD "env")) ∉
    ["json_keyset", "kms_json", "file_keyset", "kms_file"]

instance (env : SigningEnv) : Decidable env.ReadsSigningKeys :=
  inferInstanceAs (Decidable (_ ∉ _))

/-- The environment with another key set and another preferred key. -/
def withKeys (env : SigningEnv) (text kid : String) : SigningEnv :=
  { env with signingKeys := some text, activeKid := some kid }

variable {env : SigningEnv}

theorem getSigningKeyConfigs_of_reads (h : env.ReadsSigningKeys) :
    env.getSigningKeyConfigsFromProvider = keyRecords env.signingKeys := by
  unfold ReadsSigningKeys at h
  simp only [List.mem_cons, List.not_mem_nil, or_false, not_or] at h
  unfold getSigningKeyConfigsFromProvider
  dsimp only
  rw [if_neg (not_or.mpr ⟨h.1, h.2.1⟩), if_neg (not_or.mpr h.2.2)]

theorem getSigningKeys_withKeys (h : ¬ env.ReadsSigningKeys) (text kid : String) :
    (env.withKeys text kid).getSigningKeys = env.getSigningKeys := by
  have hconfigs : (env.withKeys text kid).getSigningKeyConfigsFromProvider =
      env.getSigningKeyConfigsFromProvider := by
    unfold getSigningKeyConfigsFromProvider
    dsimp only [withKeys]
    by_cases hjson : toLowerCase (trim (env.keyProvider.getD "env")) = "json_keyset" ∨
        toLowerCase (trim (env.keyProvider.getD "env")) = "kms_json"
    · rw [if_pos hjson, if_pos hjson]
    · rw [if_neg hjson, if_neg hjson]
      by_cases hfile : toLowerCase (trim (env.keyProvider.getD "env")) = "file_keyset" ∨
          toLowerCase (trim (env.keyProvider.getD "env")) = "kms_file"
      · rw [if_pos hfile, if_pos hfile]
      · refine absurd ?_ h
        unfold ReadsSigningKeys
        simp [not_or.mp hjson, not_or.mp hfile]
  have hdefault : (env.withKeys text kid).getDefaultSigningKey = env.getDefaultSigningKey := rfl
  have hrevocation : (env.withKeys text kid).withRevocation = env.withRevocation := rfl
  unfold getSigningKeys
  rw [hconfigs, hdefault, hrevocation]

theorem getSigningKeys_of_reads (h : env.ReadsSigningKeys) : env.getSigningKeys =
    if env.envKeys = [] then env.getDefaultSigningKey.map fun key => [env.withRevocation key]
    else .ok (env.envKeys.map env.withRevocation) := by
  have hkeys : (keyRecords env.signingKeys).filterMap signingKeyOfRecord = env.envKeys := rfl
  unfold getSigningKeys
  rw [getSigningKeyConfigs_of_reads h, hkeys]
  cases env.envKeys with
  | nil => rfl
  | cons key keys => rfl

/-- The keys that are read after the call: those that were configured, and the emergency key. -/
theorem getSigningKeys_written (h : env.ReadsSigningKeys) {crypto : Crypto}
    {rsaSignature : String → Option (String → List UInt8)} {pair : KeyPair}
    (hpair : pair.Drawn crypto rsaSignature) {existing : List JsValue}
    (hexisting : existingKeys env.signingKeys = .ok existing) {now : Nat} {text : String}
    (htext : keyRecords (some text) = existing ++ [newKeyEntry (emergencyKid now) pair]) :
    (env.withKeys text (emergencyKid now)).getSigningKeys =
      .ok ((env.envKeys ++ [emergencySigningKey now pair]).map env.withRevocation) := by
  have henv : (env.withKeys text (emergencyKid now)).envKeys =
      env.envKeys ++ [emergencySigningKey now pair] := by
    show (keyRecords (some text)).filterMap signingKeyOfRecord = _
    rw [htext, List.filterMap_append, filterMap_existingKeys hexisting]
    simp [envKeys, signingKeyOfRecord_newKeyEntry hpair]
  rw [@getSigningKeys_of_reads (env.withKeys text (emergencyKid now)) h, henv,
    if_neg (by simp)]
  rfl

theorem kid_of_getDefaultSigningKey {key : SigningKey} (h : env.getDefaultSigningKey = .ok key)
    (now : Nat) : key.kid ≠ emergencyKid now := by
  have hhead : key.kid.toList.head? = some 'm' := by
    unfold getDefaultSigningKey at h
    split at h
    · cases h
      show DEFAULT_KID.toList.head? = some 'm'
      decide
    · simp only [bind_eq_ok, throwIf_eq_ok, pure_eq_ok] at h
      obtain ⟨_, _, _, _, rfl⟩ := h
      simp [String.toList_append]
  intro hkid
  rw [hkid, head_emergencyKid] at hhead
  cases hhead

/-- What `generateEmergencyKey` leaves of the environment. -/
theorem generateEmergencyKey_cases {emergencySecret : Option String} {now : Nat} {pair : KeyPair}
    {key : EmergencyKey} {after : SigningEnv}
    (h : env.generateEmergencyKey emergencySecret now pair = .ok (key, after)) :
    (∃ secret, emergencySecret = some secret ∧ isBlank secret = false ∧ after = env) ∨
      (∀ secret, emergencySecret = some secret → isBlank secret = true) ∧
        key.kid = emergencyKid now ∧ ∃ existing text,
          existingKeys env.signingKeys = .ok existing ∧
          keyRecords (some text) = existing ++ [newKeyEntry (emergencyKid now) pair] ∧
          after = env.withKeys text (emergencyKid now) := by
  unfold generateEmergencyKey at h
  split at h
  · rename_i secret hsecret
    obtain ⟨hsome, hblank⟩ := Option.filter_eq_some_iff.mp hsecret
    cases h
    exact .inl ⟨secret, hsome, by simpa using hblank, rfl⟩
  · rename_i hnone
    simp only [bind_eq_ok, pure_eq_ok, Prod.mk.injEq] at h
    obtain ⟨existing, hexisting, rfl, rfl⟩ := h
    refine .inr ⟨fun secret hsecret => ?_, rfl, existing, _, hexisting,
      keyRecords_written (isJson_existingKeys hexisting) now pair, rfl⟩
    rw [hsecret] at hnone
    simpa using hnone

end SigningEnv

/-! ## What is revoked

A key is of use as long as the environment still yields it with material that verifies or signs. -/

/-- The material of a key makes signatures that can be told. -/
def SigningKey.CanVerify (crypto : Crypto) (rsaSignature : String → Option (String → List UInt8))
    (key : SigningKey) : Prop := (key.signature crypto rsaSignature "").isSome = true

/-- The material of a key can sign, by an algorithm of the profile. -/
def SigningKey.CanSign (crypto : Crypto) (profile : DeploymentProfile) (key : SigningKey) : Prop :=
  key.alg ∈ getAllowedAlgorithms profile ∧ match key.material with
    | .hmac _         => True
    | .rsa none _     => False
    | .rsa (some p) _ => ∃ sign, crypto.rsaSign p = .ok sign

/-- A key that may still verify or sign, under one of the scopes. -/
structure SigningKey.Useful (crypto : Crypto)
    (rsaSignature : String → Option (String → List UInt8)) (profile : DeploymentProfile)
    (key : SigningKey) : Prop where
  live  : key.status ≠ .revoked
  scope : ∃ scope : SignatureScope, scope.text ∈ key.scopes
  able  : key.CanVerify crypto rsaSignature ∨ key.CanSign crypto profile

/-- Once the keys of `before` are revoked: no signature that names one of them verifies or is made,
and the emergency key makes signatures that verify. -/
structure SigningEnv.Revokes (crypto : Crypto) (before after : SigningEnv) (kid : String) : Prop where
  verifies  : ∀ keys, before.getSigningKeys = .ok keys → ∀ key ∈ keys,
    ∀ signature payload scope,
      after.verifyCompactSignature crypto signature payload (some scope) = .ok true →
        Wire.getSignatureKeyId signature ≠ some key.kid
  makes     : ∀ keys, before.getSigningKeys = .ok keys → ∀ key ∈ keys,
    ∀ payload requestedKid scope signature,
      after.createCompactSignature crypto payload requestedKid (some scope) = .ok signature →
        Wire.getSignatureKeyId signature ≠ some key.kid
  emergency : ∀ payload scope, ∃ signature,
    after.createCompactSignature crypto payload none (some scope) = .ok signature ∧
      Wire.getSignatureKeyId signature = some kid ∧
      after.verifyCompactSignature crypto signature payload (some scope) = .ok true

/-- The keys are out of use before the call: no secret is kept for the emergency, the keys are read
from `MAP_SIGNING_KEYS`, the kid of the new key is neither listed as revoked nor taken, and of the
configured keys none that its kid finds is useful. -/
structure SigningEnv.Spent (env : SigningEnv) (crypto : Crypto)
    (rsaSignature : String → Option (String → List UInt8)) (emergencySecret : Option String)
    (now : Nat) : Prop where
  drawn    : ∀ secret, emergencySecret = some secret → isBlank secret = true
  read     : env.ReadsSigningKeys
  unlisted : emergencyKid now ∉ env.getRevokedKidsFromEnv
  untaken  : ∀ key ∈ env.envKeys, key.kid ≠ emergencyKid now
  useless  : ∀ key ∈ env.envKeys, env.envKeys.find? (fun k => k.kid == key.kid) = some key →
    ¬ (env.withRevocation key).Useful crypto rsaSignature env.getDeploymentProfile

section

variable {crypto : Crypto} {rsaSignature : String → Option (String → List UInt8)}
  {config : SigningConfig} {env : SigningEnv}

variable {key : SigningKey} {requestedKid : Option String}

theorem SigningKey.canVerify_iff (key : SigningKey) (input : String) :
    key.CanVerify crypto rsaSignature ↔ ∃ bytes, key.signature crypto rsaSignature input = some bytes := by
  unfold CanVerify signature
  cases key.material with
  | hmac secret => simp
  | rsa privateKeyPem publicKeyPem => simp [Option.isSome_iff_exists]

theorem SigningConfig.canSign_iff : key.CanSign config.crypto config.profile ↔
    key.alg ∈ getAllowedAlgorithms config.profile ∧ ∃ sign, config.signer key = .ok sign := by
  unfold SigningKey.CanSign signer
  cases key.material with
  | hmac secret => simp
  | rsa privateKeyPem publicKeyPem => cases privateKeyPem <;> simp

theorem assertAlgorithmAllowed_eq_ok {alg : SigningAlgorithm} {profile : DeploymentProfile}
    {u : Unit} : assertAlgorithmAllowed alg profile = .ok u ↔ alg ∈ getAllowedAlgorithms profile := by
  unfold assertAlgorithmAllowed
  dsimp only
  rw [throwIf_eq_ok, not_not]

theorem SigningConfig.authorizedKey_iff {scope : SignatureScope} :
    config.authorizedKey requestedKid (some scope) = .ok key ↔
      config.signingKey requestedKid = .ok key ∧ key.status ≠ .revoked ∧ scope.text ∈ key.scopes ∧
        key.alg ∈ getAllowedAlgorithms config.profile := by
  unfold authorizedKey
  simp only [bind_eq_ok, throwIf_eq_ok, pure_eq_ok, assertAlgorithmAllowed_eq_ok]
  constructor
  · rintro ⟨found, hfound, _, hlive, _, hscope, _, halg, rfl⟩
    exact ⟨hfound, hlive, by simpa using hscope, halg⟩
  · rintro ⟨hfound, hlive, hscope, halg⟩
    exact ⟨key, hfound, (), hlive, (), by simpa using hscope, (), halg, rfl⟩

/-- What an authorized key makes. -/
theorem SigningConfig.create_of_authorized {scope : SignatureScope}
    (hkey : config.authorizedKey requestedKid (some scope) = .ok key) {sign : String → List UInt8}
    (hsign : config.signer key = .ok sign) (payload : JsObject) :
    config.createCompactSignature payload requestedKid (some scope) =
      .ok (signingInput key (stableStringify payload) ++ "." ++
        base64urlOfBytes (sign (signingInput key (stableStringify payload)))) := by
  unfold createCompactSignature createCompactSignatureFromCanonical
  simp only [bind_eq_ok, pure_eq_ok]
  exact ⟨key, hkey, sign, hsign, rfl⟩

/-- What is made under the keys of an environment names a key that is read. -/
theorem SigningEnv.named_of_create {payload : JsObject} {scope : Option SignatureScope}
    {signature : String}
    (h : env.createCompactSignature crypto payload requestedKid scope = .ok signature) :
    ∃ config key sign, env.signingConfig crypto = .ok config ∧
      config.authorizedKey requestedKid scope = .ok key ∧ config.signer key = .ok sign ∧
      Wire.getSignatureKeyId signature = some key.kid := by
  obtain ⟨config, hconfig, hcreate⟩ := bind_eq_ok.mp h
  obtain ⟨key, sign, hkey, hsign, hnamed⟩ := Wire.named_of_create hcreate
  exact ⟨config, key, sign, hconfig, hkey, hsign, hnamed⟩

/-- Where the keys stay, nothing is revoked: the emergency key would be one of them. -/
theorem SigningEnv.not_revokes_of_same {after : SigningEnv} {kid : String}
    (h : after.getSigningKeys = env.getSigningKeys) : ¬ env.Revokes crypto after kid := by
  intro hrevokes
  obtain ⟨signature, hcreate, -, -⟩ := hrevokes.emergency [] .receipt
  obtain ⟨config, key, sign, hconfig, hkey, -, hnamed⟩ := named_of_create hcreate
  obtain ⟨hkeys, -⟩ := keys_of_signingConfig hconfig
  have hmem := SigningConfig.mem_of_signingKey (SigningConfig.signingKey_of_authorized hkey)
  exact hrevokes.makes config.keys (h ▸ hkeys) key hmem _ _ _ _ hcreate hnamed

end

/-! ## The keys that were written

A kid finds the key it found before, if there was one. -/

namespace SigningEnv

variable {env : SigningEnv} {crypto : Crypto}
  {rsaSignature : String → Option (String → List UInt8)} {pair : KeyPair} {now : Nat}

variable {key : SigningKey} {after : SigningEnv}

/-- The keys after the call, as signing and verifying see them. -/
def written (env : SigningEnv) (crypto : Crypto) (now : Nat) (pair : KeyPair) : SigningConfig :=
  ⟨(env.envKeys ++ [emergencySigningKey now pair]).map env.withRevocation, some (emergencyKid now),
    env.getDeploymentProfile, crypto⟩

/-- The key that a kid finds: the first that was configured under it, else the emergency key. -/
theorem found_written (kid : String) : (env.written crypto now pair).getSigningKeyByKid kid =
    ((env.envKeys.find? fun key => key.kid == kid).or
      (if emergencyKid now = kid then some (emergencySigningKey now pair) else none)).map
        env.withRevocation := by
  unfold written SigningConfig.getSigningKeyByKid
  rw [List.find?_map, List.find?_append]
  have hkid : ((fun key : SigningKey => key.kid == kid) ∘ env.withRevocation) =
      fun key => key.kid == kid := by
    funext key
    simp
  rw [hkid]
  congr 2
  by_cases h : emergencyKid now = kid <;> simp [emergencySigningKey, h]

theorem signingConfig_written {text : String}
    (h : (env.withKeys text (emergencyKid now)).getSigningKeys =
      .ok ((env.envKeys ++ [emergencySigningKey now pair]).map env.withRevocation)) :
    (env.withKeys text (emergencyKid now)).signingConfig crypto =
      .ok (env.written crypto now pair) := by
  unfold signingConfig
  rw [h]
  rfl

theorem kid_of_envKeys (h : key ∈ env.envKeys) :
    ∃ kid, isBlank kid = false ∧ key.kid = trim kid := by
  obtain ⟨record, -, hrecord⟩ := List.mem_filterMap.mp h
  unfold signingKeyOfRecord at hrecord
  split at hrecord
  · rename_i kid material hkid hmaterial
    cases hrecord
    unfold nonBlankText at hkid
    split at hkid
    · split at hkid
      · cases hkid
      · rename_i hblank
        cases hkid
        exact ⟨_, by simpa using hblank, rfl⟩
    · cases hkid
  · cases hrecord

theorem kid_ne_of_untaken (hread : env.ReadsSigningKeys)
    (h : ∀ key ∈ env.envKeys, key.kid ≠ emergencyKid now) {keys : List SigningKey}
    (hkeys : env.getSigningKeys = .ok keys) : ∀ key ∈ keys, key.kid ≠ emergencyKid now := by
  rw [getSigningKeys_of_reads hread] at hkeys
  intro key hkey
  split at hkeys
  · obtain ⟨found, hfound, rfl⟩ := map_eq_ok.mp hkeys
    rw [List.mem_singleton.mp hkey, kid_withRevocation]
    exact kid_of_getDefaultSigningKey hfound now
  · cases hkeys
    obtain ⟨found, hfound, rfl⟩ := List.mem_map.mp hkey
    rw [kid_withRevocation]
    exact h found hfound

theorem getSigningKeys_of_mem (hread : env.ReadsSigningKeys) (hkey : key ∈ env.envKeys) :
    env.getSigningKeys = .ok (env.envKeys.map env.withRevocation) := by
  rw [getSigningKeys_of_reads hread, if_neg (List.ne_nil_of_mem hkey)]

theorem withRevocation_of_unlisted (h : key.kid ∉ env.getRevokedKidsFromEnv) :
    env.withRevocation key = key := if_neg h

/-- A key that is found and of use is the emergency key, where the others are spent. -/
theorem emergency_of_useful {emergencySecret : Option String}
    (hspent : env.Spent crypto rsaSignature emergencySecret now) {kid : String}
    (hfound : (env.written crypto now pair).getSigningKeyByKid kid = some key)
    (huseful : key.Useful crypto rsaSignature env.getDeploymentProfile) :
    key.kid = emergencyKid now := by
  rw [found_written] at hfound
  obtain ⟨found, hor, rfl⟩ := Option.map_eq_some_iff.mp hfound
  rcases Option.or_eq_some_iff.mp hor with hconfigured | ⟨-, hemergency⟩
  · have hkid : found.kid = kid := by simpa using List.find?_some hconfigured
    subst hkid
    exact absurd huseful (hspent.useless found (List.mem_of_find?_eq_some hconfigured) hconfigured)
  · split at hemergency
    · cases hemergency
      simp [emergencySigningKey]
    · cases hemergency

/-- The emergency key is the one that its kid finds, and the active one. -/
theorem found_emergency {emergencySecret : Option String}
    (hspent : env.Spent crypto rsaSignature emergencySecret now) :
    (env.written crypto now pair).getSigningKeyByKid (emergencyKid now) =
        some (emergencySigningKey now pair) ∧
      (env.written crypto now pair).getActiveSigningKey = .ok (emergencySigningKey now pair) := by
  have hnone : env.envKeys.find? (fun key => key.kid == emergencyKid now) = none := by
    refine List.find?_eq_none.mpr fun key hkey => ?_
    simpa using hspent.untaken key hkey
  have hfound : (env.written crypto now pair).getSigningKeyByKid (emergencyKid now) =
      some (emergencySigningKey now pair) := by
    rw [found_written, hnone, if_pos rfl]
    exact congrArg some (withRevocation_of_unlisted hspent.unlisted)
  refine ⟨hfound, ?_⟩
  have hactive : (env.written crypto now pair).activeKid = some (emergencyKid now) := rfl
  unfold SigningConfig.getActiveSigningKey
  rw [hactive]
  dsimp only
  rw [not_isBlank_emergencyKid, if_neg (by simp), trim_emergencyKid, hfound]
  rfl

/-! ## Both directions

Only a key that was of no use before the call is of none after it. -/

/-- A key that was useful before the call is useful after it. -/
theorem not_revokes_of_useful (hcrypto : crypto.Keyed rsaSignature) (hread : env.ReadsSigningKeys)
    (hafter : after.signingConfig crypto = .ok (env.written crypto now pair))
    (hkey : key ∈ env.envKeys) (hfind : env.envKeys.find? (fun k => k.kid == key.kid) = some key)
    (huseful : (env.withRevocation key).Useful crypto rsaSignature env.getDeploymentProfile)
    (kid : String) : ¬ env.Revokes crypto after kid := by
  intro hrevokes
  have hbefore := getSigningKeys_of_mem hread hkey
  have hmem : env.withRevocation key ∈ env.envKeys.map env.withRevocation :=
    List.mem_map_of_mem hkey
  have hfound : (env.written crypto now pair).getSigningKeyByKid (env.withRevocation key).kid =
      some (env.withRevocation key) := by
    rw [found_written, kid_withRevocation, hfind]
    rfl
  obtain ⟨scope, hscope⟩ := huseful.scope
  rcases huseful.able with hverify | hsign
  · obtain ⟨bytes, hbytes⟩ := ((env.withRevocation key).canVerify_iff
      (SigningConfig.signingInput (env.withRevocation key) (stableStringify []))).mp hverify
    have haccepted := SigningConfig.accepted_of_signature hbytes hfound huseful.live hscope
    have hkeyed : (env.written crypto now pair).crypto.Keyed rsaSignature := hcrypto
    have hverifies := (SigningConfig.verify_iff hkeyed).mpr ⟨_, haccepted⟩
    exact hrevokes.verifies _ hbefore _ hmem _ [] scope
      (verifyCompactSignature_iff.mpr ⟨_, hafter, hverifies⟩)
      (Wire.getSignatureKeyId_signingInput ..)
  · obtain ⟨named, hblank, hkid⟩ := kid_of_envKeys hkey
    have hrequested : (env.written crypto now pair).signingKey (some named) =
        .ok (env.withRevocation key) := by
      rw [kid_withRevocation, hkid] at hfound
      unfold SigningConfig.signingKey
      dsimp only
      rw [hblank, if_neg (by simp), hfound]
    have hcan : (env.withRevocation key).CanSign (env.written crypto now pair).crypto
        (env.written crypto now pair).profile := hsign
    obtain ⟨halg, sign, hsign⟩ := SigningConfig.canSign_iff.mp hcan
    have hauthorized := SigningConfig.authorizedKey_iff.mpr
      ⟨hrequested, huseful.live, hscope, halg⟩
    have hcreate := SigningConfig.create_of_authorized hauthorized hsign []
    exact hrevokes.makes _ hbefore _ hmem [] (some named) scope _
      (bind_eq_ok.mpr ⟨_, hafter, hcreate⟩) (Wire.getSignatureKeyId_signingInput ..)

theorem new_of_revokes (hread : env.ReadsSigningKeys)
    (hlisted : after.getRevokedKidsFromEnv = env.getRevokedKidsFromEnv) {kid : String}
    (hrevokes : env.Revokes crypto after kid) :
    kid ∉ env.getRevokedKidsFromEnv ∧ ∀ key ∈ env.envKeys, key.kid ≠ kid := by
  obtain ⟨signature, hcreate, hnamed, -⟩ := hrevokes.emergency [] .receipt
  obtain ⟨config, made, sign, hconfig, hmade, -, hname⟩ := named_of_create hcreate
  obtain rfl : made.kid = kid := Option.some.inj (hname.symm.trans hnamed)
  constructor
  · intro hrevoked
    have hmem := SigningConfig.mem_of_signingKey (SigningConfig.signingKey_of_authorized hmade)
    exact (SigningConfig.authorizedKey_eq_ok hmade).1
      (status_of_listed (keys_of_signingConfig hconfig).1 hmem (hlisted ▸ hrevoked))
  · intro key hkey hkid
    refine hrevokes.makes _ (getSigningKeys_of_mem hread hkey) (env.withRevocation key)
      (List.mem_map_of_mem hkey) _ _ _ _ hcreate ?_
    rw [kid_withRevocation, hkid]
    exact hnamed

/-- Spent keys are revoked for good. -/
theorem revokes_of_spent (hcrypto : crypto.Keyed rsaSignature)
    (hpair : pair.Drawn crypto rsaSignature) {emergencySecret : Option String}
    (hspent : env.Spent crypto rsaSignature emergencySecret now)
    (hafter : after.signingConfig crypto = .ok (env.written crypto now pair)) :
    env.Revokes crypto after (emergencyKid now) where
  verifies keys hkeys key hkey signature payload scope hverify hnamed := by
    obtain ⟨config, hconfig, hverify⟩ := verifyCompactSignature_iff.mp hverify
    obtain rfl : env.written crypto now pair = config := Except.ok.inj (hafter.symm.trans hconfig)
    obtain ⟨found, hname, hfound, hlive, hscope, input, bytes, hbytes⟩ :=
      Wire.named_of_verify hverify
    -- a key that verifies is of use, and the spent ones are not
    have huseful : found.Useful crypto rsaSignature env.getDeploymentProfile :=
      ⟨hlive, ⟨scope, hscope scope rfl⟩, .inl ((found.canVerify_iff input).mpr
        ⟨bytes, (SigningConfig.verifyBytes_iff hcrypto).mp hbytes⟩)⟩
    have hkid := emergency_of_useful hspent hfound huseful
    rw [Option.some.inj (hname.symm.trans hnamed)] at hkid
    exact kid_ne_of_untaken hspent.read hspent.untaken hkeys key hkey hkid
  makes keys hkeys key hkey payload requestedKid scope signature hcreate hnamed := by
    obtain ⟨config, made, sign, hconfig, hmade, hsign, hname⟩ := named_of_create hcreate
    obtain rfl : env.written crypto now pair = config := Except.ok.inj (hafter.symm.trans hconfig)
    obtain ⟨hsigning, hlive, hscope, halg⟩ := SigningConfig.authorizedKey_iff.mp hmade
    have hkid : made.kid = emergencyKid now := by
      rcases SigningConfig.signingKey_cases hsigning with hactive | hfound
      · rw [(found_emergency hspent).2] at hactive
        cases hactive
        rfl
      · exact emergency_of_useful hspent hfound
          ⟨hlive, ⟨scope, hscope⟩, .inr (SigningConfig.canSign_iff.mpr ⟨halg, sign, hsign⟩)⟩
    rw [Option.some.inj (hname.symm.trans hnamed)] at hkid
    exact kid_ne_of_untaken hspent.read hspent.untaken hkeys key hkey hkid
  emergency payload scope := by
    obtain ⟨sign, hsign, hsignature⟩ := hpair.signs
    obtain ⟨hfound, hactive⟩ := @found_emergency _ crypto _ pair _ _ hspent
    have hscope : scope.text ∈ (emergencySigningKey now pair).scopes := by
      show scope.text ∈ DEFAULT_SCOPES
      cases scope <;> decide
    have halg : (emergencySigningKey now pair).alg ∈
        getAllowedAlgorithms (env.written crypto now pair).profile := by
      show SigningAlgorithm.rs256 ∈ _
      cases (env.written crypto now pair).profile <;> decide
    have hauthorized : (env.written crypto now pair).authorizedKey none (some scope) =
        .ok (emergencySigningKey now pair) :=
      SigningConfig.authorizedKey_iff.mpr ⟨hactive, by simp [emergencySigningKey], hscope, halg⟩
    have hcreate := SigningConfig.create_of_authorized hauthorized hsign payload
    refine ⟨_, bind_eq_ok.mpr ⟨_, hafter, hcreate⟩, Wire.getSignatureKeyId_signingInput .., ?_⟩
    refine verifyCompactSignature_iff.mpr ⟨_, hafter, ?_⟩
    have hkeyed : (env.written crypto now pair).crypto.Keyed rsaSignature := hcrypto
    refine (SigningConfig.verify_iff hkeyed).mpr
      ⟨_, SigningConfig.accepted_of_signature ?_ hfound (by simp [emergencySigningKey]) hscope⟩
    show (rsaSignature pair.publicPem).map _ = _
    rw [hsignature]
    rfl

/-- **When an emergency revokes.** Whatever provider is asked, the call takes the keys out of use
exactly where they are spent before it. -/
theorem revokes_iff_spent (hcrypto : crypto.Keyed rsaSignature)
    (hpair : pair.Drawn crypto rsaSignature) {kms : KmsCrypto} {provider : KmsProvider}
    {reason : String} {emergencySecret : Option String} {emergency : Emergency}
    (h : env.emergencyRevokeAllKeys kms provider reason emergencySecret now pair = .ok emergency) :
    env.Revokes crypto emergency.env emergency.key.kid ↔
      env.Spent crypto rsaSignature emergencySecret now := by
  unfold emergencyRevokeAllKeys at h
  simp only [bind_eq_ok, pure_eq_ok] at h
  obtain ⟨⟨key, after⟩, hgenerate, rfl⟩ := h
  show env.Revokes crypto after key.kid ↔ _
  rcases generateEmergencyKey_cases hgenerate with ⟨secret, hsecret, hblank, rfl⟩ |
    ⟨hdrawn, hkid, existing, text, hexisting, htext, rfl⟩
  · refine ⟨fun hrevokes => absurd hrevokes (not_revokes_of_same rfl), fun hspent => ?_⟩
    rw [hspent.drawn secret hsecret] at hblank
    cases hblank
  · rw [hkid]
    have hafter (hread : env.ReadsSigningKeys) :
        (env.withKeys text (emergencyKid now)).signingConfig crypto =
          .ok (env.written crypto now pair) :=
      signingConfig_written (getSigningKeys_written hread hpair hexisting htext)
    constructor
    · intro hrevokes
      have hread : env.ReadsSigningKeys := by
        by_contra hother
        exact not_revokes_of_same (getSigningKeys_withKeys hother text _) hrevokes
      have hlisted : (env.withKeys text (emergencyKid now)).getRevokedKidsFromEnv =
          env.getRevokedKidsFromEnv := rfl
      obtain ⟨hunlisted, huntaken⟩ := new_of_revokes hread hlisted hrevokes
      exact ⟨hdrawn, hread, hunlisted, huntaken, fun key hmem hfind huseful =>
        not_revokes_of_useful hcrypto hread (hafter hread) hmem hfind huseful _ hrevokes⟩
    · exact fun hspent => revokes_of_spent hcrypto hpair hspent (hafter hspent.read)

/-! ## A secret and a key -/

/-- A signature is the key and the text. -/
def pairedCrypto : Crypto where
  hmacSha256 secret input := utf8 (quote secret ++ input)
  rsaSign pem := .ok fun input => utf8 (quote pem ++ input)
  rsaVerify pem input signature := signature == utf8 (quote pem ++ input)

/-- The RSA signatures of `pairedCrypto`. -/
def pairedSignature (pem : String) : Option (String → List UInt8) :=
  some fun input => utf8 (quote pem ++ input)

theorem keyed_pairedCrypto : pairedCrypto.Keyed pairedSignature := by
  intro publicKeyPem input signature
  show (signature == utf8 (quote publicKeyPem ++ input)) = true ↔
    some (utf8 (quote publicKeyPem ++ input)) = some signature
  rw [beq_iff_eq, Option.some.injEq]
  exact eq_comm

def samplePair : KeyPair := ⟨"pem", "pem"⟩

theorem drawn_samplePair : samplePair.Drawn pairedCrypto pairedSignature :=
  ⟨by decide, by decide, _, rfl, rfl⟩

/-- One secret and no key set: nothing is left of the default key. -/
theorem revokes_iff_spent_secret : ∃ emergency,
    sampleSigningEnv.emergencyRevokeAllKeys LocalKMSProvider.plainCrypto .env "leak" none 5
      samplePair = .ok emergency ∧
      sampleSigningEnv.Revokes pairedCrypto emergency.env emergency.key.kid := by
  obtain ⟨emergency, h⟩ : ∃ emergency, sampleSigningEnv.emergencyRevokeAllKeys
      LocalKMSProvider.plainCrypto .env "leak" none 5 samplePair = .ok emergency := ⟨_, rfl⟩
  have hnone : sampleSigningEnv.envKeys = [] := rfl
  have hspent : sampleSigningEnv.Spent pairedCrypto pairedSignature none 5 := by
    refine ⟨by simp, by decide, by decide, ?_, ?_⟩
    · simp [hnone]
    · simp [hnone]
  exact ⟨emergency, h, (revokes_iff_spent keyed_pairedCrypto drawn_samplePair h).mpr hspent⟩

def activeKeyRecord : JsValue :=
  .obj [("kid", .str "k1"), ("secret", .str "secret"), ("scopes", .arr [.str "receipt"])]

def activeKeyEnv : SigningEnv :=
  { sampleSigningEnv with signingKeys := stringify? (.arr [activeKeyRecord]) }

/-- The provider revokes the key, and the key is used on. -/
theorem activeKey_survives : ∃ emergency,
    activeKeyEnv.emergencyRevokeAllKeys LocalKMSProvider.plainCrypto
      (.loaded (.create [LocalKMSProvider.firstKey])) "leak" none 5 samplePair = .ok emergency ∧
      emergency.record.revokedKeyIds = ["k1"] ∧
      ¬ activeKeyEnv.Revokes pairedCrypto emergency.env emergency.key.kid := by
  have hjson : IsJson (.arr [activeKeyRecord]) := by
    simp [activeKeyRecord, IsJson, AreJson, HaveJson]
  obtain ⟨text, htext⟩ := hjson.text
  obtain ⟨hrecords, hexisting⟩ := keys_of_parse (parse_stringify? hjson htext)
  have hsigningKeys : activeKeyEnv.signingKeys = some text := htext
  have hkeys : activeKeyEnv.envKeys = [⟨"k1", .active, ["receipt"], .hmac "secret"⟩] := by
    unfold envKeys
    rw [hsigningKeys, hrecords]
    rfl
  rw [← hsigningKeys] at hexisting
  have hread : activeKeyEnv.ReadsSigningKeys := by decide
  have hwritten := keyRecords_written (isJson_existingKeys hexisting) 5 samplePair
  refine ⟨_, bind_eq_ok.mpr ⟨_, bind_eq_ok.mpr ⟨_, hexisting, rfl⟩, rfl⟩, rfl, ?_⟩
  have hmem : (⟨"k1", .active, ["receipt"], .hmac "secret"⟩ : SigningKey) ∈ activeKeyEnv.envKeys := by
    rw [hkeys]
    exact List.mem_singleton_self _
  refine not_revokes_of_useful keyed_pairedCrypto hread
    (signingConfig_written (getSigningKeys_written hread drawn_samplePair hexisting hwritten))
    hmem ?_ ?_ _
  · rw [hkeys]
    rfl
  · exact ⟨by decide, ⟨.receipt, by decide⟩, .inl rfl⟩

end SigningEnv

end MapProtocol
