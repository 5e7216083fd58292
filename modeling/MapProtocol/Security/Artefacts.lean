import MapProtocol.Js.JsonRoundTrip
import MapProtocol.Security.RequestSigning
import MapProtocol.Security.Wire

/-!
# The artefacts that are signed

Besides descriptors, tokens, receipts and requests, the server signs audit checkpoints, audit exports,
conformance exports and trust bundles. Every artefact is signed through
`createCompactSignatureFromCanonical`, which enforces the algorithms of the deployment profile, and
verified through `verifyCompactSignatureFromCanonical`, which does not.
-/

namespace MapProtocol

open Js Wire

/-! ## Checkpoints, exports and bundles -/

structure AuditCheckpointPayload where
  checkpointId   : String
  createdAt      : String
  lastChainIndex : Nat
  lastEventHash  : String

structure AuditExportPayload where
  exportId         : String
  createdAt        : String
  eventsCount      : Nat
  checkpointsCount : Nat
  latestChainIndex : Nat
  latestEventHash  : String

structure ConformanceExportPayload where
  exportId     : String
  createdAt    : String
  profile      : DeploymentProfile
  totalChecks  : Nat
  passedChecks : Nat
  failedChecks : Nat
  artifactHash : String

structure TrustBundlePayload where
  bundleId    : String
  createdAt   : String
  trustDomain : String
  issuer      : String
  profile     : DeploymentProfile
  keysHash    : String

def AuditCheckpointPayload.toJs (payload : AuditCheckpointPayload) : JsObject :=
  [("checkpoint_id", .str payload.checkpointId), ("created_at", .str payload.createdAt),
    ("last_chain_index", .num payload.lastChainIndex),
    ("last_event_hash", .str payload.lastEventHash)]

def AuditExportPayload.toJs (payload : AuditExportPayload) : JsObject :=
  [("export_id", .str payload.exportId), ("created_at", .str payload.createdAt),
    ("events_count", .num payload.eventsCount),
    ("checkpoints_count", .num payload.checkpointsCount),
    ("latest_chain_index", .num payload.latestChainIndex),
    ("latest_event_hash", .str payload.latestEventHash)]

def ConformanceExportPayload.toJs (payload : ConformanceExportPayload) : JsObject :=
  [("export_id", .str payload.exportId), ("created_at", .str payload.createdAt),
    ("profile", .str payload.profile.text), ("total_checks", .num payload.totalChecks),
    ("passed_checks", .num payload.passedChecks), ("failed_checks", .num payload.failedChecks),
    ("artifact_hash", .str payload.artifactHash)]

def TrustBundlePayload.toJs (payload : TrustBundlePayload) : JsObject :=
  [("bundle_id", .str payload.bundleId), ("created_at", .str payload.createdAt),
    ("trust_domain", .str payload.trustDomain), ("issuer", .str payload.issuer),
    ("profile", .str payload.profile.text), ("keys_hash", .str payload.keysHash)]

/-- How each of these is signed: by the active key, for its own scope. -/
def signPayload (config : SigningConfig) (artifactType : String) (scope : SignatureScope)
    (payload : JsObject) : Except String String := do
  assertValidKeyUse artifactType scope
  config.createCompactSignature payload none (some scope)

def signAuditCheckpoint (config : SigningConfig) (payload : AuditCheckpointPayload) :
    Except String String :=
  signPayload config "audit_checkpoint" .auditCheckpoint payload.toJs

def verifyAuditCheckpointSignature (config : SigningConfig) (payload : AuditCheckpointPayload)
    (signature : String) : Bool :=
  config.verifyCompactSignature signature payload.toJs (some .auditCheckpoint)

def signAuditExport (config : SigningConfig) (payload : AuditExportPayload) :
    Except String String :=
  signPayload config "audit_export" .auditExport payload.toJs

def verifyAuditExportSignature (config : SigningConfig) (payload : AuditExportPayload)
    (signature : String) : Bool :=
  config.verifyCompactSignature signature payload.toJs (some .auditExport)

def signConformanceExport (config : SigningConfig) (payload : ConformanceExportPayload) :
    Except String String :=
  signPayload config "conformance_export" .conformanceExport payload.toJs

def verifyConformanceExportSignature (config : SigningConfig) (payload : ConformanceExportPayload)
    (signature : String) : Bool :=
  config.verifyCompactSignature signature payload.toJs (some .conformanceExport)

def signTrustBundle (config : SigningConfig) (payload : TrustBundlePayload) :
    Except String String :=
  signPayload config "trust_bundle" .trustBundle payload.toJs

def verifyTrustBundleSignature (config : SigningConfig) (payload : TrustBundlePayload)
    (signature : String) : Bool :=
  config.verifyCompactSignature signature payload.toJs (some .trustBundle)

/-! ## All of them -/

/-- What can be signed; a request with what else its verification reads. -/
inductive Artefact where
  | descriptor (descriptor : Record)
  | delegationToken (token : Record)
  | receipt (receipt : Record)
  | httpRequest (input : SignedRequestPayload) (nonces : NonceCache) (nonce : Option String)
  | auditCheckpoint (payload : AuditCheckpointPayload)
  | auditExport (payload : AuditExportPayload)
  | conformanceExport (payload : ConformanceExportPayload)
  | trustBundle (payload : TrustBundlePayload)

namespace RequestEnv

variable (env : RequestEnv) (config : SigningConfig)

/-- The artefact is accepted with the signature `s`, at the time `now`. -/
def Verifies (now : Int) (s : String) : Artefact → Prop
  | .descriptor descriptor =>
      verifyAgentDescriptorSignature config (descriptor.set "descriptor_signature" (.str s)) = true
  | .delegationToken token =>
      verifyDelegationTokenSignature config (token.set "signature" (.str s)) = true
  | .receipt receipt => Wire.verifyReceiptSignature config (receipt.set "signature" (.str s)) = true
  | .httpRequest input nonces nonce =>
      (env.verifyHttpRequestSignature nonces now input s nonce).1 = .ok true
  | .auditCheckpoint payload => verifyAuditCheckpointSignature config payload s = true
  | .auditExport payload => verifyAuditExportSignature config payload s = true
  | .conformanceExport payload => verifyConformanceExportSignature config payload s = true
  | .trustBundle payload => verifyTrustBundleSignature config payload s = true

/-- Signing the artefact makes the signature `s`. -/
def Produces (s : String) : Artefact → Prop
  | .descriptor descriptor => ∃ signed, signAgentDescriptor config descriptor = .ok signed ∧
      field signed "descriptor_signature" = .str s
  | .delegationToken token => signDelegationToken config token = .ok s
  | .receipt receipt => Wire.signReceipt config receipt = .ok s
  | .httpRequest input _ nonce => ∃ headers,
      env.signHttpRequest input (nonce.getD "") = .ok headers ∧ headers.requestSignature = s
  | .auditCheckpoint payload => signAuditCheckpoint config payload = .ok s
  | .auditExport payload => signAuditExport config payload = .ok s
  | .conformanceExport payload => signConformanceExport config payload = .ok s
  | .trustBundle payload => signTrustBundle config payload = .ok s

end RequestEnv

/-! ## Which key -/

namespace Wire

variable {config : SigningConfig}

/-- The algorithm that a signature names is that of the key which verifies it. -/
theorem algorithm_of_verify {signature canonicalPayload : String} {scope : SignatureScope}
    (h : config.verifyCompactSignatureFromCanonical signature canonicalPayload (some scope) = true) :
    ∃ key, getSignatureAlgorithm signature = some key.alg.text ∧
      config.getSigningKeyByKid key.kid = some key ∧ key.status ≠ .revoked ∧
        scope.text ∈ key.scopes := by
  obtain ⟨header, key, hheader, hkey, -⟩ := header_of_verify h
  obtain ⟨htyp, halg, -, hfound, hlive, hscope⟩ := SigningConfig.verificationKey_eq_some.mp hkey
  refine ⟨key, ?_, hfound, hlive, hscope scope rfl⟩
  unfold getSignatureAlgorithm
  rw [hheader]
  dsimp only
  rw [htyp, halg]
  cases key.alg <;> rfl

theorem getSignatureAlgorithm_signingInput (key : SigningKey) (canonicalPayload : String)
    (bytes : List UInt8) :
    getSignatureAlgorithm (SigningConfig.signingInput key canonicalPayload ++ "." ++
      base64urlOfBytes bytes) = some key.alg.text := by
  unfold getSignatureAlgorithm
  rw [signatureHeader_signingInput]
  show ((some key.alg.text).filter fun alg => alg = "HS256" ∨ alg = "RS256") = _
  cases key.alg <;> rfl

/-- The profile decides which algorithm signs. -/
theorem algorithm_of_create {signature canonicalPayload : String} {requestedKid : Option String}
    {scope : Option SignatureScope}
    (h : config.createCompactSignatureFromCanonical canonicalPayload requestedKid scope =
      .ok signature) :
    ∃ alg ∈ getAllowedAlgorithms config.profile,
      getSignatureAlgorithm signature = some alg.text := by
  unfold SigningConfig.createCompactSignatureFromCanonical at h
  simp only [bind_eq_ok, pure_eq_ok] at h
  obtain ⟨key, hkey, sign, _, rfl⟩ := h
  unfold SigningConfig.authorizedKey at hkey
  simp only [bind_eq_ok, throwIf_eq_ok, pure_eq_ok] at hkey
  obtain ⟨_, _, _, _, _, _, _, hallowed, rfl⟩ := hkey
  unfold assertAlgorithmAllowed at hallowed
  simp only [throwIf_eq_ok, Decidable.not_not] at hallowed
  exact ⟨_, hallowed, getSignatureAlgorithm_signingInput ..⟩

/-- What a shared secret signs verifies in any profile. -/
theorem verify_of_hmac {key : SigningKey} {secret : String} (hmaterial : key.material = .hmac secret)
    (hfound : config.getSigningKeyByKid key.kid = some key) (hlive : key.status ≠ .revoked)
    {scope : SignatureScope} (hscope : scope.text ∈ key.scopes) (canonicalPayload : String) :
    ∃ s, getSignatureAlgorithm s = some "HS256" ∧
      config.verifyCompactSignatureFromCanonical s canonicalPayload (some scope) = true := by
  have halg : key.alg.text = "HS256" := by
    unfold SigningKey.alg
    rw [hmaterial]
    rfl
  refine ⟨SigningConfig.signingInput key canonicalPayload ++ "." ++ base64urlOfBytes
    (config.crypto.hmacSha256 secret (SigningConfig.signingInput key canonicalPayload)), ?_, ?_⟩
  · rw [getSignatureAlgorithm_signingInput, halg]
  · refine verify_of_decoded hmaterial hfound hlive hscope (dot_notMem_base64urlOfBytes _) ?_
    exact bytesOfBase64url_base64urlOfBytes _

end Wire

namespace RequestEnv

variable {env : RequestEnv} {config : SigningConfig}

/-- Every verification is one of a compact signature. -/
theorem canonical_of_verifies (hconfig : env.signing.signingConfig env.crypto = .ok config)
    {now : Int} {s : String} {artefact : Artefact} (h : env.Verifies config now s artefact) :
    ∃ canonicalPayload scope,
      config.verifyCompactSignatureFromCanonical s canonicalPayload (some scope) = true := by
  cases artefact with
  | descriptor descriptor =>
      have h : verifyAgentDescriptorSignature config
        (descriptor.set "descriptor_signature" (.str s)) = true := h
      unfold verifyAgentDescriptorSignature at h
      rw [field_set, if_pos rfl] at h
      split at h
      · rename_i hsignature _ _
        cases hsignature
        dsimp only at h
        split at h
        · cases h
        · exact ⟨_, _, h⟩
      · cases h
  | delegationToken token =>
      have h : verifyDelegationTokenSignature config (token.set "signature" (.str s)) = true := h
      unfold verifyDelegationTokenSignature at h
      rw [field_set, if_pos rfl] at h
      exact ⟨_, _, h⟩
  | receipt receipt =>
      have h : Wire.verifyReceiptSignature config (receipt.set "signature" (.str s)) = true := h
      unfold Wire.verifyReceiptSignature at h
      rw [field_set, if_pos rfl] at h
      exact ⟨_, _, h⟩
  | httpRequest input nonces nonce =>
      have hsigned : env.signatureVerifies input s = .ok true := by
        have h : (env.verifyHttpRequestSignature nonces now input s nonce).1 = .ok true := h
        unfold verifyHttpRequestSignature at h
        split at h
        · cases h
        · split at h
          · cases h
          · split at h
            · exact h
            · split at h
              · cases h
              · exact h
      obtain ⟨found, hfound, hverify⟩ := SigningEnv.verifyCompactSignature_iff.mp hsigned
      obtain rfl : config = found := Except.ok.inj (hconfig.symm.trans hfound)
      exact ⟨_, _, hverify⟩
  | auditCheckpoint payload => exact ⟨_, _, h⟩
  | auditExport payload => exact ⟨_, _, h⟩
  | conformanceExport payload => exact ⟨_, _, h⟩
  | trustBundle payload => exact ⟨_, _, h⟩

theorem canonical_of_signPayload {artifactType s : String} {scope : SignatureScope}
    {payload : JsObject} (h : signPayload config artifactType scope payload = .ok s) :
    config.createCompactSignature payload none (some scope) = .ok s := by
  unfold signPayload at h
  simp only [bind_eq_ok] at h
  obtain ⟨_, _, hcreate⟩ := h
  exact hcreate

/-- Every signature is made by one function. -/
theorem canonical_of_produces (hconfig : env.signing.signingConfig env.crypto = .ok config)
    {s : String} {artefact : Artefact} (h : env.Produces config s artefact) :
    ∃ canonicalPayload requestedKid scope,
      config.createCompactSignatureFromCanonical canonicalPayload requestedKid scope = .ok s := by
  cases artefact with
  | descriptor descriptor =>
      obtain ⟨signed, hsigned, hfield⟩ := h
      unfold signAgentDescriptor at hsigned
      simp only [bind_eq_ok] at hsigned
      obtain ⟨_, _, hsigned⟩ := hsigned
      split at hsigned
      · cases hsigned
      · simp only [bind_eq_ok, pure_eq_ok] at hsigned
        obtain ⟨signature, hcreate, rfl⟩ := hsigned
        rw [field_set, if_neg (by decide), field_set, if_neg (by decide), field_set,
          -- three members are set, the signature first
          if_pos rfl] at hfield
        cases hfield
        exact ⟨_, _, _, hcreate⟩
  | delegationToken token =>
      have h : signDelegationToken config token = .ok s := h
      unfold signDelegationToken at h
      simp only [bind_eq_ok] at h
      obtain ⟨_, _, hcreate⟩ := h
      exact ⟨_, _, _, hcreate⟩
  | receipt receipt =>
      have h : Wire.signReceipt config receipt = .ok s := h
      unfold Wire.signReceipt at h
      simp only [bind_eq_ok] at h
      obtain ⟨_, _, hcreate⟩ := h
      exact ⟨_, _, _, hcreate⟩
  | httpRequest input nonces nonce =>
      obtain ⟨headers, hheaders, rfl⟩ := h
      unfold signHttpRequest SigningEnv.createCompactSignature at hheaders
      rw [hconfig] at hheaders
      simp only [bind_eq_ok, pure_eq_ok] at hheaders
      obtain ⟨_, _, signature, ⟨found, hfound, hcreate⟩, rfl⟩ := hheaders
      obtain rfl : config = found := Except.ok.inj hfound
      exact ⟨_, _, _, hcreate⟩
  | auditCheckpoint payload => exact ⟨_, _, _, canonical_of_signPayload h⟩
  | auditExport payload => exact ⟨_, _, _, canonical_of_signPayload h⟩
  | conformanceExport payload => exact ⟨_, _, _, canonical_of_signPayload h⟩
  | trustBundle payload => exact ⟨_, _, _, canonical_of_signPayload h⟩

theorem getRequestMaxAgeMs_pos (env : RequestEnv) : 0 < env.getRequestMaxAgeMs := by
  unfold getRequestMaxAgeMs
  split
  · split
    · assumption
    · decide +kernel
  · decide +kernel

/-- A descriptor without fields of its own. -/
def bareDescriptor : Record :=
  (OrderedMap.empty.set "descriptor_key_id" (.str "")).set "descriptor_signature_alg" (.str "")

theorem descriptorSigningPayload_empty :
    descriptorSigningPayload OrderedMap.empty = some "\x7b\x7d" := by
  have hparse : parse (stringify []) = some (.obj []) := parse_stringify? (by simp [IsJson, HaveJson]) rfl
  unfold descriptorSigningPayload canonicalize
  show (parse (stringify [])).bind serializeJcs = _
  rw [hparse]
  rfl

theorem verifies_descriptor {now : Int} {s : String}
    (h : config.verifyCompactSignatureFromCanonical s "\x7b\x7d" (some .descriptor) = true) :
    env.Verifies config now s (.descriptor bareDescriptor) := by
  have hunsigned : (((bareDescriptor.set "descriptor_signature" (.str s)).delete
      "descriptor_signature").delete "descriptor_key_id").delete "descriptor_signature_alg" =
        OrderedMap.empty := OrderedMap.ext rfl
  show verifyAgentDescriptorSignature config (bareDescriptor.set _ _) = true
  simp only [verifyAgentDescriptorSignature, hunsigned, descriptorSigningPayload_empty]
  exact h

/-- Whatever holds a scope verifies an artefact of that scope. -/
theorem verifies_of_scope (hconfig : env.signing.signingConfig env.crypto = .ok config) {now : Int}
    {timestamp : String} (hclock : env.parseDate timestamp = some now) (scope : SignatureScope) :
    ∃ canonicalPayload artefact, ∀ s,
      config.verifyCompactSignatureFromCanonical s canonicalPayload (some scope) = true →
        env.Verifies config now s artefact := by
  cases scope with
  | descriptor => exact ⟨_, _, fun s h => verifies_descriptor h⟩
  | delegationToken =>
      refine ⟨stableStringify (tokenSigningPayload .empty), .delegationToken .empty, fun s h => ?_⟩
      show verifyDelegationTokenSignature config (OrderedMap.empty.set "signature" (.str s)) = true
      unfold verifyDelegationTokenSignature
      rw [field_set, if_pos rfl]
      dsimp only
      rw [tokenSigningPayload_delete, tokenSigningPayload_signature]
      exact h
  | receipt =>
      refine ⟨stableStringify (Wire.receiptSigningPayload .empty), .receipt .empty, fun s h => ?_⟩
      show Wire.verifyReceiptSignature config (OrderedMap.empty.set "signature" (.str s)) = true
      unfold Wire.verifyReceiptSignature
      rw [field_set, if_pos rfl]
      dsimp only
      rw [receiptSigningPayload_delete, receiptSigningPayload_signature]
      exact h
  | httpRequest =>
      refine ⟨stableStringify (signedRequestPayload ⟨"", "", timestamp, "", ""⟩),
        .httpRequest ⟨"", "", timestamp, "", ""⟩ .empty none, fun s h => ?_⟩
      show (env.verifyHttpRequestSignature .empty now ⟨"", "", timestamp, "", ""⟩ s none).1 = .ok true
      unfold verifyHttpRequestSignature
      dsimp only
      rw [hclock]
      dsimp only
      rw [Int.sub_self, Int.natAbs_zero, Nat.cast_zero,
        if_neg (Rat.not_lt.mpr (Rat.le_of_lt (getRequestMaxAgeMs_pos env)))]
      exact SigningEnv.verifyCompactSignature_iff.mpr ⟨config, hconfig, h⟩
  | auditCheckpoint => exact ⟨_, .auditCheckpoint ⟨"", "", 0, ""⟩, fun s h => h⟩
  | auditExport => exact ⟨_, .auditExport ⟨"", "", 0, 0, 0, ""⟩, fun s h => h⟩
  | conformanceExport => exact ⟨_, .conformanceExport ⟨"", "", .open, 0, 0, 0, ""⟩, fun s h => h⟩
  | trustBundle => exact ⟨_, .trustBundle ⟨"", "", "", "", .open, ""⟩, fun s h => h⟩

variable (env config) in
/-- HS256 is neither accepted nor made. -/
def RS256Only (now : Int) : Prop :=
  ∀ artefact s, env.Verifies config now s artefact ∨ env.Produces config s artefact →
    getSignatureAlgorithm s ≠ some "HS256"

/-- **When a verified or regulated deployment accepts RS256 only**: signing always keeps to it;
verification does as long as no shared secret is in force under its kid. -/
theorem rs256Only_iff (hconfig : env.signing.signingConfig env.crypto = .ok config)
    (hprofile : config.profile ≠ .open) {now : Int} {timestamp : String}
    (hclock : env.parseDate timestamp = some now) :
    env.RS256Only config now ↔
      ∀ key, config.getSigningKeyByKid key.kid = some key → key.status ≠ .revoked →
        key.alg = .hs256 → ∀ scope : SignatureScope, scope.text ∉ key.scopes := by
  constructor
  · intro honly key hfound hlive halg scope hscope
    obtain ⟨secret, hmaterial⟩ : ∃ secret, key.material = .hmac secret := by
      unfold SigningKey.alg at halg
      split at halg
      · exact ⟨_, ‹_›⟩
      · cases halg
    obtain ⟨canonicalPayload, artefact, hverifies⟩ := verifies_of_scope hconfig hclock scope
    obtain ⟨s, hs, hverify⟩ := verify_of_hmac hmaterial hfound hlive hscope canonicalPayload
    exact honly artefact s (.inl (hverifies s hverify)) hs
  · rintro hnone artefact s (hverifies | hproduces) hs
    · obtain ⟨canonicalPayload, scope, hverify⟩ := canonical_of_verifies hconfig hverifies
      obtain ⟨key, halg, hfound, hlive, hscope⟩ := algorithm_of_verify hverify
      rw [halg] at hs
      refine hnone key hfound hlive ?_ scope hscope
      cases hkey : key.alg with
      | hs256 => rfl
      | rs256 =>
          rw [hkey] at hs
          exact absurd (Option.some.inj hs) (by decide)
    · obtain ⟨_, _, _, hcreate⟩ := canonical_of_produces hconfig hproduces
      obtain ⟨alg, hallowed, halg⟩ := algorithm_of_create hcreate
      have hrs : alg = .rs256 := by
        cases hp : config.profile with
        | «open» => exact absurd hp hprofile
        | verified => rw [hp] at hallowed; simpa [getAllowedAlgorithms] using hallowed
        | regulated => rw [hp] at hallowed; simpa [getAllowedAlgorithms] using hallowed
      rw [halg, hrs] at hs
      exact absurd (Option.some.inj hs) (by decide)

/-- A verified deployment that has one shared secret, and the kids that it revokes. -/
def verifiedEnv (revokedKids : Option String) : RequestEnv where
  signing := { sampleSigningEnv with deploymentProfile := some "verified", revokedKids }
  crypto := SigningConfig.quotingCrypto
  parseDate _ := some 0
  maxAgeMs := none

def verifiedConfig (status : KeyStatus) : SigningConfig where
  keys := [⟨DEFAULT_KID, status, DEFAULT_SCOPES, .hmac "secret"⟩]
  activeKid := none
  profile := .verified
  crypto := SigningConfig.quotingCrypto

/-- The secret is revoked, and nothing signed with it is accepted. -/
theorem rs256Only_revoked :
    (verifiedEnv (some "map-dev-key-1")).RS256Only (verifiedConfig .revoked) 0 := by
  have hconfig : (verifiedEnv (some "map-dev-key-1")).signing.signingConfig
      (verifiedEnv (some "map-dev-key-1")).crypto = .ok (verifiedConfig .revoked) := by
    rfl
  refine (@rs256Only_iff _ _ hconfig (by decide) 0 "" rfl).mpr fun key hfound hlive => ?_
  have hkey := List.mem_of_find?_eq_some hfound
  rw [List.mem_singleton.mp hkey] at hlive
  exact absurd rfl hlive

/-- The secret is in force: a receipt that it signs is accepted. -/
theorem hs256_accepted : (verifiedEnv none).signing.signingConfig (verifiedEnv none).crypto =
      .ok (verifiedConfig .active) ∧
    ∃ s, getSignatureAlgorithm s = some "HS256" ∧
      (verifiedEnv none).Verifies (verifiedConfig .active) 0 s (.receipt .empty) := by
  refine ⟨rfl, ?_⟩
  obtain ⟨s, halg, hverify⟩ := @verify_of_hmac (verifiedConfig .active)
    ⟨DEFAULT_KID, .active, DEFAULT_SCOPES, .hmac "secret"⟩ "secret" rfl rfl (by decide) .receipt
    (by decide) (stableStringify (Wire.receiptSigningPayload OrderedMap.empty))
  refine ⟨s, halg, ?_⟩
  show Wire.verifyReceiptSignature _ (OrderedMap.empty.set "signature" (.str s)) = true
  unfold Wire.verifyReceiptSignature
  rw [field_set, if_pos rfl]
  dsimp only
  rw [receiptSigningPayload_delete, receiptSigningPayload_signature]
  exact hverify

end RequestEnv

end MapProtocol
