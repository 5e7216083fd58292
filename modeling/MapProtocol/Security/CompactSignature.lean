import MapProtocol.Security.Verification

/-!
# Compact signatures, both ways

What `verifyCompactSignature` accepts, said without its order of checks, and what that means for the
signatures that `createCompactSignature` makes. A kid stands for the first key that has it: where two
keys share one, the second can still be the active key, and then its signatures do not verify.
-/

namespace MapProtocol

open Js

/-- The signature a key makes over a text. HMAC is a keyed function; so is RSA, keyed by the public
key of the pair, where the PEM of that can be read. -/
def SigningKey.signature (crypto : Crypto) (rsaSignature : String → Option (String → List UInt8))
    (key : SigningKey) (input : String) : Option (List UInt8) :=
  match key.material with
  | .hmac secret        => some (crypto.hmacSha256 secret input)
  | .rsa _ publicKeyPem => (rsaSignature publicKeyPem).map fun sign => sign input

/-- RSA as a keyed function: a public key verifies the one signature of its pair. -/
def Crypto.Keyed (crypto : Crypto) (rsaSignature : String → Option (String → List UInt8)) : Prop :=
  ∀ publicKeyPem input signature, crypto.rsaVerify publicKeyPem input signature = true ↔
    (rsaSignature publicKeyPem).map (· input) = some signature

namespace SigningConfig

variable {key : SigningKey} {scope : Option SignatureScope} {requestedKid : Option String}

/-- RSA as a keyed function: a public key verifies the one signature of its pair, and the private key
of a configured pair makes it. -/
structure Idealised (config : SigningConfig)
    (rsaSignature : String → Option (String → List UInt8)) : Prop where
  verifies : ∀ publicKeyPem input signature,
    config.crypto.rsaVerify publicKeyPem input signature = true ↔
      (rsaSignature publicKeyPem).map (· input) = some signature
  pairs    : ∀ key ∈ config.keys, ∀ privateKeyPem publicKeyPem sign,
    key.material = .rsa (some privateKeyPem) publicKeyPem →
      config.crypto.rsaSign privateKeyPem = .ok sign → rsaSignature publicKeyPem = some sign

variable {config : SigningConfig} {rsaSignature : String → Option (String → List UInt8)}

/-- The compact signature `s` is one that the key made over the payload, and the key may verify it:
it is the key that its kid finds, it is not revoked, and it holds the scope. -/
structure Accepted (config : SigningConfig) (rsaSignature : String → Option (String → List UInt8))
    (s canonicalPayload : String) (scope : Option SignatureScope) (key : SigningKey) : Prop where
  found  : config.getSigningKeyByKid key.kid = some key
  live   : key.status ≠ .revoked
  holds  : ∀ name, scope = some name → name.text ∈ key.scopes
  parts  : ∃ encodedHeader encodedSignature header,
    split s '.' = [encodedHeader, base64url canonicalPayload, encodedSignature] ∧
    parse (fromUtf8 (bytesOfBase64url encodedHeader)) = some header ∧
    header.property "typ" = .str "MAPSIG" ∧ header.property "alg" = .str key.alg.text ∧
    header.property "kid" = .str key.kid ∧
    key.signature config.crypto rsaSignature (encodedHeader ++ "." ++ base64url canonicalPayload) =
      some (bytesOfBase64url encodedSignature)

theorem sound_of_idealised (h : config.Idealised rsaSignature) : config.Sound := by
  intro key hkey privateKeyPem publicKeyPem sign hmaterial hsign input
  rw [h.verifies, h.pairs key hkey _ _ _ hmaterial hsign]
  rfl

theorem verifyBytes_iff (h : config.crypto.Keyed rsaSignature) {input : String}
    {provided : List UInt8} : config.verifyBytes key input provided = true ↔
      key.signature config.crypto rsaSignature input = some provided := by
  unfold verifyBytes SigningKey.signature
  cases key.material with
  | hmac secret =>
      dsimp only
      rw [beq_iff_eq, Option.some.injEq]
      exact eq_comm
  | rsa privateKeyPem publicKeyPem => exact h _ _ _

theorem kid_of_getSigningKeyByKid {kid : String} (h : config.getSigningKeyByKid kid = some key) :
    key.kid = kid := by
  have hkid := List.find?_some h
  exact eq_of_beq hkid

/-- Which key a header gives. -/
theorem verificationKey_eq_some {header : JsValue} :
    config.verificationKey header scope = some key ↔
      header.property "typ" = .str "MAPSIG" ∧ header.property "alg" = .str key.alg.text ∧
        header.property "kid" = .str key.kid ∧ config.getSigningKeyByKid key.kid = some key ∧
          key.status ≠ .revoked ∧ ∀ name, scope = some name → name.text ∈ key.scopes := by
  constructor
  · intro h
    unfold verificationKey at h
    split at h
    · rename_i typ alg kid htyp halg hkid
      split at h
      · cases h
      · rename_i hmapsig
        obtain rfl : typ = "MAPSIG" := by simpa using hmapsig
        split at h
        · cases h
        · rename_i found hfound
          split at h
          · cases h
          · rename_i hlive
            obtain ⟨hstatus, halgorithm⟩ := not_or.mp hlive
            have halgorithm : found.alg.text = alg := by simpa using halgorithm
            have hfoundkid := kid_of_getSigningKeyByKid hfound
            have hkey : found = key ∧ ∀ name, scope = some name → name.text ∈ found.scopes := by
              cases scope with
              | none => exact ⟨Option.some.inj h, by simp⟩
              | some name =>
                  dsimp only at h
                  split at h
                  · rename_i hname
                    refine ⟨Option.some.inj h, fun name' hname' => ?_⟩
                    rw [← Option.some.inj hname']
                    exact hname
                  · cases h
            obtain ⟨rfl, hscope⟩ := hkey
            subst hfoundkid halgorithm
            exact ⟨htyp, halg, hkid, hfound, hstatus, hscope⟩
    · cases h
  · rintro ⟨htyp, halg, hkid, hfound, hstatus, hscope⟩
    unfold verificationKey
    rw [htyp, halg, hkid]
    cases scope with
    | none => simp [hfound, hstatus]
    | some name => simp [hfound, hstatus, hscope name rfl]

/-- **What verifies.** -/
theorem verify_iff (h : config.crypto.Keyed rsaSignature) {s canonicalPayload : String} :
    config.verifyCompactSignatureFromCanonical s canonicalPayload scope = true ↔
      ∃ key, config.Accepted rsaSignature s canonicalPayload scope key := by
  rw [verifies_iff_parts]
  constructor
  · rintro ⟨encodedHeader, encodedSignature, header, key, hsplit, hheader, hkey, hbytes⟩
    obtain ⟨htyp, halg, hkid, hfound, hstatus, hscope⟩ := verificationKey_eq_some.mp hkey
    exact ⟨key, hfound, hstatus, hscope, encodedHeader, encodedSignature, header, hsplit, hheader,
      htyp, halg, hkid, (verifyBytes_iff h).mp hbytes⟩
  · rintro ⟨key, hfound, hstatus, hscope, encodedHeader, encodedSignature, header, hsplit, hheader,
      htyp, halg, hkid, hbytes⟩
    exact ⟨encodedHeader, encodedSignature, header, key, hsplit, hheader,
      verificationKey_eq_some.mpr ⟨htyp, halg, hkid, hfound, hstatus, hscope⟩,
      (verifyBytes_iff h).mpr hbytes⟩

/-- A signature that a key makes is accepted, where its kid finds it. -/
theorem accepted_of_signature {key : SigningKey} {canonicalPayload : String} {bytes : List UInt8}
    (hsignature : key.signature config.crypto rsaSignature (signingInput key canonicalPayload) =
      some bytes) (hfound : config.getSigningKeyByKid key.kid = some key)
    (hlive : key.status ≠ .revoked) {scope : SignatureScope} (hscope : scope.text ∈ key.scopes) :
    config.Accepted rsaSignature
      (signingInput key canonicalPayload ++ "." ++ base64urlOfBytes bytes) canonicalPayload
      (some scope) key where
  found := hfound
  live  := hlive
  holds := fun _ hname => Option.some.inj hname ▸ hscope
  parts := by
    refine ⟨_, base64urlOfBytes bytes, _, split_three (dot_notMem_base64url _)
      (dot_notMem_base64url _) (dot_notMem_base64urlOfBytes _), parse_encodedHeader key, rfl, rfl,
      rfl, ?_⟩
    rw [bytesOfBase64url_base64urlOfBytes]
    exact hsignature

/-! ## The key that signs -/

theorem mem_of_getActiveSigningKey (h : config.getActiveSigningKey = .ok key) :
    key ∈ config.keys := by
  unfold getActiveSigningKey at h
  dsimp only at h
  split at h
  · rename_i found hfound
    cases h
    rcases Option.or_eq_some_iff.mp hfound with hactive | ⟨_, hfirst⟩
    · split at hactive
      · split at hactive
        · cases hactive
        · exact List.mem_of_find?_eq_some (Option.filter_eq_some_iff.mp hactive).1
      · cases hactive
    · exact List.mem_of_find?_eq_some hfirst
  · cases h

theorem signingKey_of_authorized (h : config.authorizedKey requestedKid scope = .ok key) :
    config.signingKey requestedKid = .ok key := by
  unfold authorizedKey at h
  simp only [bind_eq_ok, throwIf_eq_ok, pure_eq_ok] at h
  obtain ⟨_, hkey, _, _, _, _, _, _, rfl⟩ := h
  exact hkey

theorem signingKey_cases (h : config.signingKey requestedKid = .ok key) :
    config.getActiveSigningKey = .ok key ∨ config.getSigningKeyByKid key.kid = some key := by
  unfold signingKey at h
  split at h
  · split at h
    · exact .inl h
    · split at h
      · rename_i found hfound
        cases h
        rw [← kid_of_getSigningKeyByKid hfound] at hfound
        exact .inr hfound
      · cases h
  · exact .inl h

theorem mem_of_signingKey (h : config.signingKey requestedKid = .ok key) : key ∈ config.keys := by
  rcases signingKey_cases h with hactive | hfound
  · exact mem_of_getActiveSigningKey hactive
  · exact List.mem_of_find?_eq_some hfound

theorem find_of_distinct {keys : List SigningKey} (h : (keys.map SigningKey.kid).Nodup)
    (hkey : key ∈ keys) : keys.find? (fun k => k.kid == key.kid) = some key := by
  induction keys with
  | nil => cases hkey
  | cons k keys ih =>
      obtain ⟨hk, hkeys⟩ := List.nodup_cons.mp h
      rcases List.mem_cons.mp hkey with rfl | hkey
      · simp
      · have hne : k.kid ≠ key.kid := fun heq => hk (heq ▸ List.mem_map_of_mem hkey)
        rw [List.find?_cons_of_neg (by simpa using hne), ih hkeys hkey]

/-- A kid that is requested finds the key that signs, and so does any kid where they are distinct. -/
theorem found_of_authorized {requestedKid : Option String} {scope : Option SignatureScope}
    {key : SigningKey} (h : config.authorizedKey requestedKid scope = .ok key)
    (hcase : (config.keys.map SigningKey.kid).Nodup ∨
      ∃ kid, requestedKid = some kid ∧ isBlank kid = false) :
    config.getSigningKeyByKid key.kid = some key := by
  have hkey := signingKey_of_authorized h
  rcases hcase with hdistinct | ⟨kid, rfl, hblank⟩
  · exact find_of_distinct hdistinct (mem_of_signingKey hkey)
  · unfold signingKey at hkey
    dsimp only at hkey
    rw [hblank, if_neg (by simp)] at hkey
    split at hkey
    · rename_i found hfound
      cases hkey
      rw [← kid_of_getSigningKeyByKid hfound] at hfound
      exact hfound
    · cases hkey

/-- **What a signature that was made can be used for**, in any later configuration: only its payload,
only while its kid finds a key that is not revoked, and only in the scopes of that key. -/
theorem created_verifies_only {canonicalPayload : String} {requestedKid : Option String}
    {scope : Option SignatureScope} {signature : String} {key : SigningKey}
    (h : config.createCompactSignatureFromCanonical canonicalPayload requestedKid scope =
      .ok signature)
    (hkey : config.authorizedKey requestedKid scope = .ok key) {later : SigningConfig}
    {canonicalPayload' : String} {scope' : Option SignatureScope}
    (hverify : later.verifyCompactSignatureFromCanonical signature canonicalPayload' scope' =
      true) :
    canonicalPayload' = canonicalPayload ∧ ∃ found, later.getSigningKeyByKid key.kid = some found ∧
      found.status ≠ .revoked ∧ ∀ name, scope' = some name → name.text ∈ found.scopes := by
  unfold createCompactSignatureFromCanonical at h
  simp only [bind_eq_ok, pure_eq_ok, hkey, Except.ok.injEq] at h
  obtain ⟨_, rfl, sign, _, rfl⟩ := h
  obtain ⟨rfl, found, hfound, -⟩ :=
    (verifies_iff_of_input (dot_notMem_base64urlOfBytes _)).mp hverify
  obtain ⟨_, _, hkid, hget, hstatus, hscope⟩ := verificationKey_eq_some.mp hfound
  have hproperty : (JsValue.obj (signingHeader key)).property "kid" = .str key.kid := rfl
  have hnamed : key.kid = found.kid := JsValue.str.inj (hproperty.symm.trans hkid)
  rw [hnamed]
  exact ⟨rfl, found, hget, hstatus, hscope⟩

/-- **Compact signatures are sound, and complete for keys that their kid finds.** -/
theorem compactSignature_sound_complete (h : config.Idealised rsaSignature) :
    (∀ s payload scope, config.verifyCompactSignature s payload scope = true ↔
      ∃ key, config.Accepted rsaSignature s (stableStringify payload) scope key) ∧
    ∀ payload requestedKid scope s,
      config.createCompactSignature payload requestedKid scope = .ok s →
        ∃ key ∈ config.keys, config.authorizedKey requestedKid scope = .ok key ∧
          (config.getSigningKeyByKid key.kid = some key →
            config.verifyCompactSignature s payload scope = true) ∧
          ((config.keys.map SigningKey.kid).Nodup ∨
            (∃ kid, requestedKid = some kid ∧ isBlank kid = false) →
              config.getSigningKeyByKid key.kid = some key) ∧
          ∀ (later : SigningConfig) payload' scope',
            later.verifyCompactSignature s payload' scope' = true →
              stableStringify payload' = stableStringify payload ∧
                ∃ found, later.getSigningKeyByKid key.kid = some found ∧
                  found.status ≠ .revoked ∧
                    ∀ name, scope' = some name → name.text ∈ found.scopes := by
  refine ⟨fun s payload scope => verify_iff h.verifies, fun payload requestedKid scope s hcreate => ?_⟩
  obtain ⟨key, hkey⟩ : ∃ key, config.authorizedKey requestedKid scope = .ok key := by
    unfold createCompactSignature createCompactSignatureFromCanonical at hcreate
    simp only [bind_eq_ok] at hcreate
    obtain ⟨key, hkey, _⟩ := hcreate
    exact ⟨key, hkey⟩
  refine ⟨key, mem_of_signingKey (signingKey_of_authorized hkey), hkey, fun hfound => ?_,
    found_of_authorized hkey, fun later payload' scope' => created_verifies_only hcreate hkey⟩
  refine verify_of_created (sound_of_idealised h) (fun key' hkey' => ?_) hcreate
  obtain rfl : key = key' := Except.ok.inj (hkey.symm.trans hkey')
  exact hfound

/-! ## Keys that share a kid -/

/-- A keyed function that tells keys and texts apart, and no asymmetric keys. -/
def quotingCrypto : Crypto where
  hmacSha256 secret input := utf8 (quote secret ++ input)
  rsaSign _ := .error "unsupported"
  rsaVerify _ _ _ := false

/-- The keys of a deployment in the open profile, none of them preferred. -/
def openConfig (keys : List SigningKey) : SigningConfig := ⟨keys, none, .open, quotingCrypto⟩

theorem idealised_quoting (h : config.crypto = quotingCrypto) :
    config.Idealised fun _ => none where
  verifies _ _ _ := by simp [h, quotingCrypto]
  pairs _ _ _ _ _ _ hsign := by
    rw [h] at hsign
    cases hsign

def oneKey : SigningConfig := openConfig [⟨"k1", .active, ["receipt"], .hmac "secret"⟩]

theorem idealised_oneKey : oneKey.Idealised fun _ => none := idealised_quoting rfl

theorem compactSignature_sound_complete_oneKey : ∃ s,
    oneKey.createCompactSignature [("task", .str "t1")] none (some .receipt) = .ok s ∧
      oneKey.verifyCompactSignature s [("task", .str "t1")] (some .receipt) = true := by
  obtain ⟨key, _, _, hverify, hfound, _⟩ :=
    (compactSignature_sound_complete idealised_oneKey).2 [("task", .str "t1")] none (some .receipt) _
      rfl
  exact ⟨_, rfl, hverify (hfound (.inl (by decide)))⟩

/-- A revoked key and its replacement under the same kid. -/
def sharedKid : SigningConfig :=
  openConfig [⟨"k1", .revoked, ["receipt"], .hmac "old"⟩, ⟨"k1", .active, ["receipt"], .hmac "new"⟩]

/-- The replacement signs, and its signatures do not verify. -/
theorem sharedKid_unverified : sharedKid.Idealised (fun _ => none) ∧ ∃ s,
    sharedKid.createCompactSignature [("task", .str "t1")] none (some .receipt) = .ok s ∧
      sharedKid.verifyCompactSignature s [("task", .str "t1")] (some .receipt) = false := by
  refine ⟨idealised_quoting rfl, _, rfl, ?_⟩
  rw [Bool.eq_false_iff]
  intro hverify
  obtain ⟨_, found, hfound, hstatus, _⟩ := @created_verifies_only sharedKid
    (stableStringify [("task", .str "t1")]) none (some .receipt) _ _ rfl rfl sharedKid _ _ hverify
  obtain rfl : ⟨"k1", .revoked, ["receipt"], .hmac "old"⟩ = found := Option.some.inj hfound
  exact hstatus rfl

end SigningConfig

end MapProtocol
