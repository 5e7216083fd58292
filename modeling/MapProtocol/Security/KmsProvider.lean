import MapProtocol.Lib.OrderedMap
import MapProtocol.Lib.Transition
import MapProtocol.Security.Signing

/-!
# The local key provider

`LocalKMSProvider` holds key objects under their kids. Its loader hands out the same objects at every
call, and the provider writes the status of a key into the object, so that a status survives when
`listKeys` fills the map from the loader again; what was rotated in does not. A rotation marks the old
key as retiring, whatever it was before, and files the new one under a kid made of the old one and the
time.
-/

namespace MapProtocol

open Js Transition

/-- The primitives, over bytes. `rsaSign` throws where the private key cannot be read; `rsaVerify` is
false where the public key cannot, and `exportJwk` is `none`. -/
structure KmsCrypto where
  hmacSha256 : String → List UInt8 → List UInt8
  rsaSign    : String → List UInt8 → Except String (List UInt8)
  rsaVerify  : String → List UInt8 → List UInt8 → Bool
  exportJwk  : String → Option JsObject

structure ProviderKey where
  kid      : String
  alg      : SigningAlgorithm
  status   : KeyStatus
  scopes   : List String
  demoOnly : Bool
  material : KeyMaterial
  deriving DecidableEq, Repr

/-- The public key verifies what the private key signs. -/
def ProviderKey.Sound (crypto : KmsCrypto) (key : ProviderKey) : Prop :=
  ∀ privateKeyPem publicKeyPem payload signature,
    key.material = .rsa (some privateKeyPem) publicKeyPem →
      crypto.rsaSign privateKeyPem payload = .ok signature →
        crypto.rsaVerify publicKeyPem payload signature = true

structure ListedKey where
  kid          : String
  alg          : SigningAlgorithm
  status       : KeyStatus
  scopes       : List String
  demoOnly     : Bool
  kty          : String
  publicKeyPem : Option String
  jwk          : Option JsObject

/-- The objects are numbered as they come into being, those of the loader first. -/
structure LocalKMSProvider where
  objects    : List ProviderKey
  configured : Nat
  keys       : OrderedMap String Nat

namespace LocalKMSProvider

variable (crypto : KmsCrypto) (p : LocalKMSProvider)

/-- The kids and the numbers of the loader's objects. -/
def loadKeys : List (String × Nat) := ((p.objects.take p.configured).map (·.kid)).zipIdx

def refreshKeys : LocalKMSProvider :=
  { p with keys := p.loadKeys.foldl (fun keys entry => keys.set entry.1 entry.2) .empty }

/-- `new LocalKMSProvider(loadKeys)`. -/
def create (configured : List ProviderKey) : LocalKMSProvider :=
  refreshKeys ⟨configured, configured.length, .empty⟩

/-- `this.keys.get(keyId)`. -/
def key? (keyId : String) : Option ProviderKey :=
  (p.keys.get keyId).bind fun ref => p.objects[ref]?

/-- The status of an object, written. -/
def setStatus (ref : Nat) (status : KeyStatus) : LocalKMSProvider :=
  { p with objects := p.objects.modify ref fun key => { key with status := status } }

def sign (keyId : String) (payload : List UInt8) (algorithm : SigningAlgorithm) :
    Except String (List UInt8) :=
  match p.key? keyId with
  | none     => .error ("LocalKMSProvider: key not found: " ++ keyId)
  | some key =>
      if key.status = .revoked then .error ("LocalKMSProvider: key is revoked: " ++ keyId)
      else if key.alg ≠ algorithm then
        .error ("LocalKMSProvider: algorithm mismatch: requested " ++ algorithm.text ++ ", key has " ++
          key.alg.text)
      else match key.material with
        | .hmac secret         => .ok (crypto.hmacSha256 secret payload)
        | .rsa privateKeyPem _ =>
            match privateKeyPem.filter fun pem => pem ≠ "" with
            | none     =>
                .error ("LocalKMSProvider: no private key configured for RS256 key: " ++ keyId)
            | some pem => crypto.rsaSign pem payload

def verify (keyId : String) (payload signature : List UInt8) (algorithm : SigningAlgorithm) : Bool :=
  match p.key? keyId with
  | none     => false
  | some key =>
      if key.status = .revoked ∨ key.alg ≠ algorithm then false
      else match key.material with
        | .hmac secret        => signature == crypto.hmacSha256 secret payload
        | .rsa _ publicKeyPem => crypto.rsaVerify publicKeyPem payload signature

def listed (jwk : Option JsObject) (key : ProviderKey) : ListedKey where
  kid := key.kid
  alg := key.alg
  status := key.status
  scopes := key.scopes
  demoOnly := key.demoOnly
  kty := match key.material with
    | .hmac _  => "oct"
    | .rsa _ _ => "RSA"
  publicKeyPem := match key.material with
    | .hmac _             => none
    | .rsa _ publicKeyPem => some publicKeyPem
  jwk := jwk

/-- The listing of a key with the JWK of its public key, where that can be exported. -/
def listedWithJwk (key : ProviderKey) : ListedKey :=
  listed (match key.material with
    | .hmac _             => none
    | .rsa _ publicKeyPem => crypto.exportJwk publicKeyPem) key

def listKeys : List ListedKey × LocalKMSProvider :=
  let refreshed := p.refreshKeys
  ((refreshed.keys.values.filterMap (refreshed.objects[·]?)).map (listedWithJwk crypto), refreshed)

def rotatedKid (keyId : String) (now : Nat) : String := keyId ++ "-rotated-" ++ toString now

/-- The key that takes the place of another: a fresh secret, or the same RSA key pair. -/
def rotated (oldKey : ProviderKey) (newKid newSecret : String) : ProviderKey where
  kid := newKid
  alg := match oldKey.material with
    | .hmac _  => .hs256
    | .rsa _ _ => .rs256
  status := .active
  scopes := oldKey.scopes
  demoOnly := oldKey.demoOnly
  material := match oldKey.material with
    | .hmac _                         => .hmac newSecret
    | .rsa privateKeyPem publicKeyPem => .rsa privateKeyPem publicKeyPem

/-- `rotateKey(keyId)` at the time `now`, with the secret that is drawn. -/
def rotateKey (keyId : String) (now : Nat) (newSecret : String) :
    Except String ListedKey × LocalKMSProvider :=
  match p.keys.get keyId, p.key? keyId with
  | some ref, some oldKey =>
      let retired := p.setStatus ref .retiring
      let newKey := rotated oldKey (rotatedKid keyId now) newSecret
      (.ok (listed none newKey),
        { retired with
          objects := retired.objects ++ [newKey]
          keys := retired.keys.set newKey.kid retired.objects.length })
  | _, _ => (.error ("LocalKMSProvider: cannot rotate unknown key: " ++ keyId), p)

def revokeKey (keyId : String) : Except String Unit × LocalKMSProvider :=
  match p.keys.get keyId with
  | none     => (.error ("LocalKMSProvider: cannot revoke unknown key: " ++ keyId), p)
  | some ref => (.ok (), p.setStatus ref .revoked)

def getKeyStatus (keyId : String) : Except String KeyStatus :=
  match p.key? keyId with
  | none     => .error ("LocalKMSProvider: key not found: " ++ keyId)
  | some key => .ok key.status

/-- A call of the provider. -/
inductive Operation where
  | sign (keyId : String) (payload : List UInt8) (algorithm : SigningAlgorithm)
  | verify (keyId : String) (payload signature : List UInt8) (algorithm : SigningAlgorithm)
  | listKeys
  | rotateKey (keyId : String) (now : Nat) (newSecret : String)
  | revokeKey (keyId : String)

/-- What a call leaves behind. -/
def step (p : LocalKMSProvider) : Operation → LocalKMSProvider
  | .sign _ _ _                    => p
  | .verify _ _ _ _                => p
  | .listKeys                      => (p.listKeys crypto).2
  | .rotateKey keyId now newSecret => (p.rotateKey keyId now newSecret).2
  | .revokeKey keyId               => (p.revokeKey keyId).2

/-! ## When a key lives as it should -/

/-- A rotation of a key that is not revoked, to a kid that nothing is held under; and a listing while
every key that is held is one of the loader's. -/
def Admissible (p : LocalKMSProvider) : Operation → Prop
  | .listKeys              => ∀ kid ref, p.keys.get kid = some ref → ref < p.configured
  | .rotateKey keyId now _ =>
      p.key? keyId = none ∨
        p.getKeyStatus keyId ≠ .ok .revoked ∧ p.keys.get (rotatedKid keyId now) = none
  | _                      => True

/-- A later state of a key: its status may change, but not from revoked. -/
structure Succeeds (old new : ProviderKey) : Prop where
  alg      : new.alg = old.alg
  material : new.material = old.material
  revoked  : old.status = .revoked → new.status = .revoked

/-- Every key that is held is held later, in a later state. -/
def Kept (p p' : LocalKMSProvider) : Prop :=
  ∀ keyId key, p.key? keyId = some key → ∃ key', p'.key? keyId = some key' ∧ Succeeds key key'

theorem Succeeds.refl (key : ProviderKey) : Succeeds key key := ⟨rfl, rfl, id⟩

theorem Kept.refl (p : LocalKMSProvider) : Kept p p := fun _ key h => ⟨key, h, .refl key⟩

theorem Kept.trans {p p' p'' : LocalKMSProvider} (h : Kept p p') (h' : Kept p' p'') : Kept p p'' := by
  intro keyId key hkey
  obtain ⟨key', hkey', hsucceeds⟩ := h keyId key hkey
  obtain ⟨key'', hkey'', hsucceeds'⟩ := h' keyId key' hkey'
  exact ⟨key'', hkey'', hsucceeds'.alg.trans hsucceeds.alg,
    hsucceeds'.material.trans hsucceeds.material, fun h => hsucceeds'.revoked (hsucceeds.revoked h)⟩

/-- What holds of a provider between calls. -/
structure Sane (crypto : KmsCrypto) (p : LocalKMSProvider) : Prop where
  bound  : p.configured ≤ p.objects.length
  held   : ∀ kid ref, p.keys.get kid = some ref → ∃ key, p.objects[ref]? = some key ∧ key.kid = kid
  /-- The loader would give the same object. -/
  loaded : ∀ kid ref, p.keys.get kid = some ref → ref < p.configured →
    p.refreshKeys.keys.get kid = some ref
  sound  : ∀ key ∈ p.objects, key.Sound crypto

variable {crypto p}

/-! ## The loader

`listKeys` loads the configured keys anew, with the statuses they have come to. -/

theorem kids_modify (objects : List ProviderKey) (ref : Nat) (status : KeyStatus) :
    (objects.modify ref fun key => { key with status := status }).map (·.kid) =
      objects.map (·.kid) := by
  refine List.ext_getElem? fun i => ?_
  rw [List.getElem?_map, List.getElem?_map, List.getElem?_modify]
  cases objects[i]? with
  | none => rfl
  | some key => by_cases href : ref = i <;> simp [href]

theorem loadKeys_eq : p.loadKeys = ((p.objects.map (·.kid)).take p.configured).zipIdx := by
  rw [loadKeys, List.map_take]

theorem loadKeys_setStatus (ref : Nat) (status : KeyStatus) :
    (p.setStatus ref status).loadKeys = p.loadKeys := by
  rw [loadKeys_eq, loadKeys_eq]
  show ((List.map _ (p.objects.modify ref _)).take p.configured).zipIdx = _
  rw [kids_modify]

theorem mem_loadKeys {kid : String} {ref : Nat} (h : (kid, ref) ∈ p.loadKeys) :
    ∃ key, p.objects[ref]? = some key ∧ key.kid = kid := by
  have hget := List.mem_zipIdx_iff_getElem?.mp h
  rw [List.getElem?_map] at hget
  obtain ⟨key, hkey, rfl⟩ := Option.map_eq_some_iff.mp hget
  rw [List.getElem?_take] at hkey
  split at hkey
  · exact ⟨key, hkey, rfl⟩
  · cases hkey

theorem held_refreshKeys {kid : String} {ref : Nat} (h : p.refreshKeys.keys.get kid = some ref) :
    ∃ key, p.objects[ref]? = some key ∧ key.kid = kid := by
  rcases OrderedMap.get_foldl_set h with hmem | hempty
  · exact mem_loadKeys hmem
  · cases hempty

theorem sane_refreshKeys (hbound : p.configured ≤ p.objects.length)
    (hsound : ∀ key ∈ p.objects, key.Sound crypto) : p.refreshKeys.Sane crypto where
  bound := hbound
  held _ _ h := held_refreshKeys h
  loaded _ _ h _ := h
  sound := hsound

/-! ## Writing a status -/

theorem objects_setStatus (ref : Nat) (status : KeyStatus) (i : Nat) :
    (p.setStatus ref status).objects[i]? =
      (p.objects[i]?).map fun key => if ref = i then { key with status := status } else key := by
  show (p.objects.modify ref _)[i]? = _
  rw [List.getElem?_modify]
  by_cases href : ref = i <;> simp [href]

theorem sane_setStatus (h : p.Sane crypto) (ref : Nat) (status : KeyStatus) :
    (p.setStatus ref status).Sane crypto where
  bound := by
    show p.configured ≤ (p.objects.modify ref _).length
    rw [List.length_modify]
    exact h.bound
  held kid i hget := by
    obtain ⟨key, hkey, hkid⟩ := h.held kid i hget
    rw [objects_setStatus, hkey]
    refine ⟨_, rfl, ?_⟩
    split <;> exact hkid
  loaded kid i hget hlt := by
    have hloaded := h.loaded kid i hget hlt
    unfold refreshKeys at hloaded ⊢
    rwa [loadKeys_setStatus]
  sound key hkey := by
    obtain ⟨i, hi⟩ := List.mem_iff_getElem?.mp hkey
    rw [objects_setStatus] at hi
    obtain ⟨old, hold, rfl⟩ := Option.map_eq_some_iff.mp hi
    have hsound := h.sound old (List.mem_of_getElem? hold)
    split <;> exact hsound

theorem kept_setStatus {ref : Nat} {status : KeyStatus}
    (h : ∀ key, p.objects[ref]? = some key → key.status = .revoked → status = .revoked) :
    Kept p (p.setStatus ref status) := by
  intro keyId key hkey
  obtain ⟨i, hget, hobject⟩ := Option.bind_eq_some_iff.mp hkey
  refine ⟨if ref = i then { key with status := status } else key, ?_, ?_⟩
  · refine Option.bind_eq_some_iff.mpr ⟨i, hget, ?_⟩
    rw [objects_setStatus, hobject]
    rfl
  · split
    · rename_i href
      subst href
      exact ⟨rfl, rfl, h key hobject⟩
    · exact .refl key

/-! ## The calls

An object keeps its number for good. What changes is its status, and what the kids lead to. -/

theorem rotateKey_cases (keyId : String) (now : Nat) (newSecret : String) :
    (p.key? keyId = none ∨ p.keys.get keyId = none) ∧ (p.rotateKey keyId now newSecret).2 = p ∧
        (∃ e, (p.rotateKey keyId now newSecret).1 = .error e) ∨
      ∃ ref oldKey, p.keys.get keyId = some ref ∧ p.objects[ref]? = some oldKey ∧
        p.rotateKey keyId now newSecret =
          (.ok (listed none (rotated oldKey (rotatedKid keyId now) newSecret)),
            { p.setStatus ref .retiring with
              objects := (p.setStatus ref .retiring).objects ++
                [rotated oldKey (rotatedKid keyId now) newSecret]
              keys := p.keys.set (rotatedKid keyId now)
                (p.setStatus ref .retiring).objects.length }) := by
  unfold rotateKey
  cases hget : p.keys.get keyId with
  | none => exact .inl ⟨.inr rfl, rfl, _, rfl⟩
  | some ref =>
      cases hkey : p.key? keyId with
      | none => exact .inl ⟨.inl rfl, rfl, _, rfl⟩
      | some oldKey =>
          have hobject : p.objects[ref]? = some oldKey := by
            rwa [key?, hget, Option.bind_some] at hkey
          exact .inr ⟨ref, oldKey, rfl, hobject, rfl⟩

theorem sound_rotated {key : ProviderKey} (h : key.Sound crypto) (newKid newSecret : String) :
    (rotated key newKid newSecret).Sound crypto := by
  intro privateKeyPem publicKeyPem payload signature hmaterial
  cases hkey : key.material with
  | hmac secret =>
      simp only [rotated, hkey] at hmaterial
      cases hmaterial
  | rsa pem publicPem =>
      simp only [rotated, hkey] at hmaterial
      cases hmaterial
      exact h privateKeyPem publicKeyPem payload signature hkey

/-- A key object that joins under a kid that nothing is held under. -/
theorem sane_join (h : p.Sane crypto) {newKey : ProviderKey} (hsound : newKey.Sound crypto) :
    Sane crypto { p with
      objects := p.objects ++ [newKey]
      keys := p.keys.set newKey.kid p.objects.length } where
  bound := by
    have hbound := h.bound
    simp only [List.length_append]
    omega
  held kid ref hget := by
    have hget : (p.keys.set newKey.kid p.objects.length).get kid = some ref := hget
    rw [OrderedMap.get_set] at hget
    split at hget
    · rename_i hkid
      cases hget
      exact ⟨newKey, by simp, hkid⟩
    · obtain ⟨key, hkey, hkid⟩ := h.held kid ref hget
      exact ⟨key, (List.getElem?_append_left (List.getElem?_eq_some_iff.mp hkey).1).trans hkey, hkid⟩
  loaded kid ref hget hlt := by
    have hget : (p.keys.set newKey.kid p.objects.length).get kid = some ref := hget
    have hbound := h.bound
    rw [OrderedMap.get_set] at hget
    split at hget
    · cases hget
      -- the new object is past those that were loaded
      exact absurd hlt (Nat.not_lt.mpr hbound)
    · have hloaded := h.loaded kid ref hget hlt
      unfold refreshKeys loadKeys at hloaded ⊢
      rwa [List.take_append_of_le_length hbound]
  sound key hkey := by
    rcases List.mem_append.mp hkey with hkey | hkey
    · exact h.sound key hkey
    · exact List.mem_singleton.mp hkey ▸ hsound

theorem kept_join {newKey : ProviderKey} (hfresh : p.keys.get newKey.kid = none) :
    Kept p { p with
      objects := p.objects ++ [newKey]
      keys := p.keys.set newKey.kid p.objects.length } := by
  intro keyId key hkey
  obtain ⟨ref, hget, hobject⟩ := Option.bind_eq_some_iff.mp hkey
  have hne : newKey.kid ≠ keyId := by
    rintro rfl
    rw [hfresh] at hget
    cases hget
  refine ⟨key, Option.bind_eq_some_iff.mpr ⟨ref, ?_, ?_⟩, .refl key⟩
  · exact (OrderedMap.get_set_ne _ hne _).trans hget
  · exact (List.getElem?_append_left (List.getElem?_eq_some_iff.mp hobject).1).trans hobject

theorem kept_refreshKeys (h : p.Sane crypto)
    (hloaded : ∀ kid ref, p.keys.get kid = some ref → ref < p.configured) :
    Kept p p.refreshKeys := by
  intro keyId key hkey
  obtain ⟨ref, hget, hobject⟩ := Option.bind_eq_some_iff.mp hkey
  exact ⟨key, Option.bind_eq_some_iff.mpr ⟨ref, h.loaded keyId ref hget (hloaded keyId ref hget),
    hobject⟩, .refl key⟩

theorem key?_of_getKeyStatus {keyId : String} {status : KeyStatus} :
    p.getKeyStatus keyId = .ok status ↔ ∃ key, p.key? keyId = some key ∧ key.status = status := by
  unfold getKeyStatus
  cases p.key? keyId <;> simp

/-- An admissible call keeps every key. -/
theorem step_kept (h : p.Sane crypto) {op : Operation} (hop : p.Admissible op) :
    (p.step crypto op).Sane crypto ∧ Kept p (p.step crypto op) := by
  cases op with
  | sign keyId payload algorithm => exact ⟨h, .refl p⟩
  | verify keyId payload signature algorithm => exact ⟨h, .refl p⟩
  | listKeys => exact ⟨sane_refreshKeys h.bound h.sound, kept_refreshKeys h hop⟩
  | revokeKey keyId =>
      show (p.revokeKey keyId).2.Sane crypto ∧ Kept p (p.revokeKey keyId).2
      unfold revokeKey
      cases p.keys.get keyId with
      | none => exact ⟨h, .refl p⟩
      | some ref => exact ⟨sane_setStatus h ref .revoked, kept_setStatus fun _ _ _ => rfl⟩
  | rotateKey keyId now newSecret =>
      show (p.rotateKey keyId now newSecret).2.Sane crypto ∧
        Kept p (p.rotateKey keyId now newSecret).2
      rcases p.rotateKey_cases keyId now newSecret with ⟨-, hsame, -⟩ |
        ⟨ref, oldKey, hget, hobject, hrotate⟩
      · rw [hsame]
        exact ⟨h, .refl p⟩
      · have hkey : p.key? keyId = some oldKey := by rw [key?, hget, Option.bind_some, hobject]
        rcases hop with hnone | ⟨hlive, hfresh⟩
        · rw [hkey] at hnone
          cases hnone
        · have hretired := sane_setStatus h ref .retiring
          have hsound := sound_rotated (h.sound oldKey (List.mem_of_getElem? hobject))
            (rotatedKid keyId now) newSecret
          -- the old key only retires, so what it signed still verifies
          have hkept : Kept p (p.setStatus ref .retiring) := by
            refine kept_setStatus fun key hkey' hrevoked => absurd ?_ hlive
            rw [hobject] at hkey'
            cases hkey'
            exact key?_of_getKeyStatus.mpr ⟨oldKey, hkey, hrevoked⟩
          rw [hrotate]
          exact ⟨sane_join hretired hsound, hkept.trans (kept_join hfresh)⟩

/-! ## The life of the keys

Revoked keys stay revoked; the others verify what they have signed. -/

/-- What must be between two states of a provider, the first one earlier. -/
structure Preserved (crypto : KmsCrypto) (p p' : LocalKMSProvider) : Prop where
  revoked   : ∀ keyId, p.getKeyStatus keyId = .ok .revoked →
    p'.getKeyStatus keyId = .ok .revoked ∧
      (∀ payload algorithm signature, p'.sign crypto keyId payload algorithm ≠ .ok signature) ∧
        ∀ payload signature algorithm, p'.verify crypto keyId payload signature algorithm = false
  held      : ∀ keyId status, p.getKeyStatus keyId = .ok status →
    ∃ status', p'.getKeyStatus keyId = .ok status'
  verifying : ∀ keyId payload algorithm signature,
    p.sign crypto keyId payload algorithm = .ok signature →
      p'.getKeyStatus keyId ≠ .ok .revoked →
        p'.verify crypto keyId payload signature algorithm = true

/-- A rotation returns a kid that nothing was held under, and a listing changes no status. -/
def Orderly (crypto : KmsCrypto) (p : LocalKMSProvider) : Operation → Prop
  | .listKeys                      => ∀ keyId status, p.getKeyStatus keyId = .ok status →
      (p.listKeys crypto).2.getKeyStatus keyId = .ok status
  | .rotateKey keyId now newSecret => ∀ key, (p.rotateKey keyId now newSecret).1 = .ok key →
      p.key? key.kid = none
  | _                              => True

theorem revoked_silent {keyId : String} (h : p.getKeyStatus keyId = .ok .revoked) :
    (∀ payload algorithm signature, p.sign crypto keyId payload algorithm ≠ .ok signature) ∧
      ∀ payload signature algorithm, p.verify crypto keyId payload signature algorithm = false := by
  obtain ⟨key, hkey, hrevoked⟩ := key?_of_getKeyStatus.mp h
  constructor
  · intro payload algorithm signature hsign
    unfold sign at hsign
    rw [hkey] at hsign
    dsimp only at hsign
    rw [if_pos hrevoked] at hsign
    cases hsign
  · intro payload signature algorithm
    unfold verify
    rw [hkey]
    dsimp only
    rw [if_pos (.inl hrevoked)]

/-- What a key signs, it verifies in any later state in which it is not revoked. -/
theorem verify_of_sign (h : p.Sane crypto) {p' : LocalKMSProvider} (hkept : Kept p p')
    {keyId : String} {payload signature : List UInt8} {algorithm : SigningAlgorithm}
    (hsign : p.sign crypto keyId payload algorithm = .ok signature)
    (hlive : p'.getKeyStatus keyId ≠ .ok .revoked) :
    p'.verify crypto keyId payload signature algorithm = true := by
  unfold sign at hsign
  split at hsign
  · cases hsign
  · rename_i key hkey
    obtain ⟨key', hkey', hsucceeds⟩ := hkept keyId key hkey
    have hstatus : key'.status ≠ .revoked := fun hrevoked =>
      hlive (key?_of_getKeyStatus.mpr ⟨key', hkey', hrevoked⟩)
    split at hsign
    · cases hsign
    · split at hsign
      · cases hsign
      · rename_i halg
        unfold verify
        rw [hkey']
        dsimp only
        rw [if_neg (not_or.mpr ⟨hstatus, by rw [hsucceeds.alg]; exact halg⟩), hsucceeds.material]
        cases hmaterial : key.material with
        | hmac secret =>
            rw [hmaterial] at hsign
            -- the HMAC is computed a second time
            cases hsign
            exact beq_self_eq_true _
        | rsa privateKeyPem publicKeyPem =>
            rw [hmaterial] at hsign
            dsimp only at hsign ⊢
            split at hsign
            · cases hsign
            · rename_i pem hpem
              obtain ⟨rfl, -⟩ := Option.filter_eq_some_iff.mp hpem
              obtain ⟨ref, -, hobject⟩ := Option.bind_eq_some_iff.mp hkey
              exact h.sound key (List.mem_of_getElem? hobject) pem publicKeyPem payload signature
                hmaterial hsign

theorem preserved_of_kept (h : p.Sane crypto) {p' : LocalKMSProvider} (hkept : Kept p p') :
    Preserved crypto p p' where
  revoked keyId hrevoked := by
    obtain ⟨key, hkey, hstatus⟩ := key?_of_getKeyStatus.mp hrevoked
    obtain ⟨key', hkey', hsucceeds⟩ := hkept keyId key hkey
    have hrevoked' := key?_of_getKeyStatus.mpr ⟨key', hkey', hsucceeds.revoked hstatus⟩
    exact ⟨hrevoked', revoked_silent hrevoked'⟩
  held keyId status hstatus := by
    obtain ⟨key, hkey, -⟩ := key?_of_getKeyStatus.mp hstatus
    obtain ⟨key', hkey', -⟩ := hkept keyId key hkey
    exact ⟨_, key?_of_getKeyStatus.mpr ⟨key', hkey', rfl⟩⟩
  verifying _ _ _ _ hsign hlive := verify_of_sign h hkept hsign hlive

theorem orderly_of_admissible (h : p.Sane crypto) {op : Operation} (hop : p.Admissible op) :
    p.Orderly crypto op := by
  cases op with
  | sign keyId payload algorithm => trivial
  | verify keyId payload signature algorithm => trivial
  | revokeKey keyId => trivial
  | listKeys =>
      intro keyId status hstatus
      obtain ⟨key, hkey, rfl⟩ := key?_of_getKeyStatus.mp hstatus
      obtain ⟨ref, hget, hobject⟩ := Option.bind_eq_some_iff.mp hkey
      exact key?_of_getKeyStatus.mpr ⟨key, Option.bind_eq_some_iff.mpr
        ⟨ref, h.loaded keyId ref hget (hop keyId ref hget), hobject⟩, rfl⟩
  | rotateKey keyId now newSecret =>
      intro key hrotated
      rcases p.rotateKey_cases keyId now newSecret with ⟨-, -, e, herror⟩ |
        ⟨ref, oldKey, hget, hobject, hrotate⟩
      · rw [herror] at hrotated
        cases hrotated
      · rw [hrotate] at hrotated
        cases hrotated
        have hkey : p.key? keyId = some oldKey := by rw [key?, hget, Option.bind_some, hobject]
        rcases hop with hnone | ⟨-, hfresh⟩
        · rw [hkey] at hnone
          cases hnone
        · show p.key? (rotatedKid keyId now) = none
          rw [key?, hfresh, Option.bind_none]

theorem sane_create {configured : List ProviderKey} (h : ∀ key ∈ configured, key.Sound crypto) :
    (create configured).Sane crypto := sane_refreshKeys (Nat.le_refl _) h

/-- **The life of the keys**, in every sequence of admissible calls: a revoked key stays revoked and
is of no use any more, no key leaves, what was signed verifies until its key is revoked, a rotation
returns a new kid, and a listing changes no status. -/
theorem keys_live {configured : List ProviderKey} (h : ∀ key ∈ configured, key.Sound crypto)
    {ops : List Operation} (hops : StepsMeet (step crypto) Admissible (create configured) ops) :
    (∀ ks js, ks ++ js <+: ops → Preserved crypto (run (step crypto) (create configured) ks)
      (run (step crypto) (create configured) (ks ++ js))) ∧
    StepsMeet (step crypto) (Orderly crypto) (create configured) ops := by
  have hrun {p : LocalKMSProvider} (hp : p.Sane crypto) {ks : List Operation}
      (hks : StepsMeet (step crypto) Admissible p ks) :
      (run (step crypto) p ks).Sane crypto ∧ Kept p (run (step crypto) p ks) :=
    run_related (I := Sane crypto) Kept.refl (fun _ _ _ => Kept.trans)
      (fun _ _ hsane hop => step_kept hsane hop) hp hks
  have hcreated := sane_create h
  constructor
  · intro ks js hprefix
    obtain ⟨hfirst, hsecond⟩ := (stepsMeet_append _ ks js).mp (hops.of_prefix hprefix)
    obtain ⟨hsane, -⟩ := hrun hcreated hfirst
    rw [run_append]
    exact preserved_of_kept hsane (hrun hsane hsecond).2
  · refine stepsMeet_iff_forall.mpr fun ks op hprefix => ?_
    obtain ⟨hfirst, hlast, -⟩ := (stepsMeet_append _ ks [op]).mp (hops.of_prefix hprefix)
    exact orderly_of_admissible (hrun hcreated hfirst).1 hlast

/-! ## One key -/

/-- A signature is the secret and the payload. -/
def plainCrypto : KmsCrypto := ⟨fun secret payload => utf8 secret ++ payload, fun _ _ => .error "",
  fun _ _ _ => false, fun _ => none⟩

def firstKey : ProviderKey := ⟨"k1", .hs256, .active, ["receipt"], false, .hmac "secret"⟩

theorem keys_live_rotated : Preserved plainCrypto (create [firstKey])
    (run (step plainCrypto) (create [firstKey]) [.rotateKey "k1" 5 "fresh", .revokeKey "k1"]) := by
  have hsound : ∀ key ∈ [firstKey], key.Sound plainCrypto := by
    intro key hkey privateKeyPem publicKeyPem payload signature hmaterial
    obtain rfl := List.mem_singleton.mp hkey
    cases hmaterial
  have hmeets : StepsMeet (step plainCrypto) Admissible (create [firstKey])
      [.rotateKey "k1" 5 "fresh", .revokeKey "k1"] :=
    ⟨.inr ⟨fun h => (by cases h), by decide⟩, trivial, trivial⟩
  exact (keys_live hsound hmeets).1 [] _ (List.prefix_refl _)

/-- A key that was revoked and is then rotated verifies again, and one that was rotated in is gone
after a listing. -/
theorem revokedKey_rotated :
    (run (step plainCrypto) (create [firstKey]) [.revokeKey "k1"]).getKeyStatus "k1" =
        .ok .revoked ∧
      (run (step plainCrypto) (create [firstKey]) [.revokeKey "k1", .rotateKey "k1" 5 "fresh"]).verify
        plainCrypto "k1" [] (utf8 "secret") .hs256 = true ∧
      (run (step plainCrypto) (create [firstKey]) [.rotateKey "k1" 5 "fresh"]).sign plainCrypto
        "k1-rotated-5" [] .hs256 = .ok (utf8 "fresh") ∧
      (run (step plainCrypto) (create [firstKey]) [.rotateKey "k1" 5 "fresh", .listKeys]).verify
        plainCrypto "k1-rotated-5" [] (utf8 "fresh") .hs256 = false := by
  refine ⟨rfl, by decide, rfl, by decide⟩

end LocalKMSProvider

end MapProtocol
