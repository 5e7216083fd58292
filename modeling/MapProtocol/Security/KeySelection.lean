import MapProtocol.Security.KeyCompromise

/-!
# Which key signs

Without a requested kid, `createCompactSignature` signs with the key that `MAP_SIGNING_ACTIVE_KID`
names, or with the first key where that names none or a revoked one. The scopes and the algorithm of
the key are looked at only once it has been chosen, and its status only for being revoked: a retiring
key signs, and a key without the scope fails, though an active key could have signed
(`selectsWell_iff`).
-/

namespace MapProtocol

open Js

namespace SigningConfig

variable (config : SigningConfig) (scope : SignatureScope)

/-- An active key that has the scope, of an algorithm that the profile allows. -/
structure Eligible (key : SigningKey) : Prop where
  configured : key ∈ config.keys
  active     : key.status = .active
  inScope    : scope.text ∈ key.scopes
  allowed    : key.alg ∈ getAllowedAlgorithms config.profile

/-- Signing for a scope uses no revoked key, no key without the scope, and no retiring key where an
eligible one exists; and it succeeds where one does. -/
structure SelectsWell : Prop where
  used     : ∀ payload signature key,
    config.createCompactSignature payload none (some scope) = .ok signature →
    config.authorizedKey none (some scope) = .ok key →
      key.status ≠ .revoked ∧ scope.text ∈ key.scopes ∧
        (key.status = .retiring → ¬ ∃ other, config.Eligible scope other)
  succeeds : (∃ key, config.Eligible scope key) →
    ∀ payload, ∃ signature, config.createCompactSignature payload none (some scope) = .ok signature

/-- The key that the active kid names. -/
def namedKey : Option SigningKey :=
  match config.activeKid with
  | some kid => if isBlank kid then none else config.getSigningKeyByKid (trim kid)
  | none     => none

/-- The key is eligible and has what it takes to sign. -/
def CanServe (key : SigningKey) : Prop :=
  config.Eligible scope key ∧ ∃ sign, config.signer key = .ok sign

/-- The key that comes first can serve: the one that the active kid names, where that is not revoked,
and else the first in order that is not. -/
def FirstServes : Prop :=
  match config.namedKey.filter SigningKey.signable with
  | some key => config.CanServe scope key
  | none     => ∃ before key after, config.keys = before ++ key :: after ∧
      (∀ k ∈ before, k.status = .revoked) ∧ config.CanServe scope key

variable {config scope}

theorem signable_iff {key : SigningKey} : key.signable = true ↔ key.status ≠ .revoked := by
  simp [SigningKey.signable]

theorem getActiveSigningKey_eq :
    config.getActiveSigningKey =
      match (config.namedKey.filter SigningKey.signable).or (config.keys.find? SigningKey.signable) with
      | some key => .ok key
      | none     => .error "No active signing key available (all keys are revoked)." := by
  have hnamed : (match config.activeKid with
      | some activeKid =>
          if isBlank activeKid then none
          else (config.getSigningKeyByKid (trim activeKid)).filter SigningKey.signable
      | none => none) = config.namedKey.filter SigningKey.signable := by
    unfold namedKey
    cases config.activeKid with
    | none     => rfl
    | some kid => by_cases hblank : isBlank kid = true <;> simp [hblank]
  rw [← hnamed]
  rfl

theorem status_of_getActiveSigningKey {key : SigningKey} (h : config.getActiveSigningKey = .ok key) :
    key.status ≠ .revoked := by
  rw [getActiveSigningKey_eq] at h
  split at h
  · rename_i found hfound
    obtain rfl := Except.ok.inj h
    rcases Option.or_eq_some_iff.mp hfound with hnamed | ⟨_, hfirst⟩
    · exact signable_iff.mp (Option.filter_eq_some_iff.mp hnamed).2
    · exact signable_iff.mp (List.find?_some hfirst)
  · cases h

/-- **What signing asks of the key** that it starts from. -/
theorem authorizedKey_for_scope {key : SigningKey} :
    config.authorizedKey none (some scope) = .ok key ↔
      config.getActiveSigningKey = .ok key ∧ scope.text ∈ key.scopes ∧
        key.alg ∈ getAllowedAlgorithms config.profile := by
  rw [authorizedKey_iff]
  constructor
  · rintro ⟨hfound, _, hrest⟩
    exact ⟨hfound, hrest⟩
  · rintro ⟨hfound, hrest⟩
    exact ⟨hfound, status_of_getActiveSigningKey hfound, hrest⟩

theorem createCompactSignature_ok_iff {payload : JsObject} :
    (∃ signature, config.createCompactSignature payload none (some scope) = .ok signature) ↔
      ∃ key, config.authorizedKey none (some scope) = .ok key ∧
        ∃ sign, config.signer key = .ok sign := by
  unfold createCompactSignature createCompactSignatureFromCanonical
  simp only [bind_eq_ok, pure_eq_ok]
  constructor
  · rintro ⟨_, key, hkey, sign, hsign, _⟩
    exact ⟨key, hkey, sign, hsign⟩
  · rintro ⟨key, hkey, sign, hsign⟩
    exact ⟨_, key, hkey, sign, hsign, rfl⟩

/-- The key that comes first is the key that signing starts from. -/
theorem firstServes_iff :
    config.FirstServes scope ↔
      ∃ key, config.getActiveSigningKey = .ok key ∧ config.CanServe scope key := by
  unfold FirstServes
  rw [getActiveSigningKey_eq]
  cases hnamed : config.namedKey.filter SigningKey.signable with
  | some key => simp
  | none     =>
      simp only [Option.none_or]
      constructor
      · rintro ⟨before, key, after, hkeys, hrevoked, hserves⟩
        refine ⟨key, ?_, hserves⟩
        have hfirst : config.keys.find? SigningKey.signable = some key := by
          rw [List.find?_eq_some_iff_append]
          refine ⟨signable_iff.mpr ?_, before, after, hkeys, fun k hk => ?_⟩
          · rw [hserves.1.active]
            decide
          · simp [SigningKey.signable, hrevoked k hk]
        rw [hfirst]
      · rintro ⟨key, hkey, hserves⟩
        split at hkey
        · rename_i found hfound
          obtain rfl := Except.ok.inj hkey
          obtain ⟨_, before, after, hkeys, hbefore⟩ := List.find?_eq_some_iff_append.mp hfound
          refine ⟨before, found, after, hkeys, fun k hk => ?_, hserves⟩
          have := hbefore k hk
          simpa [SigningKey.signable] using this
        · cases hkey

/-- **When the right key is selected**: where no active key has the scope and an allowed algorithm, or
the key that comes first can serve. -/
theorem selectsWell_iff :
    config.SelectsWell scope ↔ ((∃ key, config.Eligible scope key) → config.FirstServes scope) := by
  constructor
  · intro h heligible
    obtain ⟨signature, hsignature⟩ := h.succeeds heligible []
    obtain ⟨key, hkey, sign, hsign⟩ := createCompactSignature_ok_iff.mp ⟨signature, hsignature⟩
    obtain ⟨hlive, hscope, hretiring⟩ := h.used [] signature key hsignature hkey
    obtain ⟨hactive, _, halg⟩ := authorizedKey_for_scope.mp hkey
    have hstatus : key.status = .active := by
      cases hstatus : key.status with
      | active   => rfl
      | retiring => exact absurd heligible (hretiring hstatus)
      | revoked  => exact absurd hstatus hlive
    exact firstServes_iff.mpr
      ⟨key, hactive, ⟨mem_of_getActiveSigningKey hactive, hstatus, hscope, halg⟩, sign, hsign⟩
  · intro h
    refine ⟨fun payload signature key _ hkey => ?_, fun heligible payload => ?_⟩
    · obtain ⟨hactive, hscope, _⟩ := authorizedKey_for_scope.mp hkey
      refine ⟨status_of_getActiveSigningKey hactive, hscope, fun hretiring heligible => ?_⟩
      obtain ⟨first, hfirst, hserves⟩ := firstServes_iff.mp (h heligible)
      obtain rfl := Except.ok.inj (hfirst.symm.trans hactive)
      have hactive' := hserves.1.active
      rw [hretiring] at hactive'
      cases hactive'
    · obtain ⟨first, hfirst, heligible, sign, hsign⟩ := firstServes_iff.mp (h heligible)
      refine createCompactSignature_ok_iff.mpr ⟨first, ?_, sign, hsign⟩
      exact authorizedKey_for_scope.mpr ⟨hfirst, heligible.inScope, heligible.allowed⟩

end SigningConfig

namespace SigningEnv

/-- **The keys of the environment**: signing selects the right key exactly where, with the keys that the
environment gives, the one that comes first can serve or none is eligible. -/
theorem signing_selects_iff (env : SigningEnv) (crypto : Crypto) (scope : SignatureScope) :
    (∀ config, env.signingConfig crypto = .ok config → config.SelectsWell scope) ↔
      ∀ config, env.signingConfig crypto = .ok config →
        (∃ key, config.Eligible scope key) → config.FirstServes scope :=
  forall₂_congr fun _ _ => SigningConfig.selectsWell_iff

/-- A retiring key that comes before the one that replaces it. -/
def rotatedEnv : SigningEnv :=
  { sampleSigningEnv with
    signingKeys := some ("[\x7b\"kid\":\"old\",\"secret\":\"s1\",\"status\":\"retiring\"\x7d," ++
      "\x7b\"kid\":\"new\",\"secret\":\"s2\"\x7d]") }

def rotatedConfig : SigningConfig :=
  SigningConfig.openConfig
    [⟨"old", .retiring, DEFAULT_SCOPES, .hmac "s1"⟩, ⟨"new", .active, DEFAULT_SCOPES, .hmac "s2"⟩]

theorem signingConfig_rotatedEnv :
    rotatedEnv.signingConfig SigningConfig.quotingCrypto = .ok rotatedConfig := by
  have hkeys : (rotatedEnv.getSigningKeyConfigsFromProvider.filterMap signingKeyOfRecord) =
      rotatedConfig.keys := by decide +kernel
  have hread : rotatedEnv.getSigningKeys = .ok rotatedConfig.keys := by
    unfold getSigningKeys
    rw [hkeys]
    rfl
  unfold signingConfig
  rw [hread]
  rfl

/-- The retiring key signs. -/
theorem retiring_key_signs : ¬ ∀ config,
    rotatedEnv.signingConfig SigningConfig.quotingCrypto = .ok config →
      config.SelectsWell .receipt := by
  intro h
  obtain ⟨_, _, hretiring⟩ := (h _ signingConfig_rotatedEnv).used [] _ _ rfl rfl
  refine hretiring rfl ⟨⟨"new", .active, DEFAULT_SCOPES, .hmac "s2"⟩, ?_, rfl, ?_, ?_⟩ <;> decide

end SigningEnv

end MapProtocol
