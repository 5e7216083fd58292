import MapProtocol.Lib.Latest
import MapProtocol.Lib.Transition
import MapProtocol.Security.Wire
import MapProtocol.Server.ControlCalls

/-!
# Revoked signing keys

A key is revoked by the environment or by an administrator at run time. What the server takes for
revoked is the list of the environment where there is one, and only else the keys revoked at run
time; and that list is compared with the key id a request claims, not with the one its signature
names. A request that claims a revoked key is rejected; one that claims another key is not.
-/

namespace MapProtocol

open Js Transition

structure MapVerificationKey where
  kid          : String
  alg          : SigningAlgorithm
  status       : KeyStatus
  scopes       : List String
  publicKeyPem : Option String
  deriving DecidableEq, Repr

def verificationKeyOf (key : SigningKey) : MapVerificationKey where
  kid := key.kid
  alg := key.alg
  status := key.status
  scopes := key.scopes
  publicKeyPem :=
    match key.material with
    | .hmac _             => none
    | .rsa _ publicKeyPem => some publicKeyPem

def SigningEnv.getVerificationKeys (env : SigningEnv) : Except String (List MapVerificationKey) :=
  env.getSigningKeys.map fun keys => keys.map verificationKeyOf

def ServerEnv.getEffectiveVerificationKeys (env : ServerEnv) (controls : RuntimeControls) :
    Except String (List MapVerificationKey) :=
  env.signing.getVerificationKeys.map fun keys => keys.map fun key =>
    if key.kid ∈ env.getEffectiveRevokedKeyIds controls then { key with status := .revoked } else key

/-! ## Control requests over time -/

/-- The controls, and what the control requests asked for that the server answered as done, the
latest first. -/
structure Governance where
  controls : RuntimeControls
  history  : List Control

/-- The requests that the controls in force stand for. -/
def RuntimeControls.inForce (controls : RuntimeControls) : List Control :=
  controls.disabledAgents.entries.map (fun agent => .disableAgent agent.1) ++
    (controls.disabledCapabilities.entries.flatMap fun agent =>
      agent.2.entries.map fun capability => .disableCapability agent.1 capability.1) ++
    controls.revokedSigningKeys.entries.map fun key => .revokeKey key.1

/-- A server starts with the controls that it finds in force. -/
def Governance.start (controls : RuntimeControls) : Governance := ⟨controls, controls.inForce⟩

/-- The latest request about the key revoked it. -/
def RevokedSince (keyId : String) (history : List Control) : Prop :=
  Latest (.revokeKey keyId) (.unrevokeKey keyId) history

/-- The keys revoked at run time are those whose latest request revoked them. -/
def Governance.Recorded (s : Governance) : Prop :=
  ∀ keyId, RevokedSince keyId s.history ↔ (s.controls.revokedSigningKeys.get keyId).isSome = true

def ControlPath.KeyPlain : ControlPath → Prop
  | .revokeKey key | .unrevokeKey key => ¬ key.IsDot
  | _                                 => True

namespace ServerEnv

variable (env : ServerEnv) (nonces : NonceCache)
variable {s : Governance} {control : Control} {keyId : String}

def govern (s : Governance) (call : ControlCall) : Governance :=
  match env.handleAdminRoutes nonces s.controls call.toCall with
  | some (.ok (.control _ _ _, after)) => ⟨after, call.path.asked.toList ++ s.history⟩
  | some (.ok (.refused _, after))     => ⟨after, s.history⟩
  | _                                  => s

variable {env nonces}

/-- A control request is carried out, or leaves everything as it was. -/
theorem govern_cases (s : Governance) (call : ControlCall) :
    env.govern nonces s call = s ∨
      ∃ control info path, env.normalizePath call.path.url = .ok path ∧
        call.path.route.control path = .ok control ∧
          env.govern nonces s call =
            ⟨control.apply info s.controls, call.path.asked.toList ++ s.history⟩ := by
  unfold govern
  rw [handleAdminRoutes_control]
  cases hrun : env.runControl nonces s.controls call.toCall call.path.route with
  | error error => exact .inl rfl
  | ok result =>
      obtain ⟨reply, after⟩ := result
      rcases runControl_cases hrun with ⟨error, rfl, rfl⟩ | ⟨control, info, path, rfl, -, hpath,
        hcontrol, rfl⟩
      · exact .inl rfl
      · exact .inr ⟨control, info, path, hpath, hcontrol, rfl⟩

/-- An admitted request with plain names is carried out. -/
theorem govern_admitted {s : Governance} {call : ControlCall} (hplain : call.path.Plain)
    (hadmitted : env.Admitted nonces s.controls call.toCall) {control : Control}
    (hdone : call.path.done = some control) : ∃ info,
    env.govern nonces s call =
      ⟨control.apply info s.controls, call.path.asked.toList ++ s.history⟩ := by
  obtain ⟨info, hrun⟩ := runControl_admitted hadmitted (normalizePath_plain hplain)
    (ControlPath.control_url.mpr hdone)
  refine ⟨info, ?_⟩
  unfold govern
  rw [handleAdminRoutes_control, hrun]

theorem recorded_start (controls : RuntimeControls) :
    Governance.Recorded (Governance.start controls) := by
  intro keyId
  have hnone : Control.unrevokeKey keyId ∉ controls.inForce := by simp [RuntimeControls.inForce]
  show Latest _ _ controls.inForce ↔ (controls.revokedSigningKeys.get keyId).isSome = true
  rw [Latest.iff_mem hnone, OrderedMap.isSome_get_iff]
  simp [RuntimeControls.inForce]

theorem recorded_key (hs : Governance.Recorded s)
    (hcontrol : control = .revokeKey keyId ∨ control = .unrevokeKey keyId) (info : ControlInfo) :
    Governance.Recorded ⟨control.apply info s.controls, control :: s.history⟩ := by
  intro k
  rcases hcontrol with rfl | rfl
  · show _ ↔ ((s.controls.revokedSigningKeys.set keyId info).get k).isSome = true
    rw [OrderedMap.get_set, RevokedSince, Latest, ← RevokedSince, hs k]
    by_cases heq : keyId = k
    · simp [heq]
    · simp [heq]
  · show _ ↔ ((s.controls.revokedSigningKeys.delete keyId).get k).isSome = true
    rw [OrderedMap.get_delete, RevokedSince, Latest, ← RevokedSince, hs k]
    by_cases heq : keyId = k
    · simp [heq]
    · simp [heq]

/-- Requests about agents and capabilities have no part in it. -/
theorem recorded_agent (hs : Governance.Recorded s) {agentId : String}
    (hcontrol : control = .disableAgent agentId ∨ control = .enableAgent agentId)
    (info : ControlInfo) {asked : List Control}
    (hasked : ∀ c ∈ asked, ∀ keyId, c ≠ .revokeKey keyId ∧ c ≠ .unrevokeKey keyId) :
    Governance.Recorded ⟨control.apply info s.controls, asked ++ s.history⟩ := by
  intro k
  have hkeys : (control.apply info s.controls).revokedSigningKeys = s.controls.revokedSigningKeys := by
    rcases hcontrol with rfl | rfl <;> rfl
  have hhistory : RevokedSince k (asked ++ s.history) ↔ RevokedSince k s.history :=
    Latest.append_others ⟨fun h => (hasked _ h k).1 rfl, fun h => (hasked _ h k).2 rfl⟩
  show RevokedSince k (asked ++ s.history) ↔ _
  rw [hhistory, hs k, hkeys]

theorem asked_agent {path : ControlPath}
    (h : path.route = .disableAgent ∨ path.route = .enableAgent) :
    ∀ c ∈ path.asked.toList, ∀ keyId, c ≠ .revokeKey keyId ∧ c ≠ .unrevokeKey keyId := by
  intro c hc keyId
  rw [Option.mem_toList] at hc
  cases path with
  | disableAgent agent | enableAgent agent =>
      obtain ⟨_, _, rfl⟩ := Option.map_eq_some_iff.mp hc
      exact ⟨Control.noConfusion, Control.noConfusion⟩
  | disableCapability agent capability | enableCapability agent capability =>
      simp only [ControlPath.asked, Option.bind_eq_bind, Option.bind_eq_some_iff] at hc
      obtain ⟨_, _, _, _, heq⟩ := hc
      cases heq
      exact ⟨Control.noConfusion, Control.noConfusion⟩
  | revokeKey key => rcases h with h | h <;> cases h
  | unrevokeKey key => rcases h with h | h <;> cases h

theorem recorded_govern (hs : Governance.Recorded s) {call : ControlCall}
    (hcall : call.path.KeyPlain) : Governance.Recorded (env.govern nonces s call) := by
  rcases govern_cases s call with hsame | ⟨control, info, path, hpath, hcontrol, hgovern⟩
  · rwa [hsame]
  · rw [hgovern]
    rcases call.path.route_cases with hagent | ⟨key, hkey⟩
    · obtain ⟨agentId, hkind⟩ := ControlRoute.control_agent hagent hcontrol
      exact recorded_agent hs hkind info (asked_agent hagent)
    · -- the path is about a key, and normalising leaves it as it is
      have hplain : call.path.Plain := by
        rcases hkey with hkey | hkey <;> rw [hkey] at hcall ⊢ <;>
          exact fun segment hsegment => List.mem_singleton.mp hsegment ▸ hcall
      obtain rfl : call.path.url = path := by
        rw [normalizePath_plain hplain] at hpath
        exact Except.ok.inj hpath
      have hdone := ControlPath.control_url.mp hcontrol
      have hasked : call.path.asked = some control := by
        rcases hkey with hkey | hkey <;> rw [hkey] at hdone ⊢ <;> exact hdone
      have hkind : ∃ keyId, control = .revokeKey keyId ∨ control = .unrevokeKey keyId := by
        rcases hkey with hkey | hkey <;> rw [hkey] at hdone <;>
          obtain ⟨keyId, _, rfl⟩ := Option.map_eq_some_iff.mp hdone
        · exact ⟨keyId, .inl rfl⟩
        · exact ⟨keyId, .inr rfl⟩
      obtain ⟨keyId, hkind⟩ := hkind
      rw [hasked]
      exact recorded_key hs hkind info

theorem recorded_run {s : Governance} (hs : Governance.Recorded s) {calls : List ControlCall}
    (hcalls : ∀ call ∈ calls, call.path.KeyPlain) :
    Governance.Recorded (run (env.govern nonces) s calls) := by
  induction calls generalizing s with
  | nil => exact hs
  | cons call calls ih =>
      exact ih (recorded_govern hs (hcalls call List.mem_cons_self))
        fun c hc => hcalls c (List.mem_cons_of_mem _ hc)

/-! ## What is enforced -/

/-- The environment lists no key as revoked. -/
def listsNone (env : ServerEnv) : Bool := env.signing.revokedKids.all isBlank

theorem effective_of_listsNone (h : env.listsNone = true) (controls : RuntimeControls) :
    env.getEffectiveRevokedKeyIds controls = controls.revokedSigningKeys.entries.map Prod.fst := by
  unfold getEffectiveRevokedKeyIds
  unfold listsNone at h
  cases hraw : env.signing.revokedKids with
  | none => rfl
  | some raw =>
      rw [hraw] at h
      have hblank : isBlank raw = true := h
      have hfilter : (some raw).filter (fun raw => !isBlank raw) = none := by simp [hblank]
      rw [hfilter]

theorem listed_effective (h : keyId ∈ env.signing.getRevokedKidsFromEnv)
    (controls : RuntimeControls) : keyId ∈ env.getEffectiveRevokedKeyIds controls := by
  unfold SigningEnv.getRevokedKidsFromEnv listedKids at h
  unfold getEffectiveRevokedKeyIds
  cases hraw : env.signing.revokedKids with
  | none =>
      rw [hraw] at h
      cases h
  | some raw =>
      rw [hraw] at h
      dsimp only at h
      split at h
      · cases h
      · rename_i hblank
        have hfilter : (some raw).filter (fun raw => !isBlank raw) = some raw := by simp [hblank]
        rw [hfilter]
        show keyId ∈ listedKids (some raw)
        unfold listedKids
        dsimp only
        rw [if_neg hblank]
        exact h

theorem effective_of_revokedSince (hs : s.Recorded) (h : RevokedSince keyId s.history)
    (hnone : env.listsNone = true) :
    keyId ∈ env.getEffectiveRevokedKeyIds s.controls := by
  rw [effective_of_listsNone hnone]
  exact OrderedMap.isSome_get_iff.mp ((hs keyId).mp h)

theorem reported_of_effective {controls : RuntimeControls}
    (h : keyId ∈ env.getEffectiveRevokedKeyIds controls) {keys : List MapVerificationKey}
    (hkeys : env.getEffectiveVerificationKeys controls = .ok keys) :
    ∀ key ∈ keys, key.kid = keyId → key.status = .revoked := by
  obtain ⟨configured, _, rfl⟩ := map_eq_ok.mp hkeys
  intro key hkey hkid
  obtain ⟨found, _, rfl⟩ := List.mem_map.mp hkey
  split at hkid
  · rename_i hin
    rw [if_pos hin]
  · rename_i hout
    exact absurd (hkid ▸ h) hout

/-- The signature of a request names the key. -/
def SignedWith (req : IncomingMessage) (keyId : String) : Prop :=
  ∃ signature, req.headers "x-map-request-signature" = some signature ∧
    Wire.getSignatureKeyId signature = some keyId

theorem key_of_authentic {r : SignedRequest} (h : env.Authentic r) : ∃ keys key,
    env.signing.getSigningKeys = .ok keys ∧ key ∈ keys ∧ key.status ≠ .revoked ∧
      Wire.getSignatureKeyId r.signature = some key.kid := by
  obtain ⟨config, hconfig, hverify⟩ := SigningEnv.verifyCompactSignature_iff.mp h
  obtain ⟨hkeys, -⟩ := SigningEnv.keys_of_signingConfig hconfig
  obtain ⟨key, hnamed, hfound, hlive, -⟩ := Wire.named_of_verify hverify
  exact ⟨config.keys, key, hkeys, List.mem_of_find?_eq_some hfound, hlive, hnamed⟩

/-- **Revocation is effective** for a key that the environment lists; and, where the environment
lists none, for a key that was revoked at run time, as far as requests go that claim such a key. -/
theorem revocation_effective (controls : RuntimeControls) {calls : List ControlCall}
    (hcalls : ∀ call ∈ calls, call.path.KeyPlain) {keyId : String}
    (hrevoked : keyId ∈ env.signing.getRevokedKidsFromEnv ∨ env.listsNone = true ∧
      RevokedSince keyId (run (env.govern nonces) (.start controls) calls).history) :
    (∀ keys, env.getEffectiveVerificationKeys
        (run (env.govern nonces) (.start controls) calls).controls = .ok keys →
      ∀ key ∈ keys, key.kid = keyId → key.status = .revoked) ∧
    ∀ seen now req rawBody, SignedWith req keyId →
      (keyId ∈ env.signing.getRevokedKidsFromEnv ∨
        ∃ claimed, req.headers "x-map-key-id" = some claimed ∧ RevokedSince claimed
          (run (env.govern nonces) (.start controls) calls).history) →
      (env.getSignedRequestError seen now req rawBody (env.getEffectiveRevokedKeyIds
        (run (env.govern nonces) (.start controls) calls).controls)).1 ≠ .ok none := by
  have hrecorded := @recorded_run env nonces _ (recorded_start controls) calls hcalls
  generalize run (env.govern nonces) (.start controls) calls = s at *
  constructor
  · intro keys hkeys
    refine reported_of_effective ?_ hkeys
    rcases hrevoked with hlisted | ⟨hnone, hsince⟩
    · exact listed_effective hlisted _
    · exact effective_of_revokedSince hrecorded hsince hnone
  · intro seen now req rawBody hsigned hclaim haccepted
    obtain ⟨r, hr, hlive, -, hauthentic⟩ := getSignedRequestError_iff.mp haccepted
    obtain ⟨-, hkeyId, -, hsignature, -⟩ := signedRequest_eq_some.mp hr
    obtain ⟨keys, key, hkeys, hkey, hstatus, hkid⟩ := key_of_authentic hauthentic
    obtain ⟨signature, hheader, hnamed⟩ := hsigned
    obtain rfl : signature = r.signature := Option.some.inj (hheader.symm.trans hsignature)
    obtain rfl : keyId = key.kid := Option.some.inj (hnamed.symm.trans hkid)
    rcases hrevoked with hlisted | ⟨hnone, -⟩
    · exact hstatus (SigningEnv.status_of_listed hkeys hkey hlisted)
    · rcases hclaim with hlisted | ⟨claimed, hclaimed, hsince⟩
      · exact hstatus (SigningEnv.status_of_listed hkeys hkey hlisted)
      · obtain rfl : claimed = r.payload.keyId := Option.some.inj (hclaimed.symm.trans hkeyId)
        exact hlive (effective_of_revokedSince hrecorded hsince hnone)

/-! ## A revoked key -/

def adminServer : ServerEnv := { sampleServer with adminToken := some "admin" }

def adminCall (path : ControlPath) (headers : MapSignedRequestHeaders) : ControlCall where
  path := path
  headers name := if name = "x-map-admin-token" then some "admin" else headers.lookup name
  body := .ok []
  now := 1709164800000

theorem fresh_adminServer : adminServer.Fresh 1709164800000 (toISOString 1709164800000) :=
  ⟨1709164800000, rfl, by decide, by decide +kernel⟩

/-- The request of the administrator is carried out. -/
theorem govern_adminCall {path : ControlPath} (hplain : path.Plain)
    (hdone : path.done = some control) : ∃ headers info,
      adminServer.govern .empty (.start noControls) (adminCall path headers) =
        ⟨control.apply info noControls, path.asked.toList⟩ := by
  obtain ⟨headers, hsign⟩ : ∃ headers, adminServer.signHttpRequest
      ⟨"POST", path.url, toISOString 1709164800000, "map-dev-key-1", ""⟩ "n1" = .ok headers :=
    sampleServer_signs _ _ _ _ _
  have hpath : pathname adminServer.foreignPath
      ((adminCall path headers).toCall.request.url.getD "/") = some path.url :=
    ControlPath.pathname_url hplain _
  have hcarried : adminServer.signedRequest (adminCall path headers).toCall.request "" = some _ :=
    signedRequest_of_sign hsign rfl rfl rfl rfl (requestPayload_of_pathname hpath _ _ _)
  obtain ⟨config, hconfig, hsound⟩ := sampleServer_config
  have hkid : isBlank "map-dev-key-1" = false := by decide
  have haccepted := (@getSignedRequestError_iff adminServer .empty 1709164800000
    (adminCall path headers).toCall.request "" []).mpr ⟨_, hcarried, by simp, fresh_adminServer,
      @authentic_of_sign adminServer config hconfig hsound _ hkid _ _ hsign⟩
  have hadmitted : adminServer.Admitted .empty noControls (adminCall path headers).toCall :=
    ⟨⟨"", .obj []⟩, rfl, getAdminTokenError_iff.mpr ⟨⟨"admin", rfl, by decide, rfl⟩, haccepted⟩⟩
  obtain ⟨info, hgovern⟩ :=
    @govern_admitted adminServer .empty (.start noControls) (adminCall path headers) hplain hadmitted
      _ hdone
  refine ⟨headers, info, hgovern.trans ?_⟩
  show Governance.mk _ (path.asked.toList ++ noControls.inForce) = _
  rw [show noControls.inForce = [] from rfl, List.append_nil]
  rfl

def devKeyPath : ControlPath := .revokeKey ⟨"map-dev-key-1".toList, List.all_eq_true.mp (by decide)⟩

def revokeDevKey (headers : MapSignedRequestHeaders) : ControlCall := adminCall devKeyPath headers

theorem devKeyPath_plain : devKeyPath.Plain := by
  intro segment hsegment
  obtain rfl := List.mem_singleton.mp hsegment
  unfold Segment.IsDot
  decide

theorem revokeDevKey_done : ∃ headers,
    (run (adminServer.govern .empty) (.start noControls) [revokeDevKey headers]).history =
      [.revokeKey "map-dev-key-1"] := by
  have hname : devKeyPath.done = some (.revokeKey "map-dev-key-1") := by
    have hdecode := decodeURIComponent_encodeURIComponent "map-dev-key-1"
    rw [show encodeURIComponent "map-dev-key-1" = "map-dev-key-1" by decide] at hdecode
    exact congrArg (Option.map Control.revokeKey) hdecode
  have hasked : devKeyPath.asked = some (.revokeKey "map-dev-key-1") := hname
  obtain ⟨headers, info, hgovern⟩ := govern_adminCall devKeyPath_plain hname
  refine ⟨headers, ?_⟩
  show (adminServer.govern .empty (.start noControls) (adminCall devKeyPath headers)).history = _
  rw [hgovern, hasked]
  rfl

theorem keyPlain_devKey {headers : MapSignedRequestHeaders} :
    ∀ call ∈ [revokeDevKey headers], call.path.KeyPlain := by
  intro call hcall
  obtain rfl := List.mem_singleton.mp hcall
  exact devKeyPath_plain _ (List.mem_singleton.mpr rfl)

theorem revocation_effective_devKey : ∃ headers,
    ∀ keys, adminServer.getEffectiveVerificationKeys
        (run (adminServer.govern .empty) (.start noControls) [revokeDevKey headers]).controls =
          .ok keys →
      ∀ key ∈ keys, key.kid = "map-dev-key-1" → key.status = .revoked := by
  obtain ⟨headers, hdone⟩ := revokeDevKey_done
  have hsince : RevokedSince "map-dev-key-1"
      (run (adminServer.govern .empty) (.start noControls) [revokeDevKey headers]).history := by
    rw [hdone]
    exact .inl rfl
  exact ⟨headers, (revocation_effective noControls keyPlain_devKey (.inr ⟨rfl, hsince⟩)).1⟩

/-- A request that is signed with the revoked key and claims another one is accepted. -/
theorem revokedKey_accepted : ∃ headers req,
    RevokedSince "map-dev-key-1"
        (run (adminServer.govern .empty) (.start noControls) [revokeDevKey headers]).history ∧
      SignedWith req "map-dev-key-1" ∧
        (adminServer.getSignedRequestError .empty 1709164800000 req ""
          (adminServer.getEffectiveRevokedKeyIds
            (run (adminServer.govern .empty) (.start noControls)
              [revokeDevKey headers]).controls)).1 = .ok none := by
  obtain ⟨headers, hdone⟩ := revokeDevKey_done
  have hrecorded := @recorded_run adminServer .empty _ (recorded_start noControls)
    [revokeDevKey headers] keyPlain_devKey
  obtain ⟨signature, hsign⟩ : ∃ signature, adminServer.signing.createCompactSignature
      adminServer.crypto (signedRequestPayload ⟨"POST", "/dispatch", toISOString 1709164800000,
        "other", ""⟩) (some "map-dev-key-1") (some .httpRequest) = .ok signature := ⟨_, rfl⟩
  obtain ⟨config, hconfig, hsound⟩ := sampleServer_config
  have hauthentic : adminServer.Authentic
      ⟨⟨"POST", "/dispatch", toISOString 1709164800000, "other", ""⟩, signature⟩ :=
    SigningEnv.verify_of_createCompactSignature hconfig hsound (by decide) hsign
  have hpath : pathname adminServer.foreignPath "/dispatch" = some "/dispatch" := by decide
  refine ⟨headers, (⟨"signed_request", "other", toISOString 1709164800000, signature, ""⟩ :
    MapSignedRequestHeaders).post "/dispatch", ?_⟩
  generalize run (adminServer.govern .empty) (.start noControls) [revokeDevKey headers] = s at *
  have hother : "other" ∉ adminServer.getEffectiveRevokedKeyIds s.controls := by
    intro hin
    rw [@effective_of_listsNone adminServer rfl] at hin
    have hsince := (hrecorded "other").mpr (OrderedMap.isSome_get_iff.mpr hin)
    rw [hdone] at hsince
    rcases hsince with heq | ⟨_, hnone⟩
    · exact absurd heq (by decide)
    · exact hnone
  refine ⟨?_, ⟨signature, rfl, ?_⟩, ?_⟩
  · rw [hdone]
    exact .inl rfl
  · obtain ⟨keys, key, hkeys, hkey, -, hkid⟩ := key_of_authentic hauthentic
    obtain rfl := Except.ok.inj hkeys
    obtain rfl := List.mem_singleton.mp hkey
    exact hkid
  · exact getSignedRequestError_iff.mpr ⟨_, signedRequest_eq_some.mpr ⟨rfl, rfl, rfl, rfl,
      requestPayload_of_pathname hpath _ _ _⟩, hother, fresh_adminServer, hauthentic⟩

end ServerEnv

end MapProtocol
