import MapProtocol.Lib.Transition
import MapProtocol.Server.RuntimeState

/-!
# The server is restarted

The operations of the server change its runtime state; a restart writes the state to the files and
reads it back. A state that operations lead to survives a restart exactly if it can be stored
(`restart_survives_iff`): each part of it that is not empty has a file, nothing is disabled or revoked
under the empty name, no alert has an empty id, and the tenant `__proto__` has no call in the window.
-/

namespace MapProtocol

open Js SlidingWindow Transition

variable {now : Int} {times : List Int}

/-- What the state of a server is kept with: the paths of its files, its limits and its audit log. -/
structure RuntimeEnv where
  runtimeControlStorePath : Option String
  alertStorePath          : Option String
  limits                  : RateLimiterOptions
  audit                   : AuditEnv
  parseDate               : String → Option Int

structure AllRuntimeState where
  controls         : RuntimeControls
  limiter          : RateLimiter
  alertState       : AlertState
  auditEvents      : List AuditEvent
  auditCheckpoints : List AuditCheckpoint

structure StateFiles where
  runtimeControls : JsonFile
  rateLimits      : JsonFile
  alerts          : JsonFile
  audit           : JsonFile

def freshState : AllRuntimeState := ⟨noControls, ⟨[], .empty⟩, .empty, [], []⟩

inductive RuntimeOperation where
  | control (control : Control) (info : ControlInfo)
  | mutation (call : MutationCall)
  | readAlerts (candidates : List AlertCandidate) (tenantId : Option String) (now : Nat)
  | acknowledgeAlert (id actor : String) (now : Nat)
  | suppressAlert (id : String) (durationMs : Int) (actor : Option String) (now : Nat)
  | auditEvent (event : AuditRecord) (createdAt : String)
  | restart (now : Int) (files : StateFiles)

namespace RuntimeEnv

variable (env : RuntimeEnv)

/-- `persistAllState`, over the files as they were. -/
def persistAllState (now : Int) (s : AllRuntimeState) (files : StateFiles) : StateFiles where
  runtimeControls :=
    persistRuntimeControls env.runtimeControlStorePath s.controls files.runtimeControls
  rateLimits := env.limits.rateLimitFile now s.limiter files.rateLimits
  alerts := persistAlertState env.alertStorePath s.alertState files.alerts
  audit := persistAuditEvents env.audit.auditStorePath s.auditEvents s.auditCheckpoints files.audit

def hydrateAllState (now : Int) (files : StateFiles) : AllRuntimeState :=
  let audit := hydrateAuditEvents env.audit.auditStorePath env.audit.auditMaxEvents files.audit
  { controls := hydrateRuntimeControls env.runtimeControlStorePath files.runtimeControls
    limiter := env.limits.hydrateRateLimitState now files.rateLimits
    alertState := hydrateAlertState env.alertStorePath files.alerts
    auditEvents := audit.1
    auditCheckpoints := audit.2 }

/-- The state after a restart at the time `now`. -/
def restarted (now : Int) (files : StateFiles) (s : AllRuntimeState) : AllRuntimeState :=
  env.hydrateAllState now (env.persistAllState now s files)

def operate (s : AllRuntimeState) : RuntimeOperation → AllRuntimeState
  | .control control info               => { s with controls := control.apply info s.controls }
  | .mutation call                      =>
      { s with limiter := (env.limits.checkMutationRateLimit s.limiter call).2 }
  | .readAlerts candidates tenantId now =>
      { s with
        alertState := (s.alertState.getActiveAlerts env.parseDate candidates tenantId now).1 }
  | .acknowledgeAlert id actor now      =>
      { s with alertState := s.alertState.acknowledgeAlert id actor now }
  | .suppressAlert id durationMs actor now =>
      { s with alertState := s.alertState.suppressAlert id durationMs actor now }
  | .auditEvent event createdAt         =>
      let audit := (env.audit.recordAuditEvent event createdAt
        ⟨s.auditEvents, s.auditCheckpoints, none⟩).2
      { s with
        auditEvents := audit.auditEvents
        auditCheckpoints := audit.auditCheckpoints }
  | .restart now files                  => env.restarted now files s

/-- `s'` is the state `s`, as far as the server at the time `now` can tell. -/
structure Survives (now : Int) (s s' : AllRuntimeState) : Prop where
  agents       : ∀ agentId,
    s'.controls.disabledAgents.get agentId = s.controls.disabledAgents.get agentId
  capabilities : ∀ agentId capability,
    s'.controls.capability agentId capability = s.controls.capability agentId capability
  keys         : ∀ keyId,
    s'.controls.revokedSigningKeys.get keyId = s.controls.revokedSigningKeys.get keyId
  global       : prune env.limits.rateLimitWindowMs now s'.limiter.globalRateLimitEvents =
    prune env.limits.rateLimitWindowMs now s.limiter.globalRateLimitEvents
  tenants      : ∀ tenantId,
    prune env.limits.rateLimitWindowMs now (s'.limiter.tenantEvents tenantId) =
      prune env.limits.rateLimitWindowMs now (s.limiter.tenantEvents tenantId)
  alerts       : s'.alertState = s.alertState
  events       : s'.auditEvents = s.auditEvents
  checkpoints  : s'.auditCheckpoints = s.auditCheckpoints
  verification : env.audit.verifyAuditIntegrity s'.auditEvents s'.auditCheckpoints =
    env.audit.verifyAuditIntegrity s.auditEvents s.auditCheckpoints

/-- Nothing is disabled or revoked, but under names that are empty if there is a file. -/
def ControlsStorable (controls : RuntimeControls) : Prop :=
  if hasPath env.runtimeControlStorePath then
    controls.disabledAgents.get "" = none ∧
      (∀ agentId capability, agentId = "" ∨ capability = "" →
        controls.capability agentId capability = none) ∧
      controls.revokedSigningKeys.get "" = none
  else
    (∀ agentId, controls.disabledAgents.get agentId = none) ∧
      (∀ agentId capability, controls.capability agentId capability = none) ∧
      ∀ keyId, controls.revokedSigningKeys.get keyId = none

def LimitsStorable (now : Int) (limiter : RateLimiter) : Prop :=
  if hasPath env.limits.rateLimitStatePath then
    prune env.limits.rateLimitWindowMs now (limiter.tenantEvents "__proto__") = []
  else
    prune env.limits.rateLimitWindowMs now limiter.globalRateLimitEvents = [] ∧
      ∀ tenantId, prune env.limits.rateLimitWindowMs now (limiter.tenantEvents tenantId) = []

def AlertsStorable (alertState : AlertState) : Prop :=
  if hasPath env.alertStorePath then alertState.get "" = none else alertState = .empty

def AuditStorable (events : List AuditEvent) (checkpoints : List AuditCheckpoint) : Prop :=
  hasPath env.audit.auditStorePath = true ∨ events = [] ∧ checkpoints = []

/-- Every part of the state that is not empty has a file, and no key of it is lost there. -/
structure Storable (now : Int) (s : AllRuntimeState) : Prop where
  controls : env.ControlsStorable s.controls
  limits   : env.LimitsStorable now s.limiter
  alerts   : env.AlertsStorable s.alertState
  audit    : env.AuditStorable s.auditEvents s.auditCheckpoints

/-- What holds of every state that operations lead to. -/
structure Formed (s : AllRuntimeState) : Prop where
  sorted  : s.limiter.Sorted
  keyed   : s.alertState.Keyed
  bounded : s.auditEvents.length ≤ env.audit.auditMaxEvents

variable {env}

/-! ## Part by part -/

theorem forall_unless_empty {ν : Type} {get get' : String → Option ν}
    (h : ∀ key, get' key = if key = "" then none else get key) :
    (∀ key, get' key = get key) ↔ get "" = none := by
  constructor
  · intro hsame
    have hempty := h ""
    rw [if_pos rfl, hsame ""] at hempty
    exact hempty
  · intro hempty key
    rw [h key]
    split
    · rename_i hkey
      rw [hkey, hempty]
    · rfl

theorem controls_survive_iff (controls : RuntimeControls) (file : JsonFile) :
    ((∀ agentId, (hydrateRuntimeControls env.runtimeControlStorePath
        (persistRuntimeControls env.runtimeControlStorePath controls file)).disabledAgents.get agentId =
          controls.disabledAgents.get agentId) ∧
      (∀ agentId capability, (hydrateRuntimeControls env.runtimeControlStorePath
        (persistRuntimeControls env.runtimeControlStorePath controls file)).capability agentId
          capability = controls.capability agentId capability) ∧
      ∀ keyId, (hydrateRuntimeControls env.runtimeControlStorePath
        (persistRuntimeControls env.runtimeControlStorePath controls file)).revokedSigningKeys.get
          keyId = controls.revokedSigningKeys.get keyId) ↔ env.ControlsStorable controls := by
  unfold ControlsStorable
  by_cases hpath : hasPath env.runtimeControlStorePath = true
  · obtain ⟨hagents, hcapabilities, hkeys⟩ := hydrate_persist_controls hpath controls file
    rw [if_pos hpath]
    refine and_congr (forall_unless_empty hagents) (and_congr ?_ (forall_unless_empty hkeys))
    constructor
    · intro hsame agentId capability hempty
      rw [← hsame, hcapabilities, if_pos hempty]
    · intro hnone agentId capability
      rw [hcapabilities]
      split
      · rename_i hempty
        exact (hnone agentId capability hempty).symm
      · rfl
  · rw [if_neg hpath, hydrate_controls_of_noPath (Bool.eq_false_iff.mpr hpath)]
    exact and_congr (forall_congr' fun _ => eq_comm)
      (and_congr (forall_congr' fun _ => forall_congr' fun _ => eq_comm)
        (forall_congr' fun _ => eq_comm))

theorem limits_survive_iff {limiter : RateLimiter} (hsorted : limiter.Sorted) (now : Int)
    (file : JsonFile) :
    (prune env.limits.rateLimitWindowMs now (env.limits.hydrateRateLimitState now
        (env.limits.rateLimitFile now limiter file)).globalRateLimitEvents =
          prune env.limits.rateLimitWindowMs now limiter.globalRateLimitEvents ∧
      ∀ tenantId, prune env.limits.rateLimitWindowMs now ((env.limits.hydrateRateLimitState now
        (env.limits.rateLimitFile now limiter file)).tenantEvents tenantId) =
          prune env.limits.rateLimitWindowMs now (limiter.tenantEvents tenantId)) ↔
      env.LimitsStorable now limiter := by
  unfold LimitsStorable
  by_cases hpath : hasPath env.limits.rateLimitStatePath = true
  · obtain ⟨hglobal, htenants⟩ :=
      RateLimiterOptions.hydrate_persist_limits hpath hsorted now file
    rw [if_pos hpath]
    constructor
    · rintro ⟨-, hsame⟩
      -- a member named `__proto__` is not written
      rw [← hsame "__proto__", htenants, if_pos rfl]
      rfl
    · intro hproto
      refine ⟨by rw [hglobal, prune_idem], fun tenantId => ?_⟩
      rw [htenants]
      split
      · rename_i htenant
        rw [htenant, hproto]
        rfl
      · exact prune_idem _
  · rw [if_neg hpath, RateLimiterOptions.hydrate_limits_of_noPath (Bool.eq_false_iff.mpr hpath)]
    exact and_congr eq_comm (forall_congr' fun _ => eq_comm)

theorem alerts_survive_iff {alertState : AlertState} (hkeyed : alertState.Keyed) (file : JsonFile) :
    hydrateAlertState env.alertStorePath (persistAlertState env.alertStorePath alertState file) =
      alertState ↔ env.AlertsStorable alertState := by
  unfold AlertsStorable
  by_cases hpath : hasPath env.alertStorePath = true
  · rw [if_pos hpath]
    exact hydrate_persist_alerts hpath hkeyed file
  · rw [if_neg hpath, hydrate_alerts_of_noPath (Bool.eq_false_iff.mpr hpath)]
    exact eq_comm

theorem audit_survives_iff {events : List AuditEvent}
    (hbounded : events.length ≤ env.audit.auditMaxEvents) (checkpoints : List AuditCheckpoint)
    (file : JsonFile) :
    hydrateAuditEvents env.audit.auditStorePath env.audit.auditMaxEvents
      (persistAuditEvents env.audit.auditStorePath events checkpoints file) = (events, checkpoints) ↔
        env.AuditStorable events checkpoints := by
  unfold AuditStorable
  by_cases hpath : hasPath env.audit.auditStorePath = true
  · exact iff_of_true (hydrate_persist_auditEvents hpath hbounded checkpoints file) (.inl hpath)
  · rw [hydrate_audit_of_noPath (Bool.eq_false_iff.mpr hpath), or_iff_right hpath, Prod.mk.injEq]
    exact and_congr eq_comm eq_comm

/-- **What survives a restart.** -/
theorem survives_iff {s : AllRuntimeState} (hformed : env.Formed s) (now : Int) (files : StateFiles) :
    env.Survives now s (env.restarted now files s) ↔ env.Storable now s := by
  have hcontrols := @controls_survive_iff env s.controls files.runtimeControls
  have hlimits := @limits_survive_iff env _ hformed.sorted now files.rateLimits
  have halerts := @alerts_survive_iff env _ hformed.keyed files.alerts
  have haudit := @audit_survives_iff env _ hformed.bounded s.auditCheckpoints files.audit
  constructor
  · intro h
    exact ⟨hcontrols.mp ⟨h.agents, h.capabilities, h.keys⟩, hlimits.mp ⟨h.global, h.tenants⟩,
      halerts.mp h.alerts, haudit.mp (Prod.ext h.events h.checkpoints)⟩
  · intro h
    obtain ⟨hagents, hcapabilities, hkeys⟩ := hcontrols.mpr h.controls
    obtain ⟨hglobal, htenants⟩ := hlimits.mpr h.limits
    have hevents := haudit.mpr h.audit
    have hfirst : (env.restarted now files s).auditEvents = s.auditEvents := congrArg Prod.fst hevents
    have hsecond : (env.restarted now files s).auditCheckpoints = s.auditCheckpoints :=
      congrArg Prod.snd hevents
    exact ⟨hagents, hcapabilities, hkeys, hglobal, htenants, halerts.mpr h.alerts, hfirst, hsecond,
      by rw [hfirst, hsecond]⟩

end RuntimeEnv

/-! ## Operations -/

/-- Times in order, none of them after `now`. -/
def TimesInOrder (now : Int) (times : List Int) : Prop :=
  times.Pairwise (· ≤ ·) ∧ ∀ t ∈ times, t ≤ now

theorem TimesInOrder.sublist {times times' : List Int} (h : TimesInOrder now times)
    (hsub : times'.Sublist times) : TimesInOrder now times' :=
  ⟨h.1.sublist hsub, fun t ht => h.2 t (hsub.subset ht)⟩

theorem TimesInOrder.prune (h : TimesInOrder now times) (width now' : Int) :
    TimesInOrder now (SlidingWindow.prune width now' times) :=
  h.sublist (List.dropWhile_sublist _)

theorem TimesInOrder.append_now (h : TimesInOrder now times) :
    TimesInOrder now (times ++ [now]) := by
  constructor
  · rw [List.pairwise_append]
    refine ⟨h.1, List.pairwise_singleton _ _, fun t ht t' ht' => ?_⟩
    rw [List.mem_singleton.mp ht']
    exact h.2 t ht
  · intro t ht
    rcases List.mem_append.mp ht with ht | ht
    · exact h.2 t ht
    · exact Int.le_of_eq (List.mem_singleton.mp ht)

/-- The times of each window are in order, none of them after `now`. -/
structure RateLimiter.InOrder (now : Int) (s : RateLimiter) : Prop where
  global  : TimesInOrder now s.globalRateLimitEvents
  tenants : ∀ tenantId, TimesInOrder now (s.tenantEvents tenantId)

namespace RateLimiterOptions

variable {opts : RateLimiterOptions}

theorem inOrder_slot {now : Int} {times : List Int} (h : TimesInOrder now times) (limit : Option Nat) :
    TimesInOrder now (opts.consumeRateLimitSlot now times limit).events := by
  unfold consumeRateLimitSlot
  split
  · exact h
  · dsimp only
    split
    · exact h.prune _ _
    · exact (h.prune _ _).append_now

theorem inOrder_persistIf {now : Int} {s : RateLimiter} (h : s.InOrder now) (persists : Bool) :
    (opts.persistIf persists now s).InOrder now := by
  unfold persistIf persistRateLimitState
  split
  · split
    · exact h
    · refine ⟨h.global.prune _ _, fun tenantId => ?_⟩
      have htenant := (h.tenants tenantId).prune opts.rateLimitWindowMs now
      unfold RateLimiter.tenantEvents at htenant ⊢
      rw [OrderedMap.get_mapValues]
      cases hget : s.tenantRateLimitEvents.get tenantId with
      | none =>
          rw [hget] at htenant
          exact htenant
      | some times =>
          rw [hget] at htenant
          exact htenant
  · exact h

theorem inOrder_checkTenantLimit {s : RateLimiter} {call : MutationCall} (h : s.InOrder call.now) :
    (opts.checkTenantLimit s call).2.InOrder call.now := by
  unfold checkTenantLimit
  split
  · rename_i tenantId limit _ _
    dsimp only
    have hslot := @inOrder_slot opts _ _ (h.tenants tenantId) (some limit)
    have hpersisted := @inOrder_persistIf opts _ _ h (opts.consumeRateLimitSlot call.now
      ((s.tenantRateLimitEvents.get tenantId).getD []) (some limit)).persists
    refine ⟨hpersisted.global, fun t => ?_⟩
    rw [tenantEvents_set]
    split
    · exact hslot
    · exact hpersisted.tenants t
  · exact h

theorem inOrder_check {s : RateLimiter} {call : MutationCall} (h : s.InOrder call.now) :
    (opts.checkMutationRateLimit s call).2.InOrder call.now := by
  have hglobal := @inOrder_persistIf opts call.now
    { s with globalRateLimitEvents := (opts.consumeRateLimitSlot call.now
      s.globalRateLimitEvents opts.rateLimitMaxRequests).events }
    ⟨inOrder_slot h.global opts.rateLimitMaxRequests, h.tenants⟩
    (opts.consumeRateLimitSlot call.now s.globalRateLimitEvents opts.rateLimitMaxRequests).persists
  unfold checkMutationRateLimit
  dsimp only
  split
  · exact hglobal
  · exact inOrder_checkTenantLimit hglobal

end RateLimiterOptions

namespace AlertState

variable {state : AlertState}

theorem Keyed.set (h : state.Keyed) {id : String} {alert : AlertRecord} (halert : alert.id = id) :
    Keyed (OrderedMap.set state id alert) := by
  intro key a hget
  rw [OrderedMap.get_set] at hget
  split at hget
  · rename_i hkey
    cases hget
    exact halert.trans hkey
  · exact h key a hget

theorem keyed_refresh (h : state.Keyed) (candidates : List AlertCandidate)
    (tenantId : Option String) (nowIso : String) :
    (state.refresh candidates tenantId nowIso).Keyed := by
  have hseen : ∀ (cs : List AlertCandidate) (m : AlertState), m.Keyed →
      (cs.foldl (seen nowIso) m).Keyed := by
    intro cs
    induction cs with
    | nil => exact fun _ hm => hm
    | cons c cs ih =>
        intro m hm
        refine ih _ ?_
        unfold seen
        split
        · exact hm.set rfl
        · exact hm.set rfl
  -- the records that are marked keep their ids
  have hmarked : ∀ (es : List (String × AlertRecord)) (m : AlertState),
      (∀ e ∈ es, e.2.id = e.1) → m.Keyed →
        (es.foldl (marked tenantId (candidates.map (·.id)) nowIso) m).Keyed := by
    intro es
    induction es with
    | nil => exact fun _ _ hm => hm
    | cons e es ih =>
        intro m hes hm
        obtain ⟨he, hrest⟩ := List.forall_mem_cons.mp hes
        refine ih _ hrest ?_
        unfold marked
        split
        · exact hm.set he
        · exact hm
  have hfirst := hseen candidates state h
  exact hmarked _ _ (fun e he => hfirst e.1 e.2 (OrderedMap.get_eq_some.mpr he)) hfirst

theorem keyed_acknowledgeAlert (h : state.Keyed) (id actor : String) (now : Nat) :
    (state.acknowledgeAlert id actor now).Keyed := by
  unfold acknowledgeAlert
  split
  · exact h
  · rename_i existing hget
    exact h.set (h id existing hget)

theorem keyed_suppressAlert (h : state.Keyed) (id : String) (durationMs : Int)
    (actor : Option String) (now : Nat) : (state.suppressAlert id durationMs actor now).Keyed := by
  unfold suppressAlert
  split
  · exact h
  · rename_i existing hget
    exact h.set (h id existing hget)

theorem keyed_hydrateAlertState (path : Option String) (file : JsonFile) :
    (hydrateAlertState path file).Keyed := by
  have hstored : ∀ (alerts : List AlertRecord) (m : AlertState), m.Keyed →
      (alerts.foldl storeAlert m).Keyed := by
    intro alerts
    induction alerts with
    | nil => exact fun _ hm => hm
    | cons a alerts ih =>
        intro m hm
        refine ih _ ?_
        unfold storeAlert
        split
        · exact hm
        · exact hm.set rfl
  unfold hydrateAlertState
  split
  · exact fun _ _ h => nomatch h
  · exact hstored _ _ fun _ _ h => nomatch h

end AlertState

theorem length_lastOf_le {α : Type} (n : Nat) (l : List α) : (lastOf n l).length ≤ n := by
  unfold lastOf
  rw [List.length_drop]
  omega

theorem length_hydrateAuditEvents_le (path : Option String) (max : Nat) (file : JsonFile) :
    (hydrateAuditEvents path max file).1.length ≤ max := by
  unfold hydrateAuditEvents
  split
  · exact Nat.zero_le _
  · dsimp only
    refine (List.length_filterMap_le _ _).trans ?_
    rw [List.length_drop]
    omega

namespace RuntimeEnv

variable {env : RuntimeEnv}

/-- A call does not come before one that is in a window. -/
def InTime (s : AllRuntimeState) : RuntimeOperation → Prop
  | .mutation call => (∀ t ∈ s.limiter.globalRateLimitEvents, t ≤ call.now) ∧
      ∀ tenantId, ∀ t ∈ s.limiter.tenantEvents tenantId, t ≤ call.now
  | _              => True

theorem sorted_hydrated {s : AllRuntimeState} (h : s.limiter.Sorted) (now : Int) (files : StateFiles) :
    (env.restarted now files s).limiter.Sorted := by
  show (env.limits.hydrateRateLimitState now (env.limits.rateLimitFile now s.limiter _)).Sorted
  by_cases hpath : hasPath env.limits.rateLimitStatePath = true
  · obtain ⟨hglobal, htenants⟩ :=
      RateLimiterOptions.hydrate_persist_limits hpath h now files.rateLimits
    refine ⟨?_, fun tenantId => ?_⟩
    · rw [hglobal]
      exact h.global.sublist (List.dropWhile_sublist _)
    · rw [htenants]
      split
      · exact List.Pairwise.nil
      · exact (h.tenants tenantId).sublist (List.dropWhile_sublist _)
  · rw [RateLimiterOptions.hydrate_limits_of_noPath (Bool.eq_false_iff.mpr hpath)]
    exact ⟨List.Pairwise.nil, fun _ => List.Pairwise.nil⟩

theorem formed_operate {s : AllRuntimeState} {operation : RuntimeOperation} (h : env.Formed s)
    (htime : InTime s operation) : env.Formed (env.operate s operation) := by
  cases operation with
  | control control info => exact ⟨h.sorted, h.keyed, h.bounded⟩
  | mutation call =>
      have horder := @RateLimiterOptions.inOrder_check env.limits s.limiter call
        ⟨⟨h.sorted.global, htime.1⟩, fun tenantId => ⟨h.sorted.tenants tenantId,
          htime.2 tenantId⟩⟩
      exact ⟨⟨horder.global.1, fun tenantId => (horder.tenants tenantId).1⟩, h.keyed, h.bounded⟩
  | readAlerts candidates tenantId now =>
      exact ⟨h.sorted, AlertState.keyed_refresh h.keyed _ _ _, h.bounded⟩
  | acknowledgeAlert id actor now =>
      exact ⟨h.sorted, AlertState.keyed_acknowledgeAlert h.keyed _ _ _, h.bounded⟩
  | suppressAlert id durationMs actor now =>
      exact ⟨h.sorted, AlertState.keyed_suppressAlert h.keyed _ _ _ _, h.bounded⟩
  | auditEvent event createdAt =>
      refine ⟨h.sorted, h.keyed, ?_⟩
      show (env.audit.recordAuditEvent event createdAt _).2.auditEvents.length ≤ _
      unfold AuditEnv.recordAuditEvent
      dsimp only
      split
      · exact length_lastOf_le _ _
      · exact length_lastOf_le _ _
  | restart now files =>
      exact ⟨sorted_hydrated h.sorted now files, AlertState.keyed_hydrateAlertState _ _,
        length_hydrateAuditEvents_le _ _ _⟩

variable (env) in
theorem formed_fresh : env.Formed freshState where
  sorted := ⟨List.Pairwise.nil, fun _ => List.Pairwise.nil⟩
  keyed := fun _ _ h => nomatch h
  bounded := Nat.zero_le _

/-- **What of a reachable state survives a restart.** -/
theorem restart_survives_iff (env : RuntimeEnv) {operations : List RuntimeOperation}
    (htime : StepsMeet env.operate InTime freshState operations) (now : Int) (files : StateFiles) :
    env.Survives now (run env.operate freshState operations)
        (env.restarted now files (run env.operate freshState operations)) ↔
      env.Storable now (run env.operate freshState operations) :=
  survives_iff (run_invariant (fun _ _ h ht => formed_operate h ht) (formed_fresh env) htime) now files

def filedEnv : RuntimeEnv where
  runtimeControlStorePath := some "controls.json"
  alertStorePath := some "alerts.json"
  limits := ⟨some "limits.json", 60000, none, some 10⟩
  audit := ⟨⟨some "audit.json", 1000, 100⟩, fun text => text, SigningConfig.openConfig []⟩
  parseDate := fun _ => none

/-- The files of a server that has not written any. -/
def noFiles : StateFiles := ⟨none, none, none, none⟩

def disableAndCall (agentId tenantId : String) : List RuntimeOperation :=
  [.control (.disableAgent agentId) ⟨"1970-01-01T00:00:01.000Z", "admin", none⟩,
    .mutation ⟨1000, some tenantId⟩]

theorem inTime_disableAndCall (agentId tenantId : String) :
    StepsMeet filedEnv.operate InTime freshState (disableAndCall agentId tenantId) :=
  ⟨trivial, ⟨(fun _ h => nomatch h), fun _ _ h => nomatch h⟩, trivial⟩

theorem restart_survives_filed : filedEnv.Survives 2000
    (run filedEnv.operate freshState (disableAndCall "a1" "t1"))
    (filedEnv.restarted 2000 noFiles (run filedEnv.operate freshState (disableAndCall "a1" "t1"))) :=
  (restart_survives_iff filedEnv (inTime_disableAndCall "a1" "t1") 2000 noFiles).mpr
    ⟨⟨rfl, fun _ _ _ => rfl, rfl⟩, rfl, rfl, .inl rfl⟩

/-- An agent whose id is empty is enabled again, and a tenant named `__proto__` has its slots again. -/
theorem restart_loses :
    (¬ filedEnv.Survives 2000 (run filedEnv.operate freshState (disableAndCall "" "t1"))
      (filedEnv.restarted 2000 noFiles
        (run filedEnv.operate freshState (disableAndCall "" "t1")))) ∧
    ¬ filedEnv.Survives 2000 (run filedEnv.operate freshState (disableAndCall "a1" "__proto__"))
      (filedEnv.restarted 2000 noFiles
        (run filedEnv.operate freshState (disableAndCall "a1" "__proto__"))) := by
  have hformed : ∀ agentId tenantId,
      filedEnv.Formed (run filedEnv.operate freshState (disableAndCall agentId tenantId)) :=
    fun agentId tenantId => run_invariant (fun _ _ h ht => formed_operate h ht)
      (formed_fresh filedEnv) (inTime_disableAndCall agentId tenantId)
  constructor
  · intro h
    obtain ⟨hagents, -, -⟩ := ((survives_iff (hformed _ _) 2000 noFiles).mp h).controls
    cases hagents
  · intro h
    have hlimits : prune 60000 2000 [1000] = [] :=
      ((survives_iff (hformed _ _) 2000 noFiles).mp h).limits
    exact absurd hlimits (by decide)

end RuntimeEnv

end MapProtocol
