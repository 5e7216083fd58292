import MapProtocol.Server.AuditManager
import MapProtocol.Server.StoredMaps

/-!
# The state of the server, in memory and in its files

`persistAllState` writes the runtime controls, the rate limits, the alerts and the audit log each to
its file, if it has one, and `hydrateAllState` reads them back. What comes back is what was there,
except at the keys that `StoredMaps` loses (`survives_iff`): the agent, the capability and the key id
that are the empty text, and the events of the tenant `__proto__`.
-/

namespace MapProtocol

open Js SlidingWindow

variable {path : Option String} {state : AlertState}

/-! ## Runtime controls -/

/-- A control, under the property names that its map has for its time and its actor. -/
def controlToJs (atName byName : String) (info : ControlInfo) : JsValue :=
  .obj [(atName, .str info.since), (byName, .str info.actor), ("reason", .ofString? info.reason)]

/-- The control at a key that is not empty. -/
def controlOfJs (atName byName : String) (key : String) (v : JsValue) : Option ControlInfo :=
  if key = "" ∨ v.truthy = false then none
  else do
    let since ← (v.property atName).asString
    let actor ← (v.property byName).asString
    return ⟨since, actor, (v.property "reason").asString⟩

/-- The disabled capabilities of an agent whose id is not empty; a map that is empty is dropped. -/
def capabilitiesOfJs (key : String) (v : JsValue) : Option (OrderedMap String ControlInfo) :=
  match v with
  | .obj es =>
      let nested := hydrateMap (controlOfJs "disabled_at" "disabled_by") es
      if key = "" ∨ nested.entries.isEmpty then none else some nested
  | _ => none

def capabilitiesToJs (capabilities : OrderedMap String ControlInfo) : JsValue :=
  .obj (mapToJs (controlToJs "disabled_at" "disabled_by") capabilities)

/-- `Object.entries(v[key] ?? {})`. -/
def membersOf (v : JsValue) (key : String) : JsObject :=
  match v.property key with
  | .obj es => es
  | _       => []

def persistRuntimeControls (path : Option String) (controls : RuntimeControls) (file : JsonFile) :
    JsonFile :=
  if hasPath path then
    writeJSON (.obj
      [("disabled_agents",
        .obj (mapToJs (controlToJs "disabled_at" "disabled_by") controls.disabledAgents)),
      ("disabled_capabilities", .obj (mapToJs capabilitiesToJs controls.disabledCapabilities)),
      ("revoked_keys",
        .obj (mapToJs (controlToJs "revoked_at" "revoked_by") controls.revokedSigningKeys))])
  else file

def hydrateRuntimeControls (path : Option String) (file : JsonFile) : RuntimeControls :=
  match if hasPath path then file else none with
  | none        => noControls
  | some parsed =>
      { disabledAgents :=
          hydrateMap (controlOfJs "disabled_at" "disabled_by") (membersOf parsed "disabled_agents")
        disabledCapabilities :=
          hydrateMap capabilitiesOfJs (membersOf parsed "disabled_capabilities")
        revokedSigningKeys :=
          hydrateMap (controlOfJs "revoked_at" "revoked_by") (membersOf parsed "revoked_keys") }

/-- Why a capability of an agent is disabled, if it is. -/
def RuntimeControls.capability (controls : RuntimeControls) (agentId capability : String) :
    Option ControlInfo :=
  (controls.disabledCapabilities.get agentId).bind fun capabilities => capabilities.get capability

theorem controlOfJs_disabled (info : ControlInfo) (key : String) :
    (jsonCopy? (controlToJs "disabled_at" "disabled_by" info)).bind
      (controlOfJs "disabled_at" "disabled_by" key) = if key = "" then none else some info := by
  obtain ⟨since, actor, reason⟩ := info
  by_cases hkey : key = ""
  · subst hkey
    cases reason <;> rfl
  · rw [if_neg hkey]
    cases reason <;> exact (if_neg (not_or.mpr ⟨hkey, Bool.noConfusion⟩)).trans rfl

theorem controlOfJs_revoked (info : ControlInfo) (key : String) :
    (jsonCopy? (controlToJs "revoked_at" "revoked_by" info)).bind
      (controlOfJs "revoked_at" "revoked_by" key) = if key = "" then none else some info := by
  obtain ⟨since, actor, reason⟩ := info
  by_cases hkey : key = ""
  · subst hkey
    cases reason <;> rfl
  · rw [if_neg hkey]
    cases reason <;> exact (if_neg (not_or.mpr ⟨hkey, Bool.noConfusion⟩)).trans rfl

/-- What comes back at a key of a map whose values come back unless the key is empty. -/
theorem bind_unless_empty {ν : Type} (o : Option ν) (key : String) :
    (o.bind fun v => if key = "" then none else some v) = if key = "" then none else o := by
  cases o <;> split <;> rfl

theorem get_disabled (m : OrderedMap String ControlInfo) (key : String) :
    (hydrateMap (controlOfJs "disabled_at" "disabled_by")
      (jsonCopyMembers (mapToJs (controlToJs "disabled_at" "disabled_by") m))).get key =
        if key = "" then none else m.get key := by
  rw [get_hydrate_mapToJs, ← bind_unless_empty]
  simp only [controlOfJs_disabled]

theorem get_revoked (m : OrderedMap String ControlInfo) (key : String) :
    (hydrateMap (controlOfJs "revoked_at" "revoked_by")
      (jsonCopyMembers (mapToJs (controlToJs "revoked_at" "revoked_by") m))).get key =
        if key = "" then none else m.get key := by
  rw [get_hydrate_mapToJs, ← bind_unless_empty]
  simp only [controlOfJs_revoked]

theorem get_of_isEmpty {ν : Type} {m : OrderedMap String ν} (h : m.entries.isEmpty = true)
    (key : String) : m.get key = none := by
  show OrderedMap.getEntries key m.entries = none
  rw [List.isEmpty_iff.mp h]
  rfl

theorem capability_hydrated (m : OrderedMap String (OrderedMap String ControlInfo))
    (agentId capability : String) :
    ((hydrateMap capabilitiesOfJs (jsonCopyMembers (mapToJs capabilitiesToJs m))).get agentId).bind
      (fun capabilities => capabilities.get capability) =
        if agentId = "" ∨ capability = "" then none
        else (m.get agentId).bind fun capabilities => capabilities.get capability := by
  rw [get_hydrate_mapToJs]
  cases m.get agentId with
  | none => simp
  | some capabilities =>
      have hnested := get_disabled capabilities capability
      show ((if agentId = "" ∨ _ then none else some _ : Option _).bind _) = _
      by_cases hagent : agentId = ""
      · simp [hagent]
      · simp only [hagent, false_or, Option.bind_some]
        rw [← hnested]
        split
        · rename_i hempty
          exact (get_of_isEmpty hempty capability).symm
        · rfl

/-- **The controls that come back**: those at keys that are not empty. -/
theorem hydrate_persist_controls (hpath : hasPath path = true) (controls : RuntimeControls)
    (file : JsonFile) :
    (∀ agentId, (hydrateRuntimeControls path (persistRuntimeControls path controls file)
        ).disabledAgents.get agentId =
      if agentId = "" then none else controls.disabledAgents.get agentId) ∧
    (∀ agentId capability,
      (hydrateRuntimeControls path (persistRuntimeControls path controls file)).capability agentId
        capability = if agentId = "" ∨ capability = "" then none
          else controls.capability agentId capability) ∧
    ∀ keyId, (hydrateRuntimeControls path (persistRuntimeControls path controls file)
        ).revokedSigningKeys.get keyId =
      if keyId = "" then none else controls.revokedSigningKeys.get keyId := by
  unfold hydrateRuntimeControls persistRuntimeControls
  rw [if_pos hpath, if_pos hpath]
  exact ⟨get_disabled _, capability_hydrated _, get_revoked _⟩

theorem hydrate_controls_of_noPath (hpath : hasPath path = false) (file : JsonFile) :
    hydrateRuntimeControls path file = noControls := by
  unfold hydrateRuntimeControls
  rw [if_neg (by simp [hpath])]

/-! ## Rate limits -/

def timesToJs (times : List Int) : JsValue := .arr (times.map fun t : Int => .num (t : Rat))

/-- The times of an array that are still in the window. -/
def youngTimes (width now : Int) (v : JsValue) : List Int :=
  match v with
  | .arr xs =>
      (xs.filterMap fun x => x.asNumber.map fun n => n.num).filter fun t => decide (now - t ≤ width)
  | _ => []

/-- The times of a tenant; a tenant without any is passed over. -/
def tenantTimesOfJs (width now : Int) (_ : String) (v : JsValue) : Option (List Int) :=
  if (youngTimes width now v).isEmpty then none else some (youngTimes width now v)

namespace RateLimiterOptions

variable (opts : RateLimiterOptions)

/-- The file that `persistRateLimitState` writes. Assigned to `__proto__`, the times of a tenant become
the prototype of the object. -/
def rateLimitFile (now : Int) (s : RateLimiter) (file : JsonFile) : JsonFile :=
  if hasPath opts.rateLimitStatePath then
    let kept := opts.persistRateLimitState now s
    writeJSON (.obj [("global", timesToJs kept.globalRateLimitEvents),
      ("tenants", .obj (mapToJs timesToJs
        ((kept.tenantRateLimitEvents.delete "__proto__").filter fun times => !times.isEmpty)))])
  else file

def hydrateRateLimitState (now : Int) (file : JsonFile) : RateLimiter :=
  match if hasPath opts.rateLimitStatePath then file else none with
  | none        => ⟨[], .empty⟩
  | some parsed =>
      { globalRateLimitEvents := youngTimes opts.rateLimitWindowMs now (parsed.property "global")
        tenantRateLimitEvents :=
          hydrateMap (tenantTimesOfJs opts.rateLimitWindowMs now) (membersOf parsed "tenants") }

end RateLimiterOptions

/-- The times of each window are in order. -/
structure RateLimiter.Sorted (s : RateLimiter) : Prop where
  global  : s.globalRateLimitEvents.Pairwise (· ≤ ·)
  tenants : ∀ tenantId, (s.tenantEvents tenantId).Pairwise (· ≤ ·)

theorem youngTimes_prune {width now : Int} {times : List Int} (h : times.Pairwise (· ≤ ·)) :
    (jsonCopy? (timesToJs (prune width now times))).map (youngTimes width now) =
      some (prune width now times) := by
  have hread : (jsonCopyElements ((prune width now times).map fun t : Int =>
      JsValue.num (t : Rat))).filterMap (fun x => x.asNumber.map fun n => n.num) =
        prune width now times :=
    filterMap_jsonCopyElements (fun t => by simp [jsonCopy?, JsValue.asNumber]) _
  show some ((List.filterMap _ (jsonCopyElements _)).filter _) = _
  rw [hread, filter_young_prune h]

namespace RateLimiterOptions

variable {opts : RateLimiterOptions}

theorem persistRateLimitState_eq (hpath : hasPath opts.rateLimitStatePath = true) (now : Int)
    (s : RateLimiter) : opts.persistRateLimitState now s =
      ⟨prune opts.rateLimitWindowMs now s.globalRateLimitEvents,
        s.tenantRateLimitEvents.mapValues (prune opts.rateLimitWindowMs now)⟩ := by
  unfold persistRateLimitState
  obtain ⟨path, hsome⟩ := Option.isSome_iff_exists.mp hpath
  rw [hsome]

/-- **The rate limits that come back**: what is in the windows, except that of `__proto__`. -/
theorem hydrate_persist_limits (hpath : hasPath opts.rateLimitStatePath = true) {s : RateLimiter}
    (hsorted : s.Sorted) (now : Int) (file : JsonFile) :
    (opts.hydrateRateLimitState now (opts.rateLimitFile now s file)).globalRateLimitEvents =
        prune opts.rateLimitWindowMs now s.globalRateLimitEvents ∧
      ∀ tenantId,
        (opts.hydrateRateLimitState now (opts.rateLimitFile now s file)).tenantEvents tenantId =
          if tenantId = "__proto__" then []
          else prune opts.rateLimitWindowMs now (s.tenantEvents tenantId) := by
  unfold hydrateRateLimitState rateLimitFile
  rw [if_pos hpath, if_pos hpath, persistRateLimitState_eq hpath]
  refine ⟨?_, fun tenantId => ?_⟩
  · have hglobal := @youngTimes_prune opts.rateLimitWindowMs now _ hsorted.global
    exact Option.some.inj hglobal
  · have htenant := @youngTimes_prune opts.rateLimitWindowMs now _
      (hsorted.tenants tenantId)
    show (OrderedMap.get (hydrateMap (tenantTimesOfJs _ _) (jsonCopyMembers (mapToJs timesToJs
      (((s.tenantRateLimitEvents.mapValues _).delete "__proto__").filter _)))) tenantId).getD [] = _
    rw [get_hydrate_mapToJs, OrderedMap.get_filter, OrderedMap.get_delete, OrderedMap.get_mapValues]
    unfold RateLimiter.tenantEvents at htenant ⊢
    by_cases hproto : tenantId = "__proto__"
    · simp [hproto]
    · rw [if_neg (Ne.symm hproto), if_neg hproto]
      cases hget : s.tenantRateLimitEvents.get tenantId with
      | none => rfl
      | some times =>
          rw [hget, Option.getD_some] at htenant
          rw [Option.map_some, Option.getD_some]
          obtain ⟨copy, hcopy, hyoung⟩ := Option.map_eq_some_iff.mp htenant
          cases hpruned : prune opts.rateLimitWindowMs now times with
          | nil => rfl
          | cons t ts =>
              rw [hpruned] at hcopy hyoung
              rw [Option.filter_some, if_pos (by simp), Option.bind_some, hcopy, Option.bind_some]
              unfold tenantTimesOfJs
              rw [hyoung]
              rfl

theorem hydrate_limits_of_noPath (hpath : hasPath opts.rateLimitStatePath = false) (now : Int)
    (file : JsonFile) : opts.hydrateRateLimitState now file = ⟨[], .empty⟩ := by
  unfold hydrateRateLimitState
  rw [if_neg (by simp [hpath])]

end RateLimiterOptions

/-! ## Alerts -/

def AlertSource.text : AlertSource → String
  | .queue    => "queue"
  | .requests => "requests"
  | .signing  => "signing"
  | .slo      => "slo"

def AlertSource.ofText (s : String) : Option AlertSource :=
  [AlertSource.queue, .requests, .signing, .slo].find? fun source => source.text == s

def AlertSeverity.text : AlertSeverity → String
  | .warning  => "warning"
  | .critical => "critical"

def AlertSeverity.ofText (s : String) : Option AlertSeverity :=
  [AlertSeverity.warning, .critical].find? fun severity => severity.text == s

def numberOrMissing : Option Rat → JsValue
  | some n => .num n
  | none   => .undefined

def AlertRecord.toJs (a : AlertRecord) : JsValue :=
  .obj [("id", .str a.id), ("source", .str a.source.text), ("code", .str a.code),
    ("severity", .str a.severity.text), ("message", .str a.message),
    ("recommended_action", .str a.recommendedAction), ("first_seen", .str a.firstSeen),
    ("last_seen", .str a.lastSeen), ("acknowledged_at", .ofString? a.acknowledgedAt),
    ("acknowledged_by", .ofString? a.acknowledgedBy),
    ("suppressed_until", .ofString? a.suppressedUntil),
    ("suppressed_by", .ofString? a.suppressedBy), ("tenant_id", .ofString? a.tenantId),
    ("slo_name", .ofString? a.sloName),
    ("budget_remaining_percent", numberOrMissing a.budgetRemainingPercent)]

/-- A stored alert. The file holds only what the server wrote. -/
def AlertRecord.ofJs (v : JsValue) : Option AlertRecord := do
  let id ← (v.property "id").asString
  let source ← (v.property "source").asString.bind AlertSource.ofText
  let code ← (v.property "code").asString
  let severity ← (v.property "severity").asString.bind AlertSeverity.ofText
  let message ← (v.property "message").asString
  let recommendedAction ← (v.property "recommended_action").asString
  let firstSeen ← (v.property "first_seen").asString
  let lastSeen ← (v.property "last_seen").asString
  return ⟨⟨id, source, code, severity, message, recommendedAction,
    (v.property "tenant_id").asString, (v.property "slo_name").asString,
    (v.property "budget_remaining_percent").asNumber⟩, firstSeen, lastSeen,
    (v.property "acknowledged_at").asString, (v.property "acknowledged_by").asString,
    (v.property "suppressed_until").asString, (v.property "suppressed_by").asString⟩

def persistAlertState (path : Option String) (state : AlertState) (file : JsonFile) : JsonFile :=
  if hasPath path then writeJSON (.obj [("alerts", .arr (state.values.map AlertRecord.toJs))])
  else file

/-- An alert without an id is passed over. -/
def storeAlert (state : AlertState) (alert : AlertRecord) : AlertState :=
  if alert.id = "" then state else state.set alert.id alert

def hydrateAlertState (path : Option String) (file : JsonFile) : AlertState :=
  match if hasPath path then file else none with
  | none        => .empty
  | some parsed =>
      ((elementsOf parsed "alerts").filterMap AlertRecord.ofJs).foldl storeAlert .empty

/-- Each alert is stored at its id. -/
def AlertState.Keyed (state : AlertState) : Prop := ∀ id alert, state.get id = some alert → alert.id = id

theorem property_copy {es : JsObject} (h : (es.map Prod.fst).Nodup) {key : String}
    (hkey : key ∉ JsValue.objectPrototype) {v : JsValue} (hv : OrderedMap.getEntries key es = some v) :
    (JsValue.obj (jsonCopyMembers es)).property key = (jsonCopy? v).getD .undefined := by
  rw [JsValue.property_obj hkey]
  show (OrderedMap.getEntries key (jsonCopyMembers es)).getD .undefined = _
  rw [getEntries_jsonCopyMembers key h, hv, Option.bind_some]

/-- **A stored alert is read back.** -/
theorem AlertRecord.ofJs_toJs (a : AlertRecord) : (jsonCopy? a.toJs).bind ofJs = some a := by
  obtain ⟨⟨id, source, code, severity, message, recommendedAction, tenantId, sloName, budget⟩,
    firstSeen, lastSeen, acknowledgedAt, acknowledgedBy, suppressedUntil, suppressedBy⟩ := a
  unfold toJs
  generalize hes : [("id", JsValue.str id), _, _, _, _, _, _, _, _, _, _, _, _, _, _] = es
  have hnodup : (es.map Prod.fst).Nodup := by
    rw [← hes]
    exact (by decide : ["id", "source", "code", "severity", "message", "recommended_action",
      "first_seen", "last_seen", "acknowledged_at", "acknowledged_by", "suppressed_until",
      "suppressed_by", "tenant_id", "slo_name", "budget_remaining_percent"].Nodup)
  have htext : ∀ key s, key ∉ JsValue.objectPrototype →
      OrderedMap.getEntries key es = some (.str s) →
        ((JsValue.obj (jsonCopyMembers es)).property key).asString = some s := by
    intro key s hkey hs
    rw [property_copy hnodup hkey hs]
    rfl
  have hoption : ∀ key o, key ∉ JsValue.objectPrototype →
      OrderedMap.getEntries key es = some (.ofString? o) →
        ((JsValue.obj (jsonCopyMembers es)).property key).asString = o := by
    intro key o hkey ho
    rw [property_copy hnodup hkey ho]
    cases o <;> rfl
  have hbudget : ((JsValue.obj (jsonCopyMembers es)).property
      "budget_remaining_percent").asNumber = budget := by
    rw [property_copy hnodup (v := numberOrMissing budget) (by decide) (by rw [← hes]; rfl)]
    cases budget <;> rfl
  show ofJs (.obj (jsonCopyMembers es)) = _
  unfold ofJs
  rw [htext "id" id (by decide) (by rw [← hes]; rfl),
    htext "source" source.text (by decide) (by rw [← hes]; rfl),
    htext "code" code (by decide) (by rw [← hes]; rfl),
    htext "severity" severity.text (by decide) (by rw [← hes]; rfl),
    htext "message" message (by decide) (by rw [← hes]; rfl),
    htext "recommended_action" recommendedAction (by decide) (by rw [← hes]; rfl),
    htext "first_seen" firstSeen (by decide) (by rw [← hes]; rfl),
    htext "last_seen" lastSeen (by decide) (by rw [← hes]; rfl),
    hoption "acknowledged_at" acknowledgedAt (by decide) (by rw [← hes]; rfl),
    hoption "acknowledged_by" acknowledgedBy (by decide) (by rw [← hes]; rfl),
    hoption "suppressed_until" suppressedUntil (by decide) (by rw [← hes]; rfl),
    hoption "suppressed_by" suppressedBy (by decide) (by rw [← hes]; rfl),
    hoption "tenant_id" tenantId (by decide) (by rw [← hes]; rfl),
    hoption "slo_name" sloName (by decide) (by rw [← hes]; rfl), hbudget]
  cases source <;> cases severity <;> rfl

/-- Storing alerts in order at ids that are new gives them back in order. -/
theorem foldl_storeAlert {alerts : List AlertRecord} (hids : ∀ a ∈ alerts, a.id ≠ "")
    (hnodup : (alerts.map fun a => a.id).Nodup) (hnew : ∀ a ∈ alerts, state.get a.id = none) :
    (alerts.foldl storeAlert state).entries =
      state.entries ++ alerts.map fun a => (a.id, a) := by
  induction alerts generalizing state with
  | nil => simp
  | cons a alerts ih =>
      obtain ⟨ha, halerts⟩ := List.forall_mem_cons.mp hids
      obtain ⟨hfirst, hrest⟩ := List.nodup_cons.mp hnodup
      obtain ⟨hnewa, hnewrest⟩ := List.forall_mem_cons.mp hnew
      have hstore : storeAlert state a = state.set a.id a := if_neg ha
      have hlast : (state.set a.id a).entries = state.entries ++ [(a.id, a)] :=
        OrderedMap.setEntries_of_get_none hnewa
      rw [List.foldl_cons, hstore, ih halerts hrest, hlast]
      · rw [List.map_cons, List.append_assoc, List.singleton_append]
      · intro b hb
        have hne : a.id ≠ b.id := by
          intro heq
          exact hfirst (List.mem_map.mpr ⟨b, hb, heq.symm⟩)
        rw [OrderedMap.get_set_ne _ hne]
        exact hnewrest b hb

theorem get_empty_storeAlert {alerts : List AlertRecord} (h : state.get "" = none) :
    (alerts.foldl storeAlert state).get "" = none := by
  induction alerts generalizing state with
  | nil => exact h
  | cons a alerts ih =>
      refine ih ?_
      unfold storeAlert
      split
      · exact h
      · rename_i ha
        rw [OrderedMap.get_set_ne _ ha]
        exact h

theorem AlertState.Keyed.entries_eq (h : state.Keyed) :
    (state.values.map fun a => (a.id, a)) = state.entries := by
  show (state.entries.map Prod.snd).map (fun a => (a.id, a)) = state.entries
  rw [List.map_map]
  refine (List.map_congr_left fun e he => ?_).trans (List.map_id _)
  exact Prod.ext (h e.1 e.2 (OrderedMap.get_eq_some.mpr he)) rfl

/-- **The alerts that come back**: all, in order, if each has an id. -/
theorem hydrate_persist_alerts (hpath : hasPath path = true) (hkeyed : state.Keyed)
    (file : JsonFile) :
    hydrateAlertState path (persistAlertState path state file) = state ↔ state.get "" = none := by
  have hread : hydrateAlertState path (persistAlertState path state file) =
      state.values.foldl storeAlert .empty := by
    unfold hydrateAlertState persistAlertState
    rw [if_pos hpath, if_pos hpath]
    show ((jsonCopyElements (state.values.map AlertRecord.toJs)).filterMap AlertRecord.ofJs).foldl
      storeAlert .empty = _
    rw [filterMap_jsonCopyElements AlertRecord.ofJs_toJs]
  rw [hread]
  constructor
  · intro heq
    rw [← heq]
    exact get_empty_storeAlert rfl
  · intro hempty
    have hentries := hkeyed.entries_eq
    have hids : (state.values.map fun a => a.id) = state.entries.map Prod.fst := by
      rw [← hentries, List.map_map]
      rfl
    apply OrderedMap.ext
    rw [foldl_storeAlert, hentries]
    · rfl
    · intro a ha hid
      obtain ⟨key, hget⟩ := OrderedMap.mem_values.mp ha
      rw [← hkeyed key a hget, hid, hempty] at hget
      cases hget
    · rw [hids]
      exact state.nodup
    · exact fun _ _ => rfl

theorem hydrate_alerts_of_noPath (hpath : hasPath path = false) (file : JsonFile) :
    hydrateAlertState path file = .empty := by
  unfold hydrateAlertState
  rw [if_neg (by simp [hpath])]

/-! ## The audit log -/

theorem hydrate_audit_of_noPath (hpath : hasPath path = false) (max : Nat) (file : JsonFile) :
    hydrateAuditEvents path max file = ([], []) := by
  unfold hydrateAuditEvents
  rw [if_neg (by simp [hpath])]

end MapProtocol
