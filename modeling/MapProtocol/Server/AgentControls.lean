import MapProtocol.Server.MutationRoutes
import MapProtocol.Server.Revocation

/-!
# Disabled agents and capabilities

A mutation for an agent and a capability is refused while the latest control request disabled the
agent, or the pair. The controls themselves do what they say; what decides is which control the
server carries out. The routes of the agents come first and take the paths of the capabilities too,
so that a request about a capability disables or enables an agent of a longer name.
-/

namespace MapProtocol

open Js Transition

/-! ## The controls -/

namespace RuntimeControls

variable {controls : RuntimeControls} {info : ControlInfo}
variable {agentId a c : String}

theorem isAgentDisabled_disable :
    ((Control.disableAgent agentId).apply info controls).isAgentDisabled a = true ↔
      agentId = a ∨ controls.isAgentDisabled a = true := by
  show ((controls.disabledAgents.set agentId info).get a).isSome = true ↔ _
  rw [OrderedMap.get_set, isAgentDisabled]
  by_cases heq : agentId = a <;> simp [heq]

theorem isAgentDisabled_enable :
    ((Control.enableAgent agentId).apply info controls).isAgentDisabled a = true ↔
      agentId ≠ a ∧ controls.isAgentDisabled a = true := by
  show ((controls.disabledAgents.delete agentId).get a).isSome = true ↔ _
  rw [OrderedMap.get_delete, isAgentDisabled]
  by_cases heq : agentId = a <;> simp [heq]

theorem isCapabilityDisabled_disable {agentId capability a c : String} :
    ((Control.disableCapability agentId capability).apply info controls).isCapabilityDisabled a c =
        true ↔
      agentId = a ∧ capability = c ∨ controls.isCapabilityDisabled a c = true := by
  unfold isCapabilityDisabled Control.apply
  dsimp only
  rw [OrderedMap.get_set]
  by_cases hagent : agentId = a
  · subst hagent
    rw [if_pos rfl]
    dsimp only
    rw [OrderedMap.get_set]
    by_cases hcapability : capability = c
    · simp [hcapability]
    · cases controls.disabledCapabilities.get agentId <;> simp [hcapability]
  · simp [hagent]

theorem isCapabilityDisabled_enable {agentId capability a c : String} :
    ((Control.enableCapability agentId capability).apply info controls).isCapabilityDisabled a c =
        true ↔
      ¬ (agentId = a ∧ capability = c) ∧ controls.isCapabilityDisabled a c = true := by
  show (controls.enableCapability agentId capability).isCapabilityDisabled a c = true ↔ _
  unfold isCapabilityDisabled enableCapability
  cases hmap : controls.disabledCapabilities.get agentId with
  | none =>
      dsimp only
      by_cases hagent : agentId = a
      · subst hagent
        simp [hmap]
      · simp [hagent]
  | some capabilities =>
      dsimp only
      have hkept (c' : String) : ((capabilities.delete capability).get c').isSome = true ↔
          capability ≠ c' ∧ (capabilities.get c').isSome = true := by
        rw [OrderedMap.get_delete]
        by_cases heq : capability = c' <;> simp [heq]
      by_cases hagent : agentId = a
      · subst hagent
        rw [hmap]
        split_ifs with hempty
        · -- the map of the agent is dropped, and held nothing else
          have hnone : (capabilities.delete capability).get c = none := by
            rw [OrderedMap.get, List.isEmpty_iff.mp hempty]
            rfl
          have hkept := hkept c
          rw [hnone] at hkept
          simpa [OrderedMap.get_delete] using hkept
        · simpa using hkept c
      · split_ifs <;> simp [OrderedMap.get_delete, OrderedMap.get_set, hagent]

@[simp] theorem disabledAgents_enableCapability (agentId capability : String) :
    (controls.enableCapability agentId capability).disabledAgents = controls.disabledAgents := by
  unfold enableCapability
  split <;> rfl

theorem isCapabilityDisabled_iff :
    controls.isCapabilityDisabled a c = true ↔
      ∃ capabilities, (a, capabilities) ∈ controls.disabledCapabilities.entries ∧
        c ∈ capabilities.entries.map Prod.fst := by
  unfold isCapabilityDisabled
  cases hmap : controls.disabledCapabilities.get a with
  | none =>
      constructor
      · intro h
        cases h
      · rintro ⟨capabilities, hmem, -⟩
        rw [OrderedMap.get_eq_some.mpr hmem] at hmap
        cases hmap
  | some capabilities =>
      dsimp only
      rw [OrderedMap.isSome_get_iff]
      constructor
      · exact fun h => ⟨capabilities, OrderedMap.get_eq_some.mp hmap, h⟩
      · rintro ⟨found, hmem, hin⟩
        rw [OrderedMap.get_eq_some.mpr hmem] at hmap
        cases hmap
        exact hin

end RuntimeControls

/-! ## Control requests over time -/

/-- The latest request about the agent disabled it. -/
def AgentDisabledSince (agentId : String) (history : List Control) : Prop :=
  Latest (.disableAgent agentId) (.enableAgent agentId) history

/-- The latest request about the pair disabled it. -/
def CapabilityDisabledSince (agentId capability : String) (history : List Control) : Prop :=
  Latest (.disableCapability agentId capability) (.enableCapability agentId capability) history

def DisabledSince (agentId capability : String) (history : List Control) : Prop :=
  AgentDisabledSince agentId history ∨ CapabilityDisabledSince agentId capability history

/-- What is disabled is what the latest requests disabled. -/
structure Governance.Controlled (s : Governance) : Prop where
  agents       : ∀ agentId,
    AgentDisabledSince agentId s.history ↔ s.controls.isAgentDisabled agentId = true
  capabilities : ∀ agentId capability,
    CapabilityDisabledSince agentId capability s.history ↔
      s.controls.isCapabilityDisabled agentId capability = true

/-- A request that the server takes as it is meant: one about an agent that is no dot segment. -/
def ControlPath.AgentPlain : ControlPath → Prop
  | .disableAgent agent | .enableAgent agent         => ¬ agent.IsDot
  | .disableCapability _ _ | .enableCapability _ _   => False
  | .revokeKey _ | .unrevokeKey _                    => True

/-- Requests about keys are neither about agents nor about capabilities. -/
def Control.AboutKey (control : Control) : Prop :=
  ∃ keyId, control = .revokeKey keyId ∨ control = .unrevokeKey keyId

/-- Requests about an agent or a pair. -/
def Control.About (control : Control) (agentId capability : String) : Prop :=
  control = .disableAgent agentId ∨ control = .enableAgent agentId ∨
    control = .disableCapability agentId capability ∨ control = .enableCapability agentId capability

theorem controlled_start (controls : RuntimeControls) : (Governance.start controls).Controlled where
  agents agentId := by
    have hnone : Control.enableAgent agentId ∉ controls.inForce := by simp [RuntimeControls.inForce]
    show Latest _ _ controls.inForce ↔ (controls.disabledAgents.get agentId).isSome = true
    rw [Latest.iff_mem hnone, OrderedMap.isSome_get_iff]
    simp [RuntimeControls.inForce]
  capabilities agentId capability := by
    have hnone : Control.enableCapability agentId capability ∉ controls.inForce := by
      simp [RuntimeControls.inForce]
    show Latest _ _ controls.inForce ↔ _
    rw [Latest.iff_mem hnone]
    rw [RuntimeControls.isCapabilityDisabled_iff]
    simp [RuntimeControls.inForce, Governance.start]

theorem controlled_apply {s : Governance} (hs : s.Controlled) (control : Control)
    (info : ControlInfo) :
    Governance.Controlled ⟨control.apply info s.controls, control :: s.history⟩ where
  agents a := by
    show Latest _ _ (control :: s.history) ↔ _
    rw [Latest, ← AgentDisabledSince, hs.agents a]
    cases control with
    | disableAgent agentId => simp [RuntimeControls.isAgentDisabled_disable]
    | enableAgent agentId => simp [RuntimeControls.isAgentDisabled_enable]
    | _ => simp [Control.apply, RuntimeControls.isAgentDisabled]
  capabilities a c := by
    show Latest _ _ (control :: s.history) ↔ _
    rw [Latest, ← CapabilityDisabledSince, hs.capabilities a c]
    cases control with
    | disableCapability agentId capability => simp [RuntimeControls.isCapabilityDisabled_disable]
    | enableCapability agentId capability => simp [RuntimeControls.isCapabilityDisabled_enable]
    | _ => simp [Control.apply, RuntimeControls.isCapabilityDisabled]

/-- Requests about keys have no part in it, whatever they asked for. -/
theorem controlled_key {s : Governance} (hs : s.Controlled) {control : Control}
    (hcontrol : control.AboutKey) (info : ControlInfo) {asked : List Control}
    (hasked : ∀ c ∈ asked, c.AboutKey) :
    Governance.Controlled ⟨control.apply info s.controls, asked ++ s.history⟩ := by
  have hother (c : Control) (hc : ¬ c.AboutKey) : c ∉ asked := fun hmem => hc (hasked c hmem)
  have hcontrols : (control.apply info s.controls).disabledAgents = s.controls.disabledAgents ∧
      (control.apply info s.controls).disabledCapabilities = s.controls.disabledCapabilities := by
    obtain ⟨keyId, rfl | rfl⟩ := hcontrol <;> exact ⟨rfl, rfl⟩
  constructor
  · intro a
    have hdisable := hother (.disableAgent a) (by simp [Control.AboutKey])
    have henable := hother (.enableAgent a) (by simp [Control.AboutKey])
    unfold AgentDisabledSince RuntimeControls.isAgentDisabled
    rw [Latest.append_others ⟨hdisable, henable⟩, hcontrols.1]
    exact hs.agents a
  · intro a c
    have hdisable := hother (.disableCapability a c) (by simp [Control.AboutKey])
    have henable := hother (.enableCapability a c) (by simp [Control.AboutKey])
    unfold CapabilityDisabledSince RuntimeControls.isCapabilityDisabled
    rw [Latest.append_others ⟨hdisable, henable⟩, hcontrols.2]
    exact hs.capabilities a c

theorem aboutKey_of_map {about : String → Control} (h : ∀ keyId, (about keyId).AboutKey)
    (raw : Except String String) {control : Control} (hcontrol : raw.map about = .ok control) :
    control.AboutKey := by
  obtain ⟨keyId, _, rfl⟩ := map_eq_ok.mp hcontrol
  exact h keyId

theorem aboutKey_of_route {path : ControlPath} (h : path.AgentPlain) :
    (∃ agent, ¬ agent.IsDot ∧ (path = .disableAgent agent ∨ path = .enableAgent agent)) ∨
      (∀ normalized control, path.route.control normalized = .ok control → control.AboutKey) ∧
        ∀ control, path.asked = some control → control.AboutKey := by
  cases path with
  | disableAgent agent => exact .inl ⟨agent, h, .inl rfl⟩
  | enableAgent agent => exact .inl ⟨agent, h, .inr rfl⟩
  | disableCapability agent capability | enableCapability agent capability => exact h.elim
  | revokeKey key =>
      refine .inr ⟨fun normalized control hcontrol => ?_, fun control hcontrol => ?_⟩
      · exact aboutKey_of_map (fun keyId => ⟨keyId, .inl rfl⟩)
          (decodeOrThrow (between normalized "/admin/keys/" "/revoke")) hcontrol
      · obtain ⟨keyId, _, rfl⟩ := Option.map_eq_some_iff.mp hcontrol
        exact ⟨keyId, .inl rfl⟩
  | unrevokeKey key =>
      refine .inr ⟨fun normalized control hcontrol => ?_, fun control hcontrol => ?_⟩
      · exact aboutKey_of_map (fun keyId => ⟨keyId, .inr rfl⟩)
          (decodeOrThrow (between normalized "/admin/keys/" "/unrevoke")) hcontrol
      · obtain ⟨keyId, _, rfl⟩ := Option.map_eq_some_iff.mp hcontrol
        exact ⟨keyId, .inr rfl⟩

namespace ServerEnv

variable {env : ServerEnv} {nonces : NonceCache} {ctx : MutationContext}
variable {mutation : Mutation}

theorem controlled_govern {s : Governance} (hs : s.Controlled) {call : ControlCall}
    (hcall : call.path.AgentPlain) : (env.govern nonces s call).Controlled := by
  rcases govern_cases s call with hsame | ⟨control, info, path, hpath, hcontrol, hgovern⟩
  · rwa [hsame]
  · rw [hgovern]
    rcases aboutKey_of_route hcall with ⟨agent, hdot, hagent⟩ | ⟨hroute, hasked⟩
    · -- the path is about an agent, and normalising leaves it as it is
      have hplain : call.path.Plain := by
        rcases hagent with hagent | hagent <;> rw [hagent] <;>
          exact fun segment hsegment => List.mem_singleton.mp hsegment ▸ hdot
      obtain rfl : call.path.url = path := by
        rw [normalizePath_plain hplain] at hpath
        exact Except.ok.inj hpath
      have hdone := ControlPath.control_url.mp hcontrol
      have hasked : call.path.asked = some control := by
        rcases hagent with hagent | hagent <;> rw [hagent] at hdone ⊢ <;> exact hdone
      rw [hasked]
      exact controlled_apply hs control info
    · refine controlled_key hs (hroute path control hcontrol) info fun c hc => hasked c ?_
      exact Option.mem_toList.mp hc

/-! ## Mutations between control requests

The controls are read at every mutation and written by none. -/

/-- A request to a mutation route that gets as far as the controls, with its mutation. -/
def Asks (ctx : MutationContext) (call : HttpCall) (mutation : Mutation) : Prop :=
  call.request.method = some "POST" ∧ ∃ body, readJsonBody call.request = .ok body ∧
    checkLoad ctx (extractTenantId body.parsed) = none ∧ checkTenant ctx mutation.envelope = none ∧
      match mutation with
      | .dispatch request =>
          call.request.url = some "/dispatch" ∧ ctx.validateDispatchRequest body.parsed = .ok request
      | .approve request  =>
          call.request.url = some "/approve" ∧ ctx.validateApprovalRequest body.parsed = .ok request

/-- The controls are why a request is refused. -/
def RefusedByControls : Except String MutationOutcome → Prop
  | .ok (.refused refusal) => refusal.code = "agent_disabled" ∨ refusal.code = "capability_disabled"
  | _                      => False

theorem admitMutation_of_asks {controls : RuntimeControls} {call : HttpCall} {mutation : Mutation}
    (h : Asks ctx call mutation) : ∃ rawBody idempotencyKey,
      env.handleMutationRoutes ctx nonces controls call =
        env.admitMutation ctx nonces controls call rawBody idempotencyKey mutation := by
  obtain ⟨hmethod, body, hbody, hload, -, hroute⟩ := h
  have hrun {validate : JsValue → Except String Mutation} (hvalid : validate body.parsed = .ok mutation)
      (idempotencyKey : Option String) :
      env.runMutation ctx nonces controls call validate idempotencyKey =
        env.admitMutation ctx nonces controls call body.raw idempotencyKey mutation := by
    unfold runMutation
    rw [hbody]
    simp only [bind, Except.bind, hload, hvalid]
  unfold handleMutationRoutes
  cases mutation with
  | dispatch request =>
      rw [if_pos ⟨hmethod, hroute.1⟩]
      refine ⟨body.raw, _, hrun ?_ _⟩
      rw [hroute.2]
      rfl
  | approve request =>
      -- the route of dispatches is tried first
      rw [if_neg (by simp [hroute.1]), if_pos ⟨hmethod, hroute.1⟩]
      refine ⟨body.raw, _, hrun ?_ _⟩
      rw [hroute.2]
      rfl

theorem code_of_checkAuth {controls : RuntimeControls} {call : HttpCall} {rawBody : String}
    {refusal : Refusal}
    (h : env.checkAuth ctx nonces controls call rawBody mutation = .ok (some refusal)) :
    refusal.code ∈ AuthError.codes := by
  unfold checkAuth at h
  dsimp only at h
  rw [← requiredScheme] at h
  split at h
  · obtain ⟨error, herror, hrefusal⟩ := map_eq_ok.mp h
    obtain ⟨error, rfl, rfl⟩ := Option.map_eq_some_iff.mp hrefusal
    exact code_of_getBearerTokenError herror
  · split at h
    · obtain ⟨error, herror, hrefusal⟩ := map_eq_ok.mp h
      obtain ⟨error, rfl, rfl⟩ := Option.map_eq_some_iff.mp hrefusal
      exact code_of_getSignedRequestError herror
    · cases h

/-- Which mutations the controls refuse. -/
theorem refusedByControls_iff {controls : RuntimeControls} {call : HttpCall}
    (h : Asks ctx call mutation) :
    RefusedByControls (env.handleMutationRoutes ctx nonces controls call) ↔
      controls.isAgentDisabled mutation.envelope.targetAgent = true ∨
        controls.isCapabilityDisabled mutation.envelope.targetAgent mutation.capability = true := by
  obtain ⟨rawBody, idempotencyKey, hmutation⟩ := @admitMutation_of_asks env nonces ctx controls _ _ h
  obtain ⟨-, -, -, -, htenant, -⟩ := h
  rw [hmutation]
  unfold admitMutation checkControls
  rw [htenant]
  dsimp only
  cases controls.isAgentDisabled mutation.envelope.targetAgent with
  | true => simp [RefusedByControls]
  | false =>
      cases controls.isCapabilityDisabled mutation.envelope.targetAgent mutation.capability with
      | true => simp [RefusedByControls]
      | false =>
          cases hauth : env.checkAuth ctx nonces controls call rawBody mutation with
          | error e => simp [Except.map, RefusedByControls]
          | ok refusal =>
              cases refusal with
              | none => simp [Except.map, RefusedByControls]
              | some refusal =>
                  have hcode := code_of_checkAuth hauth
                  simp only [AuthError.codes, List.mem_cons, List.not_mem_nil, or_false] at hcode
                  rcases hcode with hcode | hcode | hcode <;>
                    simp [Except.map, RefusedByControls, hcode]

/-- A request to the server: of the administrator, or to a mutation route. -/
inductive Exchange where
  | control (call : ControlCall)
  | mutation (ctx : MutationContext) (call : HttpCall)

/-- The governance after a request; the mutation routes only read it. -/
def serve (env : ServerEnv) (nonces : NonceCache) (s : Governance) : Exchange → Governance
  | .control call => env.govern nonces s call
  | .mutation _ _ => s

theorem controlled_run {s : Governance} (hs : s.Controlled) {exchanges : List Exchange}
    (h : ∀ call, .control call ∈ exchanges → call.path.AgentPlain) :
    (run (env.serve nonces) s exchanges).Controlled := by
  induction exchanges generalizing s with
  | nil => exact hs
  | cons exchange exchanges ih =>
      have hrest := fun call hcall => h call (List.mem_cons_of_mem _ hcall)
      cases exchange with
      | control call => exact ih (controlled_govern hs (h call List.mem_cons_self)) hrest
      | mutation ctx call => exact ih hs hrest

theorem refused_iff_disabledSince {s : Governance} (hs : s.Controlled) {call : HttpCall}
    (h : Asks ctx call mutation) :
    RefusedByControls (env.handleMutationRoutes ctx nonces s.controls call) ↔
      DisabledSince mutation.envelope.targetAgent mutation.capability s.history := by
  rw [refusedByControls_iff h, DisabledSince, hs.agents, hs.capabilities]

theorem disabledSince_other {agentId capability : String} {asked : Option Control}
    {history : List Control} (h : ∀ control, asked = some control → ¬ control.About agentId capability) :
    DisabledSince agentId capability (asked.toList ++ history) ↔
      DisabledSince agentId capability history := by
  have hother (control : Control) (hcontrol : control.About agentId capability) :
      control ∉ asked.toList := fun hmem => h control (Option.mem_toList.mp hmem) hcontrol
  unfold DisabledSince AgentDisabledSince CapabilityDisabledSince
  rw [Latest.append_others ⟨hother _ (.inl rfl), hother _ (.inr (.inl rfl))⟩,
    Latest.append_others ⟨hother _ (.inr (.inr (.inl rfl))), hother _ (.inr (.inr (.inr rfl)))⟩]

/-- **The controls are enforced**, in every run whose control requests about agents and capabilities
are about agents that are no dot segments: a mutation is refused exactly while the latest request
disabled its agent or its pair, and a further request changes this for nothing that it is not
about. -/
theorem controls_enforced (controls : RuntimeControls) {exchanges : List Exchange}
    (h : ∀ call, .control call ∈ exchanges → call.path.AgentPlain) :
    ∀ ctx call mutation, Asks ctx call mutation →
      (RefusedByControls (env.handleMutationRoutes ctx nonces
          (run (env.serve nonces) (.start controls) exchanges).controls call) ↔
        DisabledSince mutation.envelope.targetAgent mutation.capability
          (run (env.serve nonces) (.start controls) exchanges).history) ∧
      ∀ next : ControlCall, next.path.AgentPlain →
        (∀ control, next.path.asked = some control →
          ¬ control.About mutation.envelope.targetAgent mutation.capability) →
        (RefusedByControls (env.handleMutationRoutes ctx nonces
            (run (env.serve nonces) (.start controls) (exchanges ++ [.control next])).controls call) ↔
          RefusedByControls (env.handleMutationRoutes ctx nonces
            (run (env.serve nonces) (.start controls) exchanges).controls call)) := by
  intro ctx call mutation hasks
  have hcontrolled := @controlled_run env nonces _ (controlled_start controls) exchanges h
  simp only [run_append]
  generalize run (env.serve nonces) (.start controls) exchanges = s at *
  refine ⟨refused_iff_disabledSince hcontrolled hasks, fun next hnext hother => ?_⟩
  have hafter : (env.govern nonces s next).Controlled := controlled_govern hcontrolled hnext
  show RefusedByControls (env.handleMutationRoutes ctx nonces (env.govern nonces s next).controls
    call) ↔ _
  rw [refused_iff_disabledSince hafter hasks, refused_iff_disabledSince hcontrolled hasks]
  rcases govern_cases s next with hsame | ⟨control, info, path, -, -, hgovern⟩
  · rw [hsame]
  · rw [hgovern]
    exact disabledSince_other hother

/-! ## A capability that is disabled -/

def opsAgent : Segment := ⟨"agent%3Aops".toList, List.all_eq_true.mp (by decide)⟩

def restartCapability : Segment := ⟨"ops.restart".toList, List.all_eq_true.mp (by decide)⟩

theorem plain_samples : ¬ opsAgent.IsDot ∧ ¬ restartCapability.IsDot := by
  unfold Segment.IsDot
  decide

theorem asks_sample (headers : String → Option String) :
    Asks (sampleContext sampleRequest) (postDispatch headers) (.dispatch sampleRequest) :=
  ⟨rfl, _, rfl, rfl, rfl, rfl, rfl⟩

theorem controls_enforced_disabled : ∃ headers,
    RefusedByControls (adminServer.handleMutationRoutes (sampleContext sampleRequest) .empty
      (run (adminServer.serve .empty) (.start noControls)
        [.control (adminCall (.disableAgent opsAgent) headers)]).controls
      (postDispatch fun _ => none)) := by
  have hname : (ControlPath.disableAgent opsAgent).done = some (.disableAgent "agent:ops") := by decide
  have hplain : (ControlPath.disableAgent opsAgent).Plain :=
    fun segment hsegment => List.mem_singleton.mp hsegment ▸ plain_samples.1
  obtain ⟨headers, info, hgovern⟩ := govern_adminCall hplain hname
  refine ⟨headers, ((controls_enforced noControls ?_ _ _ _ (asks_sample fun _ => none)).1).mpr ?_⟩
  · intro call hcall
    cases List.mem_singleton.mp hcall
    exact plain_samples.1
  · show DisabledSince "agent:ops" "ops.restart" (adminServer.govern .empty (.start noControls)
      (adminCall (.disableAgent opsAgent) headers)).history
    rw [hgovern]
    exact .inl (.inl rfl)

/-- A dispatch for a capability whose latest request disabled it is not refused: what was disabled
is the agent `agent:ops/capabilities/ops.restart`. -/
theorem disabledCapability_called : ∃ headers called,
    CapabilityDisabledSince "agent:ops" "ops.restart"
      (run (adminServer.serve .empty) (.start noControls)
        [.control (adminCall (.disableCapability opsAgent restartCapability) headers)]).history ∧
    adminServer.handleMutationRoutes (sampleContext sampleRequest) .empty
      (run (adminServer.serve .empty) (.start noControls)
        [.control (adminCall (.disableCapability opsAgent restartCapability) headers)]).controls
      (postDispatch fun _ => none) = .ok (.calls called) := by
  -- the route of agents takes the whole rest of the path
  have hdone : (ControlPath.disableCapability opsAgent restartCapability).done =
      some (.disableAgent "agent:ops/capabilities/ops.restart") := by decide +kernel
  have hasked : (ControlPath.disableCapability opsAgent restartCapability).asked =
      some (.disableCapability "agent:ops" "ops.restart") := by decide +kernel
  have hplain : (ControlPath.disableCapability opsAgent restartCapability).Plain := by
    intro segment hsegment
    rcases List.mem_cons.mp hsegment with rfl | hsegment
    · exact plain_samples.1
    · exact List.mem_singleton.mp hsegment ▸ plain_samples.2
  obtain ⟨headers, info, hgovern⟩ := govern_adminCall hplain hdone
  have hrun : run (adminServer.serve .empty) (.start noControls)
      [.control (adminCall (.disableCapability opsAgent restartCapability) headers)] = _ := hgovern
  rw [hasked] at hrun
  obtain ⟨called, hcalled⟩ : ∃ called,
      adminServer.handleMutationRoutes (sampleContext sampleRequest) .empty
        ((Control.disableAgent "agent:ops/capabilities/ops.restart").apply info noControls)
        (postDispatch fun _ => none) = .ok (.calls called) :=
    ⟨_, calls_of_checkAuth rfl rfl rfl rfl rfl⟩
  refine ⟨headers, called, ?_, ?_⟩
  · rw [hrun]
    exact .inl rfl
  · rw [hrun]
    exact hcalled

end ServerEnv

end MapProtocol
