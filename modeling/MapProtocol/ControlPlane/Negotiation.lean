import MapProtocol.ControlPlane.Planning

/-!
# What a dispatch negotiates

A request may name a schema version in two fields and a delivery mode in two fields. Where the fields
agree, the version that is executed and the mode that the task runs in follow from them and from the
descriptor of the capability (`dispatch_negotiated`). A capability that lists no versions takes every
version, and a task that waits for an approval runs in no mode yet, whatever is recorded for it.
-/

namespace MapProtocol

open Js

/-! ## What a request asks for -/

namespace DispatchRequest

/-- The request names two different schema versions. -/
def VersionsConflict (request : DispatchRequest) : Prop :=
  ∃ negotiated requested, request.negotiation.bind (·.schemaVersion) = some negotiated ∧
    request.requestedSchemaVersion = some requested ∧ negotiated ≠ requested

/-- The delivery mode is not the one that `metadata.async` stands for. -/
def ModesConflict (request : DispatchRequest) : Prop :=
  ∃ mode async, request.negotiation.bind (·.deliveryMode) = some mode ∧
    request.envelope.meta "async" = .bool async ∧ ¬ (mode = .async ↔ async = true)

/-- The schema version that the request names; an empty one is none. -/
def version (request : DispatchRequest) : Option String :=
  (request.requestedSchemaVersion.or (request.negotiation.bind (·.schemaVersion))).filter (· ≠ "")

def AsksAsync (request : DispatchRequest) : Prop :=
  match request.negotiation.bind (·.deliveryMode) with
  | some mode => mode = .async
  | none      => request.envelope.meta "async" = .bool true

theorem version_of_not_conflict {request : DispatchRequest} (h : ¬ request.VersionsConflict) :
    ((request.negotiation.bind (·.schemaVersion)).or request.requestedSchemaVersion).filter (· ≠ "") =
      request.version := by
  unfold version
  cases hnegotiated : request.negotiation.bind (·.schemaVersion) with
  | none => cases request.requestedSchemaVersion <;> rfl
  | some negotiated =>
      cases hrequested : request.requestedSchemaVersion with
      | none => rfl
      | some requested =>
          have hsame : negotiated = requested := by
            by_contra hne
            exact h ⟨negotiated, requested, hnegotiated, hrequested, hne⟩
          rw [hsame]

theorem isAsync_iff {envelope : TaskEnvelope} :
    Orchestrator.isAsync envelope = true ↔ envelope.meta "async" = .bool true := by
  unfold Orchestrator.isAsync
  cases envelope.meta "async" <;> simp [JsValue.strictEquals]

theorem asksAsync_of_not_conflict {request : DispatchRequest} (h : ¬ request.ModesConflict) :
    (Orchestrator.isAsync request.envelope = true ∨
      request.negotiation.bind (·.deliveryMode) = some .async) ↔ request.AsksAsync := by
  unfold AsksAsync
  rw [isAsync_iff]
  cases hmode : request.negotiation.bind (·.deliveryMode) with
  | none => simp
  | some mode =>
      cases mode with
      | async => simp
      | sync =>
          have hasync : request.envelope.meta "async" ≠ .bool true := by
            intro hmeta
            exact h ⟨.sync, true, hmode, hmeta, by simp⟩
          simp [hasync]

end DispatchRequest

/-! ## What a capability grants -/

namespace CapabilityDescriptor

/-- The version that is executed where none is asked for. -/
def preferred (d : CapabilityDescriptor) : Option String := d.preferredSchemaVersion.or d.schemaVersion

def supported (d : CapabilityDescriptor) : List String := d.supportedSchemaVersions.getD []

/-- The version is translated by a rule of the capability, and the translation is recorded. -/
def Translates (d : CapabilityDescriptor) (version : String) (n : InvocationNegotiation) : Prop :=
  ∃ rule ∈ d.translationTargets.getD [], rule.source = version ∧
    n.selected.schemaVersion = some rule.target ∧ n.providerActions = some [.schemaTranslated]

/-- The version is executed as it is, and nothing else is recorded. -/
def Executes (version : String) (n : InvocationNegotiation) : Prop :=
  n.selected.schemaVersion = some version ∧ n.providerActions = none

/-- The version that is executed is one that the capability grants for the version asked for. -/
def Grants (d : CapabilityDescriptor) (asked : Option String) (n : InvocationNegotiation) : Prop :=
  match asked with
  | none         => n.selected.schemaVersion = d.preferred
  | some version =>
      d.Translates version n ∨ Executes version n ∧ (version ∈ d.supported ∨ d.supported = [])

end CapabilityDescriptor

namespace Orchestrator

open CapabilityDescriptor

variable {requested : Option String} {negotiation : Option InvocationNegotiationRequest}

theorem negotiateSchemaVersion_eq_ok {d : CapabilityDescriptor} {capability : String}
    {asked : Option String} {resolution : SchemaResolution}
    (h : negotiateSchemaVersion (some d) capability asked = .ok resolution)
    {n : InvocationNegotiation} (hexecuted : n.selected.schemaVersion = resolution.executed)
    (hactions : n.providerActions = resolution.providerActions) :
    d.Grants (asked.filter (· ≠ "")) n := by
  unfold negotiateSchemaVersion at h
  dsimp only at h
  cases hasked : asked.filter (· ≠ "") with
  | none =>
      rw [hasked] at h
      cases h
      exact hexecuted
  | some version =>
      rw [hasked] at h
      dsimp only at h
      split at h
      · rename_i rule hrule
        cases h
        have hsource : rule.source = version := by simpa using List.find?_some hrule
        exact .inl ⟨rule, List.mem_of_find?_eq_some hrule, hsource, hexecuted, hactions⟩
      · split at h
        · rename_i hlisted
          cases h
          refine .inr ⟨⟨hexecuted, hactions⟩, ?_⟩
          exact hlisted.symm.imp id List.length_eq_zero_iff.mp
        · cases h

/-- **What a negotiation settles.** -/
theorem negotiateInvocation_eq_ok {modes : List VisibilityMode} {d : CapabilityDescriptor}
    {envelope : TaskEnvelope} {capability : String} {n : InvocationNegotiation}
    (h : negotiateInvocation modes (some d) envelope capability requested negotiation = .ok n) :
    d.Grants (((negotiation.bind (·.schemaVersion)).or requested).filter (· ≠ "")) n ∧
      (n.selected.deliveryMode = .async ↔
        isAsync envelope = true ∨ negotiation.bind (·.deliveryMode) = some .async) := by
  unfold negotiateInvocation at h
  split at h
  · cases h
  · simp only [bind_eq_ok, pure_eq_ok] at h
    obtain ⟨resolution, hresolution, rfl⟩ := h
    refine ⟨negotiateSchemaVersion_eq_ok hresolution rfl rfl, ?_⟩
    dsimp only
    split
    · rename_i hasync
      exact iff_of_true rfl hasync
    · rename_i hsync
      exact iff_of_false (by simp) hsync

theorem validated_reads {dateParses : String → Bool} {envelope validated : TaskEnvelope}
    (h : validateTaskEnvelope dateParses envelope = .ok validated) :
    validated.metadata = envelope.metadata ∧ validated.targetAgent = envelope.targetAgent := by
  unfold validateTaskEnvelope at h
  split at h
  · cases h
  · split at h
    · cases h
    · cases h
      exact ⟨rfl, rfl⟩

variable {env : OrchestratorEnv} {policy : PolicyDocument} {store : TaskStore} {now : Millis}
  {hasCapacity : Bool} {uuid : Nat} {request : DispatchRequest} {submission : Submission}
  {ready : Ready} {submitted : InvokeResult}

/-- A dispatch that is decided anew has negotiated. -/
theorem readDispatch_negotiated (h : readDispatch env policy store uuid request = .ok (.inr ready)) :
    ready.envelope.metadata = request.envelope.metadata ∧
      negotiateInvocation ready.descriptor.visibilityModes
        (env.registry.getCapabilityDescriptor request.envelope.targetAgent request.capability)
        ready.envelope request.capability request.requestedSchemaVersion request.negotiation =
      .ok ready.negotiation := by
  unfold readDispatch at h
  simp only [bind_eq_ok] at h
  obtain ⟨envelope, henvelope, descriptor, -, -, -, found, -, hrest⟩ := h
  obtain ⟨hmetadata, htarget⟩ := validated_reads henvelope
  cases found with
  | some stored => simp at hrest
  | none =>
      simp only [bind_eq_ok, pure_eq_ok, Sum.inr.injEq] at hrest
      obtain ⟨negotiation, hnegotiation, decision, -, rfl⟩ := hrest
      rw [htarget] at hnegotiation
      exact ⟨hmetadata, hnegotiation⟩

/-- What a submission records is what was negotiated, and a task that is run at once is run as it was
negotiated. -/
theorem planSubmission_records {read : Ready}
    (h : planSubmission env now hasCapacity uuid read = .ok (.submit submission ready submitted)) :
    submitted.result.negotiation = some read.negotiation ∧
      submitted.result.executedSchemaVersion = read.negotiation.selected.schemaVersion ∧
      (submission ≠ .approval → (submission = .async ↔
        read.negotiation.selected.deliveryMode = .async ∨ isAsync read.envelope = true)) := by
  unfold planSubmission at h
  dsimp only at h
  split at h
  · simp at h
  · simp only [bind_eq_ok, pure_eq_ok, DispatchPlan.submit.injEq] at h
    obtain ⟨receipt, -, result, hresult, rfl, -, rfl⟩ := h
    rw [validateResultPackage_eq_ok hresult]
    exact ⟨rfl, rfl, fun hne => absurd rfl hne⟩
  · simp only [bind_eq_ok] at h
    obtain ⟨_, _, h⟩ := h
    split at h
    · rename_i hasync
      simp only [bind_eq_ok, pure_eq_ok, DispatchPlan.submit.injEq] at h
      obtain ⟨_, _, receipt, _, rfl, -, rfl⟩ := h
      exact ⟨rfl, rfl, fun _ => iff_of_true rfl hasync⟩
    · rename_i hsync
      simp only [bind_eq_ok, pure_eq_ok, DispatchPlan.submit.injEq] at h
      obtain ⟨receipt, _, rfl, -, rfl⟩ := h
      exact ⟨rfl, rfl, fun _ => iff_of_false (by simp) hsync⟩

/-- **What is recorded of a dispatch, and what the dispatch does.** -/
structure Negotiated (d : CapabilityDescriptor) (request : DispatchRequest) (submission : Submission)
    (submitted : InvokeResult) (n : InvocationNegotiation) : Prop where
  recorded : submitted.result.negotiation = some n
  executed : submitted.result.executedSchemaVersion = n.selected.schemaVersion
  version  : d.Grants request.version n
  mode     : n.selected.deliveryMode = .async ↔ request.AsksAsync
  runs     : submission ≠ .approval → (submission = .async ↔ n.selected.deliveryMode = .async)

/-- **A dispatch without conflicts executes a version that the capability grants for the one asked
for, and runs in the mode that is recorded.** -/
theorem dispatch_negotiated {d : CapabilityDescriptor}
    (h : planDispatch env policy store now hasCapacity uuid request =
      .ok (.submit submission ready submitted))
    (hd : env.registry.getCapabilityDescriptor request.envelope.targetAgent request.capability = some d)
    (hversions : ¬ request.VersionsConflict) (hmodes : ¬ request.ModesConflict) :
    ∃ n, Negotiated d request submission submitted n := by
  unfold planDispatch at h
  simp only [bind_eq_ok] at h
  obtain ⟨found, hread, hplan⟩ := h
  cases found with
  | inl stored => simp at hplan
  | inr read =>
      obtain ⟨hmetadata, hnegotiation⟩ := readDispatch_negotiated hread
      rw [hd] at hnegotiation
      obtain ⟨hversion, hmode⟩ := negotiateInvocation_eq_ok hnegotiation
      obtain ⟨hrecorded, hexecuted, hruns⟩ := planSubmission_records hplan
      have hasync : isAsync read.envelope = isAsync request.envelope := by
        unfold isAsync TaskEnvelope.meta
        rw [hmetadata]
      refine ⟨read.negotiation, hrecorded, hexecuted, ?_, ?_, fun happroval => ?_⟩
      · rw [← DispatchRequest.version_of_not_conflict hversions]
        exact hversion
      · rw [hmode, hasync, DispatchRequest.asksAsync_of_not_conflict hmodes]
      · rw [hruns happroval, or_iff_left_iff_imp]
        exact fun hasks => hmode.mpr (.inl hasks)

/-! ## The rules as they are documented -/

/-- The version that is executed is the preferred one, a listed one, or a translation. -/
def GrantsListed (d : CapabilityDescriptor) (asked : Option String) (n : InvocationNegotiation) : Prop :=
  match asked with
  | none         => n.selected.schemaVersion = d.preferred
  | some version =>
      d.Translates version n ∨ n.selected.schemaVersion = some version ∧ version ∈ d.supported

/-- A dispatch whose fields conflict is refused, and any other that is accepted executes a version that
is granted and runs asynchronously exactly if that is the mode that is recorded. -/
def FollowsRules (d : CapabilityDescriptor) (request : DispatchRequest)
    (plan : Except String DispatchPlan) : Prop :=
  (request.VersionsConflict ∨ request.ModesConflict → ∃ e, plan = .error e) ∧
    (¬ request.VersionsConflict → ¬ request.ModesConflict → ∀ submission ready submitted,
      plan = .ok (.submit submission ready submitted) →
        ∃ n, submitted.result.negotiation = some n ∧ GrantsListed d request.version n ∧
          (submission = .async ↔ n.selected.deliveryMode = .async))

/-! ## Samples -/

/-- The sample capability, with the versions that it lists. -/
def sampleCapability (versions : Option (List String)) : CapabilityDescriptor where
  name := "ops.restart"
  schemaVersion := some "1.0.0"
  supportedSchemaVersions := versions
  preferredSchemaVersion := none
  translationTargets := none
  status := none

/-- The sample deployment, with a descriptor of its capability. -/
def describedEnv (d : CapabilityDescriptor) : OrchestratorEnv :=
  { sampleEnv "ops.restart" noCrypto with
    registry.agents := OrderedMap.empty.set "agent:ops"
      { sampleAgent "ops.restart" with capabilityDescriptors := some [d] }
    registry.keyed := by
      intro id descriptor h
      rw [OrderedMap.get_set] at h
      split at h
      · rename_i hid
        cases h
        exact hid
      · exact absurd h (by simp) }

def sampleNegotiation (metadata : Option JsObject) (requested : Option String)
    (negotiation : Option InvocationNegotiationRequest) : DispatchRequest :=
  ⟨sampleEnvelope "alice" "restart web" metadata, "ops.restart", requested, negotiation⟩

def samplePlan (versions : Option (List String)) (action : PolicyAction) (request : DispatchRequest) :
    Except String DispatchPlan :=
  planDispatch (describedEnv (sampleCapability versions)) (defaultPolicy action)
    (TaskStore.empty) 0 true 0 request

theorem not_versionsConflict {metadata : Option JsObject}
    (h : negotiation.bind (·.schemaVersion) = none) :
    ¬ (sampleNegotiation metadata requested negotiation).VersionsConflict := by
  rintro ⟨negotiated, _, hnegotiated, _, _⟩
  rw [show (sampleNegotiation metadata requested negotiation).negotiation = negotiation from rfl, h]
    at hnegotiated
  cases hnegotiated

theorem not_modesConflict {metadata : Option JsObject}
    (h : negotiation.bind (·.deliveryMode) = none) :
    ¬ (sampleNegotiation metadata requested negotiation).ModesConflict := by
  rintro ⟨mode, _, hmode, _, _⟩
  rw [show (sampleNegotiation metadata requested negotiation).negotiation = negotiation from rfl, h]
    at hmode
  cases hmode

/-- A version that is not listed is executed where none is listed, a task that waits for an approval is
recorded as asynchronous, and two versions that differ are not refused. -/
theorem rules_not_followed :
    ¬ FollowsRules (sampleCapability none) (sampleNegotiation none (some "9.9.9") none)
        (samplePlan none .allow (sampleNegotiation none (some "9.9.9") none)) ∧
      ¬ FollowsRules (sampleCapability none) (sampleNegotiation (some [("async", .bool true)]) none none)
        (samplePlan none .requireApproval
          (sampleNegotiation (some [("async", .bool true)]) none none)) ∧
      ¬ FollowsRules (sampleCapability none)
        (sampleNegotiation none (some "1.0.0") (some ⟨some "2.0.0", none⟩))
        (samplePlan none .allow
          (sampleNegotiation none (some "1.0.0") (some ⟨some "2.0.0", none⟩))) := by
  refine ⟨fun h => ?_, fun h => ?_, fun h => ?_⟩
  · have hplan : ∃ ready submitted, samplePlan none .allow
        (sampleNegotiation none (some "9.9.9") none) = .ok (.submit .sync ready submitted) :=
      ⟨_, _, rfl⟩
    obtain ⟨ready, submitted, hplan⟩ := hplan
    obtain ⟨n, -, hgrants, -⟩ := h.2 (not_versionsConflict rfl) (not_modesConflict rfl) _ _ _ hplan
    have hversion : (sampleNegotiation none (some "9.9.9") none).version = some "9.9.9" := by decide
    rw [hversion] at hgrants
    rcases hgrants with ⟨rule, hrule, -⟩ | ⟨-, hlisted⟩
    · simp [sampleCapability] at hrule
    · simp [sampleCapability, CapabilityDescriptor.supported] at hlisted
  · have hplan : ∃ ready submitted, samplePlan none .requireApproval
        (sampleNegotiation (some [("async", .bool true)]) none none) =
          .ok (.submit .approval ready submitted) ∧
        (submitted.result.negotiation.map fun n => n.selected.deliveryMode) = some .async :=
      ⟨_, _, rfl, rfl⟩
    obtain ⟨ready, submitted, hplan, hmode⟩ := hplan
    obtain ⟨n, hn, -, hruns⟩ := h.2 (not_versionsConflict rfl) (not_modesConflict rfl) _ _ _ hplan
    rw [hn] at hmode
    cases hruns.mpr (Option.some.inj hmode)
  · have hplan : ∃ ready submitted, samplePlan none .allow
        (sampleNegotiation none (some "1.0.0") (some ⟨some "2.0.0", none⟩)) =
          .ok (.submit .sync ready submitted) := ⟨_, _, rfl⟩
    obtain ⟨ready, submitted, hplan⟩ := hplan
    obtain ⟨e, herror⟩ := h.1 (.inl ⟨"2.0.0", "1.0.0", rfl, rfl, by decide⟩)
    rw [hplan] at herror
    cases herror

/-- A listed version is executed. -/
theorem listed_version_executed : ∃ submission submitted n,
    Negotiated (sampleCapability (some ["1.0.0", "1.1.0"]))
      (sampleNegotiation none (some "1.1.0") none) submission submitted n := by
  have hplan : ∃ ready submitted, samplePlan (some ["1.0.0", "1.1.0"]) .allow
      (sampleNegotiation none (some "1.1.0") none) = .ok (.submit .sync ready submitted) :=
    ⟨_, _, rfl⟩
  obtain ⟨ready, submitted, hplan⟩ := hplan
  exact ⟨_, _, dispatch_negotiated hplan rfl (not_versionsConflict rfl) (not_modesConflict rfl)⟩

end Orchestrator

end MapProtocol
