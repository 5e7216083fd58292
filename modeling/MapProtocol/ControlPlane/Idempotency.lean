import MapProtocol.ControlPlane.Payloads
import MapProtocol.ControlPlane.SyncTasks

/-!
# Repeated synchronous dispatches

Dispatches that carry one idempotency key, by one requester, make up a family. The first of them
that is put on record takes the key, and the others are held against its task: they are answered
with what its record holds, at once or when it is at an end. `dispatches_idempotent` is about runs
of a family whose members are synchronous and pass the policy, among any other calls.
-/

namespace MapProtocol

open Js

namespace Orchestrator

variable {env : OrchestratorEnv} {key : String} {requester : RequesterIdentity} {ls : List Label}

/-! ## Families of dispatches

A family shares a key and a requester. Its members may differ in everything else, and come in any
order with anything else between them. -/

structure Carries (key : String) (requester : RequesterIdentity) (envelope : TaskEnvelope) :
    Prop where
  key    : resolveIdempotencyKey envelope = some key
  type   : envelope.requesterIdentity.type = requester.type
  id     : envelope.requesterIdentity.id = requester.id
  tenant : TaskStore.resolveTenantId envelope.requesterIdentity.tenantId =
    TaskStore.resolveTenantId requester.tenantId

/-- The envelope is what validation leaves of a dispatch of the labels. -/
def Dispatches (env : OrchestratorEnv) (ls : List Label) (request : DispatchRequest)
    (envelope : TaskEnvelope) : Prop :=
  (∃ faults, .dispatch request faults ∈ ls) ∧
    validateTaskEnvelope env.dateParses request.envelope = .ok envelope

/-- A member of the family asks for the task. -/
def FamilyTask (env : OrchestratorEnv) (key : String) (requester : RequesterIdentity)
    (ls : List Label) (t : String) : Prop :=
  ∃ request envelope, Dispatches env ls request envelope ∧ Carries key requester envelope ∧
    envelope.taskId = t

/-- The request does not ask to be executed asynchronously. -/
structure Synchronous (request : DispatchRequest) (envelope : TaskEnvelope) : Prop where
  unmarked : isAsync envelope = false
  delivery : request.negotiation.bind (·.deliveryMode) ≠ some .async

/-- The policy in force lets the members of the family pass. -/
def LetsPass (env : OrchestratorEnv) (key : String) (requester : RequesterIdentity) (s : World) :
    Label → Prop
  | .dispatch request _ => ∀ envelope,
      validateTaskEnvelope env.dateParses request.envelope = .ok envelope →
      Carries key requester envelope →
        Passes env.regExp s.outer.policy
          (normalizeIntent (mapEnvelopeToIntent envelope request.capability))
  | _ => True

/-- **The runs of a family** of synchronous dispatches that the policy allows. No dispatch outside
the family asks for one of its tasks. -/
structure FamilyRun (env : OrchestratorEnv) (key : String) (requester : RequesterIdentity)
    (s : World) (ls : List Label) : Prop where
  sync    : ∀ request envelope, Dispatches env ls request envelope →
    Carries key requester envelope → Synchronous request envelope
  allowed : Transition.StepsMeet (step env) (LetsPass env key requester) s ls
  apart   : ∀ request envelope, Dispatches env ls request envelope →
    FamilyTask env key requester ls envelope.taskId → Carries key requester envelope

def FamilyCall (env : OrchestratorEnv) (key : String) (requester : RequesterIdentity) (s : World)
    (ls : List Label) (k : Nat) : Prop :=
  ∃ before request faults after envelope, ls = before ++ .dispatch request faults :: after ∧
    validateTaskEnvelope env.dateParses request.envelope = .ok envelope ∧
    Carries key requester envelope ∧ k = (run env s before).outer.nextCall

def StartsFor (tasks : String → Prop) : Event → Prop
  | .executed _ _ t _ _ => tasks t
  | _                   => False

/-! ## What the family creates

The guard on a run carries the policy over to what is created: tasks of the family are
synchronous. -/

/-- A submission of the family is synchronous, and its tasks are created by the family only. -/
def familyGuard (env : OrchestratorEnv) (key : String) (requester : RequesterIdentity)
    (ls : List Label) : Guard :=
  { Guard.any with submits := fun submission ready =>
      (Carries key requester ready.envelope → submission = .sync) ∧
        (FamilyTask env key requester ls ready.envelope.taskId →
          Carries key requester ready.envelope) }

/-- What the guard says of all that was created. -/
def FamilyCreated (env : OrchestratorEnv) (key : String) (requester : RequesterIdentity)
    (ls : List Label) (w : Runtime) : Prop :=
  ∀ submission envelope capability, Created w.history submission envelope capability →
    (Carries key requester envelope → submission = .sync) ∧
      (FamilyTask env key requester ls envelope.taskId → Carries key requester envelope)

theorem negotiateInvocation_delivery {modes : List VisibilityMode}
    {descriptor : Option CapabilityDescriptor} {envelope : TaskEnvelope} {capability : String}
    {schemaVersion : Option String} {asked : Option InvocationNegotiationRequest}
    {negotiation : InvocationNegotiation}
    (h : negotiateInvocation modes descriptor envelope capability schemaVersion asked =
      .ok negotiation) :
    negotiation.selected.deliveryMode =
      if isAsync envelope ∨ asked.bind (·.deliveryMode) = some .async then .async else .sync := by
  unfold negotiateInvocation at h
  split at h
  · cases h
  · simp only [bind_eq_ok, pure_eq_ok] at h
    obtain ⟨_, -, rfl⟩ := h
    rfl

/-- A dispatch is queued only if it asks for it. -/
theorem Synchronous.not_async {policy : PolicyDocument} {store : TaskStore} {now : Millis}
    {hasCapacity : Bool} {uuid : Nat} {request : DispatchRequest} {ready : Ready}
    {submitted : InvokeResult} (h : Synchronous request ready.envelope) :
    planDispatch env policy store now hasCapacity uuid request ≠
      .ok (.submit .async ready submitted) := by
  intro hplan
  unfold planDispatch at hplan
  simp only [bind_eq_ok] at hplan
  obtain ⟨found, hread, hplan⟩ := hplan
  cases found with
  | inl stored => simp at hplan
  | inr read =>
      have hdelivery : ready = read → ready.negotiation.selected.deliveryMode = .sync := by
        rintro rfl
        unfold readDispatch at hread
        simp only [bind_eq_ok] at hread
        obtain ⟨envelope, -, descriptor, -, -, -, found, -, hrest⟩ := hread
        cases found with
        | some stored => simp at hrest
        | none =>
            simp only [bind_eq_ok, pure_eq_ok, Sum.inr.injEq] at hrest
            obtain ⟨negotiation, hnegotiation, decision, -, rfl⟩ := hrest
            rw [negotiateInvocation_delivery hnegotiation, if_neg]
            simp [h.unmarked, h.delivery]
      unfold planSubmission at hplan
      dsimp only at hplan
      split at hplan
      · simp at hplan
      · simp at hplan
      · simp only [bind_eq_ok] at hplan
        obtain ⟨_, _, hplan⟩ := hplan
        split at hplan
        · rename_i hasync
          simp only [bind_eq_ok, pure_eq_ok, DispatchPlan.submit.injEq] at hplan
          obtain ⟨_, _, receipt, -, -, rfl, -⟩ := hplan
          rcases hasync with hmode | hmarked
          · rw [hdelivery rfl] at hmode
            cases hmode
          · rw [h.unmarked] at hmarked
            cases hmarked
        · simp at hplan

/-- A family's dispatch is submitted to run at once. -/
theorem FamilyRun.submits {s : World} (h : FamilyRun env key requester s ls) {before : List Label}
    {request : DispatchRequest} {faults : Faults}
    (hbegins : before ++ [.dispatch request faults] <+: ls) :
    Allowed (familyGuard env key requester ls) env (run env s before)
      (.dispatch request faults) := by
  intro submission ready submitted hplan
  have hp := planDispatch_submit hplan
  have hmem : .dispatch request faults ∈ ls := hbegins.subset (by simp)
  have hdispatch : Dispatches env ls request ready.envelope := ⟨⟨faults, hmem⟩, hp.validated⟩
  refine ⟨fun hcarries => ?_, h.apart _ _ hdispatch⟩
  cases submission with
  | sync => rfl
  | async => exact absurd hplan (h.sync _ _ hdispatch hcarries).not_async
  | approval =>
      -- the policy lets it pass, and would have asked for an approval
      exfalso
      obtain ⟨decided, hdecided, haction⟩ := evaluatePolicy_eq_ok hp.decided
      obtain ⟨decision, heval, hgate⟩ :=
        (Transition.stepsMeet_iff_forall.mp h.allowed before _ hbegins) _ hp.validated hcarries
      rw [← hp.capability] at heval
      obtain rfl := Except.ok.inj (heval.symm.trans hdecided)
      rw [haction, hp.action.mp rfl] at hgate
      cases hgate

theorem FamilyRun.guarded {s : World} (h : FamilyRun env key requester s ls) :
    Transition.StepsMeet (step env) (Allowed (familyGuard env key requester ls) env) s ls := by
  refine Transition.stepsMeet_iff_forall.mpr fun before l hbegins => ?_
  cases l with
  | dispatch request faults => exact h.submits hbegins
  | approve request => simp [Allowed, familyGuard, Guard.any]
  | setPolicy policy => simp [Allowed, familyGuard, Guard.any]
  | resume id outcome faults => simp [Allowed, familyGuard, Guard.any]
  | cancelTask taskId tenantId faults => trivial
  | poll id => trivial
  | jobSettles id faults => trivial
  | queue turn faults => trivial
  | tick ms => trivial

theorem familyCreated_move {now : Millis} {w w' : Runtime} (h : FamilyCreated env key requester ls w)
    (hm : Move env (familyGuard env key requester ls) now w w') :
    FamilyCreated env key requester ls w' := by
  rintro submission envelope capability ⟨call, hmem⟩
  rcases hm.logged hmem with hold | hlogged
  · exact h _ _ _ ⟨call, hold⟩
  · generalize hevent : Event.created call submission envelope capability = event at hlogged
    cases hlogged with
    | created hplanned hguard =>
        cases hevent
        exact hguard
    | threw => cases hevent
    | answered => cases hevent
    | approving => cases hevent
    | executed => cases hevent
    | approved => cases hevent
    | returned => cases hevent
    | cancelled => cases hevent

/-- **All that a run of the family creates.** -/
theorem FamilyRun.created {policy : PolicyDocument} {deadLetters : List DeadLetterRecord}
    {now : Millis} (h : FamilyRun env key requester (init env policy deadLetters now) ls)
    {before : List Label} (hbegins : before <+: ls) :
    FamilyCreated env key requester ls (run env (init env policy deadLetters now) before).outer := by
  refine (run_of_moves (fun _ _ _ _ hc hm => familyCreated_move hc hm)
    (init_worldLedger env policy deadLetters now) ?_ (h.guarded.of_prefix hbegins)).2
  rintro _ _ _ ⟨_, hmem⟩
  cases hmem

/-! ## The one task of the family

The index leads every later member to the task of the first one. -/

/-- The task was created by a member of the family. -/
def TakenUp (key : String) (requester : RequesterIdentity) (w : Runtime) (t : String) : Prop :=
  ∃ envelope capability, Created w.history .sync envelope capability ∧
    Carries key requester envelope ∧ envelope.taskId = t

section Task

variable {s : World} {w : Runtime} {t t' : String}

theorem TakenUp.syncTask (h : TakenUp key requester w t) : SyncTask w t := by
  obtain ⟨envelope, capability, hc, -, htask⟩ := h
  exact ⟨envelope, capability, hc, htask⟩

theorem TakenUp.unique (hkeyed : Keyed w) (h : TakenUp key requester w t)
    (h' : TakenUp key requester w t') : t = t' := by
  obtain ⟨envelope, capability, hc, hcarries, rfl⟩ := h
  obtain ⟨envelope', capability', hc', hcarries', rfl⟩ := h'
  have hindex := hkeyed.kept _ _ _ _ hc hcarries.key
  rw [hkeyed.kept _ _ _ _ hc' hcarries'.key] at hindex
  exact (Option.some.inj hindex).symm

theorem FamilyCreated.takenUp (h : FamilyCreated env key requester ls w) {submission : Submission}
    {envelope : TaskEnvelope} {capability : String}
    (hc : Created w.history submission envelope capability)
    (hcarries : Carries key requester envelope) : TakenUp key requester w envelope.taskId := by
  obtain rfl := (h _ _ _ hc).1 hcarries
  exact ⟨envelope, capability, hc, hcarries, rfl⟩

/-- An adapter that was started for a task of the family was started by the dispatch of that task.
-/
theorem FamilyCreated.starts (h : FamilyCreated env key requester ls w)
    (htraced : Traced w.history) {event : Event} (hevent : event ∈ w.history)
    (hstarts : StartsFor (FamilyTask env key requester ls) event) :
    ∃ t, syncRun event = some t ∧ TakenUp key requester w t := by
  unfold StartsFor at hstarts
  split at hstarts
  · rename_i call origin t intent policy
    obtain ⟨envelope, capability, hc, rfl⟩ := htraced _ hevent origin t rfl
    have htaken := h.takenUp hc ((h _ _ _ hc).2 hstarts)
    have horigin := (h _ _ _ hc).1 ((h _ _ _ hc).2 hstarts)
    cases origin with
    | dispatch => exact ⟨_, rfl, htaken⟩
    | approve reference => cases horigin
    | job id => cases horigin
  · exact absurd hstarts id

theorem Settled.unique {outcome outcome' : InvokeResult} (h : Settled w outcome)
    (h' : Settled w outcome') (htask : outcome.result.taskId = outcome'.result.taskId) :
    outcome = outcome' := by
  obtain ⟨record, hget, -, hresult, hreceipt⟩ := h
  obtain ⟨record', hget', -, hresult', hreceipt'⟩ := h'
  rw [htask] at hget
  obtain rfl := Option.some.inj (hget.symm.trans hget')
  obtain ⟨result, receipt⟩ := outcome
  obtain ⟨result', receipt'⟩ := outcome'
  obtain rfl : result = result' := Option.some.inj (hresult.symm.trans hresult')
  obtain rfl : receipt = receipt' := Option.some.inj (hreceipt.symm.trans hreceipt')
  rfl

/-- The creator of the record that answers a member of the family is a member itself. -/
theorem carries_of_found (hledger : Ledger env w) (hkeyed : Keyed w)
    (hcreated : FamilyCreated env key requester ls w) {request : DispatchRequest}
    {record : TaskRecord} {envelope creator : TaskEnvelope} {created : String}
    (hdispatch : Dispatches env ls request envelope) (hcarries : Carries key requester envelope)
    (hfound : Found w.taskStore envelope record) (hc : CreatedAs w.history record creator created)
    (hidentity : SameIdentity creator created envelope request.capability) :
    Carries key requester creator := by
  cases hfound with
  | underKey hkey =>
      exact ⟨(hkeyed.creator_key hledger hkey hc).trans hcarries.key,
        hidentity.type.trans hcarries.type, hidentity.id.trans hcarries.id,
        hidentity.tenant.trans hcarries.tenant⟩
  | underTask _ hget =>
      -- only the family asks for the task
      obtain ⟨⟨submission, hcreation⟩, htask⟩ := hc
      refine (hcreated _ _ _ hcreation).2 ⟨request, envelope, hdispatch, hcarries, ?_⟩
      rw [htask, (hledger.records _ _ hget).taskId]

end Task

/-- **A call of the family is answered about the family's task.** -/
theorem FamilyRun.answer {policy : PolicyDocument} {deadLetters : List DeadLetterRecord}
    {now : Millis} (h : FamilyRun env key requester (init env policy deadLetters now) ls) {k : Nat}
    (hcall : FamilyCall env key requester (init env policy deadLetters now) ls k)
    {outcome : InvokeResult}
    (hanswered : .answered k outcome ∈ (run env (init env policy deadLetters now) ls).outer.history) :
    TakenUp key requester (run env (init env policy deadLetters now) ls).outer
      outcome.result.taskId := by
  obtain ⟨before, request, faults, after, envelope, hls, hvalidated, hcarries, rfl⟩ := hcall
  have hdispatch : Dispatches env ls request envelope := ⟨⟨faults, by simp [hls]⟩, hvalidated⟩
  have hbefore : FamilyCreated env key requester ls
      (run env (init env policy deadLetters now) before).outer :=
    h.created ⟨_, hls.symm⟩
  have hfinal := h.created List.prefix_rfl
  have htracked := run_tracked env policy deadLetters now before
  have hkeyed := run_keyed (init_worldLedger env policy deadLetters now)
    (init_keyed env policy deadLetters now) before
  have hrun : run env (init env policy deadLetters now) ls =
      run env (run env (init env policy deadLetters now) before)
        (.dispatch request faults :: after) := by
    rw [hls]
    exact Transition.run_append _ _ _
  rw [hrun] at hanswered hfinal ⊢
  generalize run env (init env policy deadLetters now) before = s at *
  have hsub : s.outer.history ⊆
      (run env s (.dispatch request faults :: after)).outer.history :=
    run_history_subset htracked.ledger _
  cases about_dispatch htracked.ledger htracked.named after (.answered hanswered rfl) with
  | found hplan htask =>
      obtain ⟨envelope', record, creator, created, hreads, hfound, hstored, hc, hidentity⟩ :=
        planDispatch_stored htracked.ledger.ledger hplan
      obtain rfl := Except.ok.inj (hvalidated.symm.trans hreads.validated)
      have hcreator := carries_of_found htracked.ledger.ledger hkeyed hbefore hdispatch hcarries
        hfound hc hidentity
      obtain ⟨t, hget⟩ := hfound.get
      obtain ⟨⟨submission, hcreated⟩, hid⟩ := hc
      have htaken := hfinal.takenUp (hcreated.mono hsub) hcreator
      rwa [hid, ← stored_taskId htracked.ledger.ledger htracked.named hget hstored, htask] at htaken
  | creates hplan htask hcreated =>
      have hstep := (step_moves htracked.ledger (allowed_any env s (.dispatch request faults))).2
      obtain rfl := Except.ok.inj (hvalidated.symm.trans (planDispatch_submit hplan).validated)
      rw [← htask]
      exact hfinal.takenUp ⟨_, run_history_subset hstep after hcreated⟩ hcarries

/-- **Dispatches are idempotent.** In every run of a family of synchronous dispatches that the
policy allows, the adapter is started at most once for the tasks of the family, and all of its calls
that are answered get the same answer. -/
theorem dispatches_idempotent (env : OrchestratorEnv) (policy : PolicyDocument)
    (deadLetters : List DeadLetterRecord) (now : Millis) (key : String)
    (requester : RequesterIdentity) (ls : List Label)
    (h : FamilyRun env key requester (init env policy deadLetters now) ls) :
    ((run env (init env policy deadLetters now) ls).outer.history.Pairwise fun later earlier =>
      ¬ (StartsFor (FamilyTask env key requester ls) later ∧
        StartsFor (FamilyTask env key requester ls) earlier)) ∧
    ∀ k k' outcome outcome',
      FamilyCall env key requester (init env policy deadLetters now) ls k →
      FamilyCall env key requester (init env policy deadLetters now) ls k' →
      .answered k outcome ∈ (run env (init env policy deadLetters now) ls).outer.history →
      .answered k' outcome' ∈ (run env (init env policy deadLetters now) ls).outer.history →
        outcome = outcome' := by
  have htracked := run_tracked env policy deadLetters now ls
  have hkeyed := run_keyed (init_worldLedger env policy deadLetters now)
    (init_keyed env policy deadLetters now) ls
  have hcreated := h.created List.prefix_rfl
  constructor
  · have hruns := List.pairwise_filterMap.mp htracked.once.runs
    refine hruns.imp_of_mem fun hlater hearlier hdiffer hboth => ?_
    obtain ⟨t, hrun, htaken⟩ := hcreated.starts htracked.traced hlater hboth.1
    obtain ⟨t', hrun', htaken'⟩ := hcreated.starts htracked.traced hearlier hboth.2
    exact hdiffer t hrun t' hrun' (htaken.unique hkeyed htaken')
  · intro k k' outcome outcome' hcall hcall' hanswered hanswered'
    have htaken := h.answer hcall hanswered
    have htaken' := h.answer hcall' hanswered'
    exact (htracked.once.answered k outcome hanswered htaken.syncTask).unique
      (htracked.once.answered k' outcome' hanswered' htaken'.syncTask)
      (htaken.unique hkeyed htaken')

/-- Two dispatches with one key, the second while the first waits for its adapter. -/
def sampleFamily : List Label :=
  [sampleRepeat "t1" "restart web" (some [("idempotency_key", .str "k")]),
    sampleRepeat "t2" "restart web" (some [("idempotency_key", .str "k")]),
    .resume 0 (.ok sampleResult) {}, .poll 1]

theorem sampleFamily_dispatches {request : DispatchRequest} {envelope : TaskEnvelope}
    (h : Dispatches (sampleEnv "ops.restart" noCrypto) sampleFamily request envelope) :
    Carries "k" ⟨.user, "alice", none⟩ envelope ∧ Synchronous request envelope := by
  obtain ⟨⟨faults, hmem⟩, hvalidated⟩ := h
  have hknown : ∀ {envelope'}, validateTaskEnvelope (fun _ => true) request.envelope = .ok envelope' →
      Carries "k" ⟨.user, "alice", none⟩ envelope' ∧ Synchronous request envelope' →
      Carries "k" ⟨.user, "alice", none⟩ envelope ∧ Synchronous request envelope := by
    intro envelope' hvalidated' h
    obtain rfl := Except.ok.inj (hvalidated.symm.trans hvalidated')
    exact h
  simp only [sampleFamily, sampleRepeat, List.mem_cons, Label.dispatch.injEq, reduceCtorEq,
    List.not_mem_nil, or_false] at hmem
  rcases hmem with ⟨rfl, -⟩ | ⟨rfl, -⟩
  · exact hknown rfl ⟨⟨rfl, rfl, rfl, rfl⟩, rfl, by simp⟩
  · exact hknown rfl ⟨⟨rfl, rfl, rfl, rfl⟩, rfl, by simp⟩

theorem sampleFamily_run :
    FamilyRun (sampleEnv "ops.restart" noCrypto) "k" ⟨.user, "alice", none⟩ (sampleInit .allow)
      sampleFamily where
  sync _ _ hdispatch _ := (sampleFamily_dispatches hdispatch).2
  allowed := by
    have hpasses : ∀ intent, Passes (fun _ => .error "") (defaultPolicy .allow) intent :=
      fun _ => ⟨_, rfl, rfl⟩
    exact ⟨fun _ _ _ => hpasses _, fun _ _ _ => hpasses _, trivial, trivial, trivial⟩
  apart _ _ hdispatch _ := (sampleFamily_dispatches hdispatch).1

/-- Both calls of the sample are answered, and alike. -/
theorem dispatches_idempotent_sample : ∃ outcome,
    .answered 0 outcome ∈ (run (sampleEnv "ops.restart" noCrypto) (sampleInit .allow)
      sampleFamily).outer.history ∧
    .answered 1 outcome ∈ (run (sampleEnv "ops.restart" noCrypto) (sampleInit .allow)
      sampleFamily).outer.history := by
  have hanswered : ∃ outcome outcome',
      .answered 0 outcome ∈ (run (sampleEnv "ops.restart" noCrypto) (sampleInit .allow)
        sampleFamily).outer.history ∧
      .answered 1 outcome' ∈ (run (sampleEnv "ops.restart" noCrypto) (sampleInit .allow)
        sampleFamily).outer.history := by
    have hhistory : ∃ outcome outcome' older, (run (sampleEnv "ops.restart" noCrypto)
        (sampleInit .allow) sampleFamily).outer.history =
          .answered 1 outcome' :: .answered 0 outcome :: older := ⟨_, _, _, rfl⟩
    obtain ⟨outcome, outcome', older, hhistory⟩ := hhistory
    rw [hhistory]
    exact ⟨outcome, outcome', by simp, by simp⟩
  obtain ⟨outcome, outcome', hfirst, hsecond⟩ := hanswered
  have hsame := (dispatches_idempotent _ _ [] 0 _ _ _ sampleFamily_run).2 0 1 outcome outcome'
    ⟨[], _, _, _, _, rfl, rfl, ⟨rfl, rfl, rfl, rfl⟩, rfl⟩
    ⟨[_], _, _, _, _, rfl, rfl, ⟨rfl, rfl, rfl, rfl⟩, rfl⟩ hfirst hsecond
  exact ⟨outcome, hfirst, hsame ▸ hsecond⟩

end Orchestrator

end MapProtocol
