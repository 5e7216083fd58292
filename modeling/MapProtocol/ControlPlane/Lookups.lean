import MapProtocol.ControlPlane.TaskIndex
import MapProtocol.ControlPlane.World

/-!
# The lookups of a dispatch

A dispatch that passes its first checks looks for a record twice, by its idempotency key and by its
task id. A record on the ledger always has an answer, so all that a lookup decides is whether the
dispatch that created the record was by the same requester, for the same capability and agent.
-/

namespace MapProtocol

open Js

namespace Orchestrator

variable {env : OrchestratorEnv} {w : Runtime} {now : Millis}
variable {request : DispatchRequest} {envelope creator : TaskEnvelope} {policy : PolicyDocument}
  {store : TaskStore} {hasCapacity : Bool} {uuid : Nat} {stored : Stored} {record : TaskRecord}
  {created capability : String} {submission : Submission}

/-! ## Requests that are read -/

/-- The request passes the checks before the lookups, and leaves the envelope. -/
structure Reads (env : OrchestratorEnv) (request : DispatchRequest) (envelope : TaskEnvelope) :
    Prop where
  validated  : validateTaskEnvelope env.dateParses request.envelope = .ok envelope
  descriptor : ∃ descriptor, resolveDescriptor env envelope.targetAgent request.capability =
    .ok descriptor ∧ checkExtensions descriptor envelope = .ok ()

/-- What is not read is refused, whatever the store holds. -/
theorem readDispatch_unread (h : ∀ envelope, ¬ Reads env request envelope) :
    ∃ message, ∀ policy store uuid, readDispatch env policy store uuid request = .error message := by
  unfold readDispatch
  cases henvelope : validateTaskEnvelope env.dateParses request.envelope with
  | error message => exact ⟨message, fun _ _ _ => by simp [bind, Except.bind]⟩
  | ok envelope =>
      cases hdescriptor : resolveDescriptor env envelope.targetAgent request.capability with
      | error message =>
          exact ⟨message, fun _ _ _ => by simp [hdescriptor, bind, Except.bind]⟩
      | ok descriptor =>
          cases hextensions : checkExtensions descriptor envelope with
          | error message =>
              exact ⟨message, fun _ _ _ => by simp [hdescriptor, hextensions, bind, Except.bind]⟩
          | ok u => exact absurd ⟨henvelope, descriptor, hdescriptor, hextensions⟩ (h envelope)

/-- What is read is looked up, and a lookup that refuses or answers decides. -/
theorem Reads.readDispatch (h : Reads env request envelope) (policy : PolicyDocument)
    (store : TaskStore) (uuid : Nat) :
    (∀ message, findStored store envelope request.capability envelope.targetAgent =
        .error message → readDispatch env policy store uuid request = .error message) ∧
      ∀ stored, findStored store envelope request.capability envelope.targetAgent =
        .ok (some stored) → readDispatch env policy store uuid request = .ok (.inl stored) := by
  obtain ⟨descriptor, hdescriptor, hextensions⟩ := h.descriptor
  have hagent := resolveDescriptor_eq_ok hdescriptor
  unfold Orchestrator.readDispatch
  constructor
  · intro message hfound
    simp [h.validated, hdescriptor, hextensions, hagent, hfound, bind, Except.bind]
  · intro stored hfound
    simp [h.validated, hdescriptor, hextensions, hagent, hfound, bind, Except.bind]

theorem planDispatch_error {message : String}
    (h : readDispatch env policy store uuid request = .error message) :
    planDispatch env policy store now hasCapacity uuid request = .error message := by
  simp [planDispatch, h, bind, Except.bind]

theorem planDispatch_inl (h : readDispatch env policy store uuid request = .ok (.inl stored)) :
    planDispatch env policy store now hasCapacity uuid request = .ok (.stored stored) := by
  simp [planDispatch, h, bind, Except.bind, pure, Except.pure]

/-- A dispatch that is refused logs so, and changes nothing. -/
theorem dispatch_error {faults : Faults} {q : AsyncTaskQueue Ready} {request : DispatchRequest}
    {message : String}
    (h : planDispatch env w.policy w.taskStore now (q.hasCapacity env.queueOptions) w.nextUuid
      request = .error message) :
    dispatch env now faults request (q, w) =
      (q, log (.threw w.nextCall .dispatch request.envelope.taskId (some message))
        { w with nextCall := w.nextCall + 1 }) := by
  simp [dispatch, h]

/-! ## The two lookups

By key first, then by task id. Each compares the requester, the capability and the agent before it
answers. -/

def byKey (store : TaskStore) (envelope : TaskEnvelope) : Option TaskRecord :=
  (resolveIdempotencyKey envelope).bind store.findByIdempotencyKey

def keyConflict (envelope : TaskEnvelope) : String :=
  "Idempotency key conflict: " ++ (resolveIdempotencyKey envelope).getD ""

def taskConflict (envelope : TaskEnvelope) : String := "Task id conflict: " ++ envelope.taskId

theorem lookupByKey_eq (store : TaskStore) (envelope : TaskEnvelope) (capability agentId : String) :
    lookupByKey store envelope capability agentId =
      lookupStored (byKey store envelope) (keyConflict envelope) envelope capability agentId := by
  unfold lookupByKey byKey keyConflict
  cases resolveIdempotencyKey envelope <;> rfl

theorem get_of_byKey (h : byKey store envelope = some record) :
    ∃ key t, resolveIdempotencyKey envelope = some key ∧
      store.idempotencyIndex.get key = some t ∧ store.get t = some record := by
  obtain ⟨key, hkey, hfind⟩ := Option.bind_eq_some_iff.mp h
  unfold TaskStore.findByIdempotencyKey at hfind
  split at hfind
  · cases hfind
  · rename_i t hindex
    split at hfind
    · cases hfind
    · exact ⟨key, t, hkey, hindex, hfind⟩

/-- Two dispatches by the same requester, for the same capability and agent. -/
structure SameIdentity (envelope : TaskEnvelope) (capability : String) (envelope' : TaskEnvelope)
    (capability' : String) : Prop where
  type       : envelope.requesterIdentity.type = envelope'.requesterIdentity.type
  id         : envelope.requesterIdentity.id = envelope'.requesterIdentity.id
  tenant     : TaskStore.resolveTenantId envelope.requesterIdentity.tenantId =
    TaskStore.resolveTenantId envelope'.requesterIdentity.tenantId
  capability : capability = capability'
  agent      : envelope.targetAgent = envelope'.targetAgent

/-- The dispatch that put the record there. -/
def CreatedAs (history : List Event) (record : TaskRecord) (envelope : TaskEnvelope)
    (capability : String) : Prop :=
  (∃ submission, Created history submission envelope capability) ∧ envelope.taskId = record.taskId

theorem Ledger.createdAs (h : Ledger env w) {t : String} (hget : w.taskStore.get t = some record) :
    ∃ envelope capability, CreatedAs w.history record envelope capability := by
  obtain ⟨submission, envelope, capability, hcreated, htask, -⟩ := (h.records t record hget).origin
  exact ⟨envelope, capability, ⟨submission, hcreated⟩,
    htask.trans (h.records t record hget).taskId.symm⟩

theorem Ledger.createdAs_unique (h : Ledger env w) {envelope envelope' : TaskEnvelope}
    {capability capability' : String} (hc : CreatedAs w.history record envelope capability)
    (hc' : CreatedAs w.history record envelope' capability') :
    envelope = envelope' ∧ capability = capability' := by
  obtain ⟨⟨_, hcreated⟩, htask⟩ := hc
  obtain ⟨⟨_, hcreated'⟩, htask'⟩ := hc'
  exact (h.created_unique hcreated hcreated' (htask.trans htask'.symm)).2

/-- **What a lookup decides.** A record on the ledger answers the dispatches of its creator's
identity, and refuses all others. -/
theorem Ledger.lookup (h : Ledger env w) {t : String} (hget : w.taskStore.get t = some record)
    (hc : CreatedAs w.history record creator created) (envelope : TaskEnvelope)
    (capability conflict : String) :
    (SameIdentity creator created envelope capability → ∃ stored, storedAnswer record = some stored ∧
      lookupStored (some record) conflict envelope capability envelope.targetAgent =
        .ok (some stored)) ∧
    (¬ SameIdentity creator created envelope capability →
      lookupStored (some record) conflict envelope capability envelope.targetAgent =
        .error conflict) := by
  have hrecord := h.records t record hget
  obtain ⟨submission, e, cap, hcreated, htask, hrequester, hcapability, hagent, -⟩ := hrecord.origin
  obtain ⟨rfl, rfl⟩ := h.createdAs_unique hc
    ⟨⟨submission, hcreated⟩, htask.trans hrecord.taskId.symm⟩
  obtain ⟨result, hresult, -⟩ := hrecord.result
  obtain ⟨receipt, hreceipt⟩ := hrecord.receipt
  obtain ⟨stored, hstored⟩ : ∃ stored, storedAnswer record = some stored := by
    unfold storedAnswer
    rw [hresult, hreceipt]
    dsimp only
    split <;> exact ⟨_, rfl⟩
  have hsame : ∃ same, sameIdentity record envelope capability envelope.targetAgent = .ok same ∧
      (same = true ↔ SameIdentity creator created envelope capability) := by
    refine ⟨_, by rw [sameIdentity, hrequester], ?_⟩
    simp only [hcapability, hagent, Bool.and_eq_true, beq_iff_eq, Option.some.injEq]
    constructor
    · rintro ⟨⟨⟨⟨htype, hid⟩, htenant⟩, hcap⟩, hag⟩
      exact ⟨htype, hid, htenant, hcap, hag⟩
    · rintro ⟨htype, hid, htenant, hcap, hag⟩
      exact ⟨⟨⟨⟨htype, hid⟩, htenant⟩, hcap⟩, hag⟩
  obtain ⟨same, hsame, hiff⟩ := hsame
  unfold lookupStored
  constructor
  · intro hidentity
    refine ⟨stored, hstored, ?_⟩
    obtain rfl := hiff.mpr hidentity
    simp [hsame, hstored, bind, Except.bind, pure, Except.pure]
  · intro hidentity
    obtain rfl : same = false := Bool.eq_false_iff.mpr (mt hiff.mp hidentity)
    simp [hsame, bind, Except.bind, throw, throwThe, MonadExceptOf.throw]

/-! ## The record that decides -/

/-- The record that a dispatch is held against: the one under its key, or else the one under its
task id. -/
inductive Found (store : TaskStore) (envelope : TaskEnvelope) (record : TaskRecord) : Prop
  | underKey (h : byKey store envelope = some record)
  | underTask (hkey : byKey store envelope = none) (h : store.get envelope.taskId = some record)

/-- The message of the conflict with that record. -/
def conflict (store : TaskStore) (envelope : TaskEnvelope) : String :=
  if (byKey store envelope).isSome then keyConflict envelope else taskConflict envelope

theorem Found.get (h : Found store envelope record) : ∃ t, store.get t = some record := by
  cases h with
  | underKey hkey =>
      obtain ⟨key, t, -, -, hget⟩ := get_of_byKey hkey
      exact ⟨t, hget⟩
  | underTask _ hget => exact ⟨_, hget⟩

/-- **What the two lookups decide together.** -/
theorem Ledger.findStored (h : Ledger env w) (hfound : Found w.taskStore envelope record)
    (hc : CreatedAs w.history record creator created) (capability : String) :
    (SameIdentity creator created envelope capability → ∃ stored, storedAnswer record = some stored ∧
      findStored w.taskStore envelope capability envelope.targetAgent = .ok (some stored)) ∧
    (¬ SameIdentity creator created envelope capability →
      findStored w.taskStore envelope capability envelope.targetAgent =
        .error (conflict w.taskStore envelope)) := by
  obtain ⟨t, hget⟩ := hfound.get
  unfold Orchestrator.findStored conflict
  rw [lookupByKey_eq]
  cases hfound with
  | underKey hkey =>
      obtain ⟨hsame, hother⟩ := h.lookup hget hc envelope capability (keyConflict envelope)
      rw [hkey]
      constructor
      · intro hidentity
        obtain ⟨stored, hstored, hlookup⟩ := hsame hidentity
        exact ⟨stored, hstored, by simp [hlookup, bind, Except.bind, pure, Except.pure]⟩
      · intro hidentity
        simp [hother hidentity, bind, Except.bind]
  | underTask hkey htask =>
      obtain ⟨hsame, hother⟩ := h.lookup hget hc envelope capability (taskConflict envelope)
      rw [hkey, htask]
      constructor
      · intro hidentity
        obtain ⟨stored, hstored, hlookup⟩ := hsame hidentity
        exact ⟨stored, hstored, hlookup⟩
      · exact hother

theorem findStored_none {store : TaskStore} {envelope : TaskEnvelope} {capability agentId : String}
    (h : ∀ record, ¬ Found store envelope record) :
    findStored store envelope capability agentId = .ok none := by
  have hkey : byKey store envelope = none := by
    cases hkey : byKey store envelope with
    | none => rfl
    | some record => exact absurd (.underKey hkey) (h record)
  have htask : store.get envelope.taskId = none := by
    cases htask : store.get envelope.taskId with
    | none => rfl
    | some record => exact absurd (.underTask hkey htask) (h record)
  unfold findStored
  rw [lookupByKey_eq, hkey, htask]
  rfl

theorem reads_of_plan {plan : DispatchPlan}
    (h : planDispatch env policy store now hasCapacity uuid request = .ok plan) :
    ∃ envelope, Reads env request envelope := by
  by_contra hnone
  obtain ⟨message, hread⟩ := readDispatch_unread (not_exists.mp hnone)
  rw [planDispatch_error (hread _ _ _)] at h
  cases h

theorem readDispatch_ne_inl (hreads : Reads env request envelope)
    (h : ∀ record, ¬ Found store envelope record) :
    readDispatch env policy store uuid request ≠ .ok (.inl stored) := by
  intro hread
  unfold Orchestrator.readDispatch at hread
  simp only [bind_eq_ok, hreads.validated, Except.ok.injEq, exists_eq_left',
    findStored_none h] at hread
  obtain ⟨_, _, _, _, hread⟩ := hread
  simp only [pure_eq_ok] at hread
  obtain ⟨_, _, _, _, hread⟩ := hread
  cases hread

/-- **A dispatch that is answered from the store** is answered with what the record holds that it
is held against. -/
theorem planDispatch_stored (h : Ledger env w) {hasCapacity : Bool} {uuid : Nat}
    {request : DispatchRequest} {stored : Stored}
    (hplan : planDispatch env w.policy w.taskStore now hasCapacity uuid request =
      .ok (.stored stored)) :
    ∃ envelope record creator created, Reads env request envelope ∧
      Found w.taskStore envelope record ∧ storedAnswer record = some stored ∧
      CreatedAs w.history record creator created ∧
      SameIdentity creator created envelope request.capability := by
  obtain ⟨envelope, hreads⟩ := reads_of_plan hplan
  by_cases hfound : ∃ record, Found w.taskStore envelope record
  · obtain ⟨record, hfound⟩ := hfound
    obtain ⟨t, hget⟩ := hfound.get
    obtain ⟨creator, created, hc⟩ := h.createdAs hget
    obtain ⟨hsame, hother⟩ := h.findStored hfound hc request.capability
    by_cases hidentity : SameIdentity creator created envelope request.capability
    · obtain ⟨stored', hstored, hlookup⟩ := hsame hidentity
      rw [planDispatch_inl ((hreads.readDispatch _ _ _).2 _ hlookup)] at hplan
      cases hplan
      exact ⟨envelope, record, creator, created, hreads, hfound, hstored, hc, hidentity⟩
    · rw [planDispatch_error ((hreads.readDispatch _ _ _).1 _ (hother hidentity))] at hplan
      cases hplan
  · exfalso
    unfold planDispatch at hplan
    simp only [bind_eq_ok] at hplan
    obtain ⟨read, hread, hplan⟩ := hplan
    cases read with
    | inl found => exact readDispatch_ne_inl hreads (not_exists.mp hfound) hread
    | inr ready => exact planSubmission_ne_stored hplan

/-! ## The index of the keys -/

/-- An index entry leads to the task that brought the key, and the task that brings a key keeps its
entry. -/
structure Keyed (w : Runtime) : Prop where
  named   : ∀ submission envelope capability, Created w.history submission envelope capability →
    envelope.taskId ≠ ""
  brought : ∀ key t, w.taskStore.idempotencyIndex.get key = some t →
    ∃ submission envelope capability, Created w.history submission envelope capability ∧
      envelope.taskId = t ∧ resolveIdempotencyKey envelope = some key
  kept    : ∀ submission envelope capability key, Created w.history submission envelope capability →
    resolveIdempotencyKey envelope = some key →
      w.taskStore.idempotencyIndex.get key = some envelope.taskId

theorem resolveIdempotencyKey_ne {key : String} (h : resolveIdempotencyKey envelope = some key) :
    key ≠ "" := by
  unfold resolveIdempotencyKey at h
  split at h
  · split at h
    · cases h
    · rename_i hblank
      cases h
      rintro rfl
      exact hblank rfl
  · cases h

/-- Moves that create nothing and leave the entries of the index. -/
theorem Keyed.of_index {w w' : Runtime} (h : Keyed w) (hsub : w.history ⊆ w'.history)
    (hcreated : ∀ submission envelope capability, Created w'.history submission envelope capability →
      Created w.history submission envelope capability)
    (hback : ∀ key t, w'.taskStore.idempotencyIndex.get key = some t →
      w.taskStore.idempotencyIndex.get key = some t)
    (hkeep : ∀ key t, t ≠ "" → w.taskStore.idempotencyIndex.get key = some t →
      w'.taskStore.idempotencyIndex.get key = some t) : Keyed w' where
  named _ _ _ hc := h.named _ _ _ (hcreated _ _ _ hc)
  brought key t hindex := by
    obtain ⟨submission, envelope, capability, hc, htask, hkey⟩ := h.brought key t (hback _ _ hindex)
    exact ⟨submission, envelope, capability, hc.mono hsub, htask, hkey⟩
  kept _ envelope _ key hc hkey := by
    have hold := hcreated _ _ _ hc
    exact hkeep _ _ (h.named _ _ _ hold) (h.kept _ _ _ _ hold hkey)

theorem Keyed.of_eq {w w' : Runtime} (h : Keyed w) (hsub : w.history ⊆ w'.history)
    (hcreated : ∀ submission envelope capability, Created w'.history submission envelope capability →
      Created w.history submission envelope capability)
    (hindex : w'.taskStore.idempotencyIndex = w.taskStore.idempotencyIndex) : Keyed w' := by
  refine h.of_index hsub hcreated ?_ ?_
  · intro key t hkey
    rwa [hindex] at hkey
  · intro key t _ hkey
    rwa [hindex]

theorem created_of_log {event : Event} (hnew : isCreation event = false)
    (hc : Created (log event w).history submission envelope capability) :
    Created w.history submission envelope capability := by
  refine @Created.of_append [event] w.history ?_ _ _ _ hc
  simp [hnew]

theorem created_of_suspend {call : Call}
    (hc : Created (suspend call w).history submission envelope capability) :
    Created w.history submission envelope capability := by
  obtain ⟨k, hmem⟩ := hc
  rcases suspend_logged hmem with hold | ⟨_, _, heq⟩
  · exact ⟨k, hold⟩
  · cases heq

/-- A task that is put on record takes its key, which no task had. -/
theorem Keyed.creates (h : Keyed w) (hledger : Ledger env w) {call uuid : Nat} {ready : Ready}
    {submitted : InvokeResult}
    (hp : Planned env w.policy w.taskStore now uuid request submission ready submitted) :
    Keyed { w with
      taskStore := w.taskStore.insert ((ready.saveParams submitted).toRecord now)
      history := createdEvent call submission ready :: w.history } := by
  have hindexed : ∀ key, ((ready.saveParams submitted).toRecord now).Indexed key ↔
      resolveIdempotencyKey ready.envelope = some key := by
    intro key
    have hkey : ((ready.saveParams submitted).toRecord now).idempotencyKey =
        resolveIdempotencyKey ready.envelope := hp.key
    unfold TaskRecord.Indexed
    rw [hkey]
    exact ⟨And.right, fun hkey => ⟨resolveIdempotencyKey_ne hkey, hkey⟩⟩
  have hcases : ∀ {submission' envelope capability},
      Created (createdEvent call submission ready :: w.history) submission' envelope capability →
      (submission' = submission ∧ envelope = ready.envelope ∧ capability = ready.capability) ∨
        Created w.history submission' envelope capability := by
    rintro submission' envelope capability ⟨k, hmem⟩
    rcases List.mem_cons.mp hmem with hnew | hold
    · cases hnew
      exact .inl ⟨rfl, rfl, rfl⟩
    · exact .inr ⟨k, hold⟩
  constructor
  · intro _ envelope _ hc
    rcases hcases hc with ⟨-, rfl, -⟩ | hold
    · exact (validateTaskEnvelope_eq_ok hp.validated).2.1
    · exact h.named _ _ _ hold
  · intro key t hkey
    dsimp only at hkey
    rw [TaskStore.get_index_insert] at hkey
    split at hkey
    · rename_i hnew
      cases hkey
      exact ⟨submission, _, _, ⟨call, List.mem_cons_self⟩, rfl, (hindexed key).mp hnew⟩
    · obtain ⟨submission', envelope, capability, hc, htask, hbrought⟩ := h.brought key t hkey
      exact ⟨submission', envelope, capability, hc.mono (List.subset_cons_self _ _), htask, hbrought⟩
  · intro _ envelope _ key hc hkey
    dsimp only
    rw [TaskStore.get_index_insert]
    rcases hcases hc with ⟨-, rfl, -⟩ | hold
    · rw [if_pos ((hindexed key).mpr hkey)]
      rfl
    · have hentry := h.kept _ _ _ _ hold hkey
      rw [if_neg, hentry]
      intro hnew
      exact hp.unindexed hledger (hp.key.trans ((hindexed key).mp hnew)) (h.named _ _ _ hold) hentry

theorem keyed_move {g : Guard} {w w' : Runtime} (hledger : Ledger env w) (h : Keyed w)
    (hm : Move env g now w w') : Keyed w' := by
  have hsub := hm.history_subset
  cases hm with
  | bookkeeping _ _ htasks _ hhistory =>
      refine h.of_eq hsub (fun _ _ _ hc => ?_) (by rw [htasks])
      rwa [hhistory] at hc
  | threw => exact h.of_eq hsub (fun _ _ _ hc => created_of_log rfl hc) rfl
  | answered => exact h.of_eq hsub (fun _ _ _ hc => created_of_log rfl hc) rfl
  | created hplanned => exact h.creates hledger hplanned
  | appended => exact h.of_eq hsub (fun _ _ _ hc => hc) rfl
  | withdrawn _ _ _ _ hindex hkeys => exact h.of_index hsub (fun _ _ _ hc => hc) hindex hkeys
  | suspended => exact h.of_eq hsub (fun _ _ _ hc => created_of_suspend hc) rfl
  | approved =>
      exact h.of_eq hsub (fun _ _ _ hc => created_of_log rfl (created_of_suspend hc)) rfl
  | settled =>
      refine h.of_eq hsub (fun _ _ _ hc => ?_) index_update
      exact hc.of_append fun event hevent => (returnedEvents_new event hevent).1
  | deadLettered => exact h.of_eq hsub (fun _ _ _ hc => hc) index_update
  | cancelled _ hevent =>
      refine h.of_eq hsub (fun _ _ _ hc => ?_) index_update
      refine created_of_log (w := w) ?_ hc
      cases hevent <;> rfl
  | policySet => exact h.of_eq hsub (fun _ _ _ hc => hc) rfl

theorem init_keyed (env : OrchestratorEnv) (policy : PolicyDocument)
    (deadLetters : List DeadLetterRecord) (now : Millis) :
    Keyed (init env policy deadLetters now).outer where
  named _ _ _ hc := by
    obtain ⟨_, hmem⟩ := hc
    cases hmem
  brought _ _ hindex := by cases hindex
  kept _ _ _ _ hc := by
    obtain ⟨_, hmem⟩ := hc
    cases hmem

theorem run_keyed {s : World} (hledger : WorldLedger env s) (h : Keyed s.outer) (ls : List Label) :
    Keyed (run env s ls).outer :=
  (run_of_moves (g := .any) (fun _ _ _ hw hk hm => keyed_move hw hk hm) hledger h
    (Transition.stepsMeet_of_forall (allowed_any env) s ls)).2

/-- The record under a key is the one of the task that brought the key. -/
theorem Keyed.creator_key (h : Keyed w) (hledger : Ledger env w)
    (hfound : byKey w.taskStore envelope = some record)
    (hc : CreatedAs w.history record creator created) :
    resolveIdempotencyKey creator = resolveIdempotencyKey envelope := by
  obtain ⟨key, t, hkey, hindex, hget⟩ := get_of_byKey hfound
  obtain ⟨submission, brought, capability, hcreated, htask, hbrought⟩ := h.brought key t hindex
  have hid := (hledger.records t record hget).taskId
  obtain ⟨rfl, -⟩ := hledger.createdAs_unique hc ⟨⟨submission, hcreated⟩, htask.trans hid.symm⟩
  rw [hbrought, hkey]

end Orchestrator

end MapProtocol
