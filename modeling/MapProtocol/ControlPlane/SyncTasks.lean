import MapProtocol.ControlPlane.Answers
import MapProtocol.ControlPlane.Effects

/-!
# Synchronous tasks

The adapter of a synchronous task is started in the turn that creates the task, and the call that
waits for it is the only one that may end the task; a cancellation can revoke it before. Once the
task is at an end its record stands still, so that whoever is answered about it gets the same.
-/

namespace MapProtocol

open Js

namespace Orchestrator

variable {env : OrchestratorEnv} {g : Guard} {now : Millis} {faults : Faults}
variable {w w' : Runtime} {t : String} {record : TaskRecord}

/-- The tasks of the dispatches that wait for the executor. -/
def syncCalls (w : Runtime) : List String :=
  (w.calls.filter (·.origin = .dispatch)).map (·.envelope.taskId)

/-- The task whose adapter a dispatch started. -/
def syncRun : Event → Option String
  | .executed _ .dispatch t _ _ => some t
  | _                           => none

/-- The tasks whose adapters were started by a dispatch. -/
def syncRuns (w : Runtime) : List String := w.history.filterMap syncRun

/-- The task may still be ended by the call that waits for its adapter. -/
def Pending (w : Runtime) (t : String) : Prop :=
  ∃ record, w.taskStore.get t = some record ∧
    (record.status = .accepted ∨ record.status = .revoked)

/-- The outcome is what the record of its task holds, and the task is at an end. -/
def Settled (w : Runtime) (outcome : InvokeResult) : Prop :=
  ∃ record, w.taskStore.get outcome.result.taskId = some record ∧
    isTerminal record.status = true ∧ record.result = some outcome.result ∧
    record.receipt = some outcome.receipt

def SyncTask (w : Runtime) (t : String) : Prop :=
  ∃ envelope capability, Created w.history .sync envelope capability ∧ envelope.taskId = t

/-- **Synchronous tasks run once**, and are answered about from their records. -/
structure RunOnce (w : Runtime) : Prop where
  runs     : (syncRuns w).Nodup
  calls    : (syncCalls w).Nodup
  pending  : ∀ t ∈ syncCalls w, Pending w t
  answered : ∀ k outcome, .answered k outcome ∈ w.history →
    SyncTask w outcome.result.taskId → Settled w outcome

/-! ## Records at an end

Once its record is at an end a task can no longer change its outcome. -/

/-- No call of the task ends it, unless it was revoked. -/
def sparesTask (t : String) : Guard :=
  { Guard.any with completes := fun w call _ => call.envelope.taskId = t →
      ∃ record, w.taskStore.get t = some record ∧ record.status = .revoked }

theorem SyncTask.mono (hsub : w.history ⊆ w'.history) (h : SyncTask w t) : SyncTask w' t := by
  obtain ⟨envelope, capability, hc, htask⟩ := h
  exact ⟨envelope, capability, hc.mono hsub, htask⟩

theorem SyncTask.origin (h : SyncTask w t) (hledger : Ledger env w) {call : Call}
    (hcall : call ∈ w.calls) (htask : call.envelope.taskId = t) : call.origin = .dispatch := by
  obtain ⟨envelope, capability, hc, hid⟩ := h
  obtain ⟨envelope', capability', hc', hid'⟩ := (hledger.calls call hcall).1.created
  have hsame := (hledger.created_unique hc hc' ((hid.trans htask.symm).trans hid'.symm)).1
  cases horigin : call.origin with
  | dispatch => rfl
  | approve reference => simp [horigin, originSubmission] at hsame
  | job id => simp [horigin, originSubmission] at hsame

theorem get_update_kept {store : TaskStore} {fault : Option String} {t t' : String}
    {outcome : InvokeResult} (hget : store.get t = some record)
    (hrefuses : t' = t → ¬ Accepts record outcome) :
    (store.update now fault t' (outcomeUpdate outcome)).2.get t = some record := by
  obtain ⟨record', hget'⟩ : ∃ record',
      (store.update now fault t' (outcomeUpdate outcome)).2.get t = some record' :=
    get_update_of_get hget
  rcases get_update_outcome hget' with hold | ⟨old, rfl, hold, haccepts, rfl⟩
  · rw [hget', ← hold, hget]
  · obtain rfl : record = old := Option.some.inj (hget.symm.trans hold)
    exact absurd haccepts (hrefuses rfl)

/-- The outcome of a dispatch's call has the adapter's status. -/
theorem Ledger.sync_status {w : Runtime} (h : Ledger env w) {call : Call} (hcall : call ∈ w.calls)
    (horigin : call.origin = .dispatch) {outcome : Except Rejection ExecutionResult}
    {coreResult : CoreResult} {uuid : Nat} {normalized : InvokeResult}
    (hanswer : settledAnswer call.invocation outcome = .ok coreResult)
    (hnormalized : normalizeCoreResult env now uuid coreResult call.envelope call.capability
      call.negotiation = .ok normalized) :
    (Origin.stamp call.origin normalized).result.status = .completed ∨
      (Origin.stamp call.origin normalized).result.status = .failed := by
  rw [Origin.stamp_result, (normalizeCoreResult_eq_ok.mp hnormalized).1]
  cases coreResult with
  | receipt receipt =>
      -- only the intents of jobs are refused
      obtain ⟨⟨id, hjob⟩, -⟩ := (h.calls call hcall).1.refused receipt
        (settledAnswer_receipt hanswer)
      cases horigin.symm.trans hjob
  | result execResult =>
      show statusOfResult execResult.status = .completed ∨ statusOfResult execResult.status = .failed
      cases execResult.status with
      | ok => exact .inl rfl
      | error => exact .inr rfl

theorem not_accepts_of_terminal {record : TaskRecord} {outcome : InvokeResult}
    (hterminal : isTerminal record.status = true)
    (hstatus : record.status ≠ outcome.result.status) : ¬ Accepts record outcome := by
  intro haccepts
  rcases haccepts.status with ⟨hsame, -⟩ | ⟨-, hlive, -⟩
  · exact hstatus hsame
  · rw [hterminal] at hlive
    cases hlive

/-- **What can happen to a synchronous task** while its own call does not end it: nothing, or it is
revoked. -/
theorem Move.spares (hledger : Ledger env w) (hm : Move env (sparesTask t) now w w')
    (hsync : SyncTask w t) (hget : w.taskStore.get t = some record) :
    w'.taskStore.get t = some record ∨ isTerminal record.status = false ∧
      ∃ record', w'.taskStore.get t = some record' ∧ record'.status = .revoked := by
  cases hm with
  | bookkeeping _ _ htasks => exact .inl (by rw [htasks, hget])
  | @created _ _ _ _ ready _ hplanned =>
      left
      show (w.taskStore.insert _).get t = _
      rw [TaskStore.get_insert]
      split
      · rename_i hid
        have hid : ready.envelope.taskId = t := hid
        have habsent := hplanned.absent hledger
        rw [hid, hget] at habsent
        cases habsent
      · exact hget
  | withdrawn _ _ _ htasks =>
      left
      unfold TaskStore.get at hget ⊢
      dsimp only
      rw [htasks, hget]
  | settled hcall hanswer hguard hcalls hnormalized =>
      refine .inl (get_update_kept hget fun htask => ?_)
      obtain ⟨record', hget', hrevoked⟩ := hguard htask
      obtain rfl : record = record' := Option.some.inj (hget.symm.trans hget')
      -- a revoked task takes no result of an adapter
      refine not_accepts_of_terminal (by simp [hrevoked, isTerminal]) ?_
      rw [hrevoked]
      rcases hledger.sync_status hcall (hsync.origin hledger hcall htask) hanswer hnormalized with
        hstatus | hstatus <;> simp [hstatus]
  | deadLettered hcreated =>
      refine .inl (get_update_kept hget fun htask => ?_)
      obtain ⟨envelope, capability, hc, hid⟩ := hsync
      cases (hledger.created_unique hc hcreated (hid.trans htask.symm)).1
  | @cancelled taskId _ outcome old fault _ hcancellable =>
      by_cases htask : taskId = t
      · subst htask
        obtain rfl : record = old := Option.some.inj (hget.symm.trans hcancellable.found)
        have hlive : isTerminal record.status = false := by
          have hstatus := hcancellable.status
          simp only [cancellableStates, List.mem_cons, List.not_mem_nil, or_false] at hstatus
          rcases hstatus with h | h | h | h <;> rw [h] <;> rfl
        obtain ⟨record', hget'⟩ : ∃ record', (w.taskStore.update now fault taskId
          (outcomeUpdate outcome)).2.get taskId = some record' := get_update_of_get hget
        rcases get_update_outcome hget' with hold | ⟨_, -, -, -, rfl⟩
        · exact .inl (hget'.trans (hold.symm.trans hget))
        · refine .inr ⟨hlive, _, hget', ?_⟩
          show outcome.result.status = .revoked
          rw [hcancellable.result]
          rfl
      · exact .inl (get_update_kept hget fun heq => absurd heq htask)
  | threw => exact .inl hget
  | answered => exact .inl hget
  | appended => exact .inl hget
  | suspended => exact .inl hget
  | approved => exact .inl hget
  | policySet => exact .inl hget

/-- A turn that spares a synchronous task. -/
theorem spares_step {s : World} (hledger : WorldLedger env s) {l : Label}
    (hallowed : Allowed (sparesTask t) env s l) (hsync : SyncTask s.outer t)
    (hget : s.outer.taskStore.get t = some record) :
    (step env s l).outer.taskStore.get t = some record ∨ isTerminal record.status = false ∧
      ∃ record', (step env s l).outer.taskStore.get t = some record' ∧
        record'.status = .revoked := by
  have hboth : SyncTask (step env s l).outer t ∧
      ((step env s l).outer.taskStore.get t = some record ∨ isTerminal record.status = false ∧
        ∃ record', (step env s l).outer.taskStore.get t = some record' ∧
          record'.status = .revoked) := by
    refine moves_invariant (I := fun w => SyncTask w t ∧ (w.taskStore.get t = some record ∨
      isTerminal record.status = false ∧ ∃ record', w.taskStore.get t = some record' ∧
        record'.status = .revoked)) ?_ hledger.ledger ⟨hsync, .inl hget⟩
      (step_moves hledger hallowed).1
    rintro now w w' hw ⟨hsync, hrecord⟩ hm
    refine ⟨hsync.mono hm.history_subset, ?_⟩
    rcases hrecord with hsame | ⟨hlive, record', hget', hrevoked⟩
    · exact hm.spares hw hsync hsame
    -- a revoked task stays revoked
    · rcases hm.spares hw hsync hget' with hsame | ⟨hlive', -⟩
      · exact .inr ⟨hlive, record', hsame, hrevoked⟩
      · simp [hrevoked, isTerminal] at hlive'
  exact hboth.2

/-! ## Answers

A caller is told what the record holds: by the call that wrote it, or later by a look at the
store. -/

/-- Every answer is about a task that was created. -/
def AnswersKnown (w : Runtime) : Prop :=
  ∀ k outcome, .answered k outcome ∈ w.history → ∃ submission envelope capability,
    Created w.history submission envelope capability ∧ envelope.taskId = outcome.result.taskId

theorem answersKnown_move (hledger : Ledger env w) (hnamed : ResultsNamed w) (h : AnswersKnown w)
    (hm : Move env g now w w') : AnswersKnown w' := by
  intro k outcome hanswered
  rcases hm.logged hanswered with hold | hlogged
  · obtain ⟨submission, envelope, capability, hc, htask⟩ := h k outcome hold
    exact ⟨submission, envelope, capability, hc.mono hm.history_subset, htask⟩
  · cases hlogged with
    | @answered _ _ t record hget hresult hreceipt =>
        obtain ⟨submission, envelope, capability, hc, htask, -⟩ := (hledger.records _ _ hget).origin
        refine ⟨submission, envelope, capability, hc.mono hm.history_subset, ?_⟩
        rw [htask, hnamed t record hget _ hresult]

/-- What the proofs about synchronous tasks rest on. -/
structure Tracked (env : OrchestratorEnv) (s : World) : Prop where
  ledger : WorldLedger env s
  named  : ResultsNamed s.outer
  traced : Traced s.outer.history
  known  : AnswersKnown s.outer
  once   : RunOnce s.outer

section Step

variable {s : World} {w w' : Runtime} {t : String}
variable {id : Nat} {call : Call} {outcome : InvokeResult} {record : TaskRecord}
  {events : List Event}

theorem Unheard.syncRun {event : Event} (h : Unheard event) : syncRun event = none := by
  unfold Orchestrator.syncRun
  split
  · exact absurd h id
  · rfl

theorem syncRuns_append (events : List Event) (hhistory : w'.history = events ++ w.history)
    (hnone : ∀ event ∈ events, syncRun event = none) : syncRuns w' = syncRuns w := by
  unfold syncRuns
  rw [hhistory, List.filterMap_append, List.filterMap_eq_nil_iff.mpr hnone, List.nil_append]

theorem syncCalls_of_started {started : List Call} (hcalls : w'.calls = w.calls ++ started)
    (horigin : ∀ call ∈ started, call.origin ≠ .dispatch) : syncCalls w' = syncCalls w := by
  have hnone : started.filter (·.origin = .dispatch) = [] :=
    List.filter_eq_nil_iff.mpr fun call hcall => by simpa using horigin call hcall
  unfold syncCalls
  rw [hcalls, List.filter_append, hnone, List.append_nil]

theorem Tracked.call_task (h : Tracked env s) (ht : t ∈ syncCalls s.outer) : SyncTask s.outer t := by
  obtain ⟨call, hcall, htask⟩ := List.mem_map.mp ht
  obtain ⟨hmem, horigin⟩ := List.mem_filter.mp hcall
  obtain ⟨envelope, capability, hc, hid⟩ := (h.ledger.ledger.calls call hmem).1.created
  rw [of_decide_eq_true horigin] at hc
  exact ⟨envelope, capability, hc, hid.trans htask⟩

theorem Tracked.run_task (h : Tracked env s) (ht : t ∈ syncRuns s.outer) : SyncTask s.outer t := by
  obtain ⟨event, hevent, hrun⟩ := List.mem_filterMap.mp ht
  unfold syncRun at hrun
  split at hrun
  · cases hrun
    obtain ⟨envelope, capability, hc, htask⟩ := h.traced _ hevent _ _ rfl
    exact ⟨envelope, capability, hc, htask⟩
  · cases hrun

theorem SyncTask.onRecord (hledger : Ledger env w) (h : SyncTask w t) :
    ∃ record, w.taskStore.get t = some record := by
  obtain ⟨envelope, capability, hc, htask⟩ := h
  obtain ⟨record, hget⟩ := hledger.onRecord _ _ _ hc
  exact ⟨record, htask ▸ hget⟩

theorem spares_or_ends (s : World) (l : Label) (t : String) :
    Allowed (sparesTask t) env s l ∨ ∃ id outcome faults call, l = .resume id outcome faults ∧
      s.outer.calls.find? (·.id == id) = some call ∧ call.envelope.taskId = t ∧
      ¬ ∃ record, s.outer.taskStore.get t = some record ∧ record.status = .revoked := by
  by_cases hallowed : Allowed (sparesTask t) env s l
  · exact .inl hallowed
  · right
    cases l with
    | resume id outcome faults =>
        unfold Allowed at hallowed
        push Not at hallowed
        obtain ⟨call, coreResult, hfound, -, hends⟩ := hallowed
        refine ⟨id, outcome, faults, call, rfl, hfound, ?_⟩
        exact Classical.not_imp.mp hends
    | dispatch request faults => exact absurd (by simp [Allowed, sparesTask, Guard.any]) hallowed
    | approve request => exact absurd (by simp [Allowed, sparesTask, Guard.any]) hallowed
    | setPolicy policy => exact absurd (by simp [Allowed, sparesTask, Guard.any]) hallowed
    | cancelTask taskId tenantId faults => exact absurd trivial hallowed
    | poll id => exact absurd trivial hallowed
    | jobSettles id faults => exact absurd trivial hallowed
    | queue turn faults => exact absurd trivial hallowed
    | tick ms => exact absurd trivial hallowed

theorem SyncTask.call_mem (h : SyncTask w t) (hledger : Ledger env w)
    (hfound : w.calls.find? (·.id == id) = some call) (htask : call.envelope.taskId = t) :
    t ∈ syncCalls w := by
  obtain ⟨hcall, -⟩ := find_call hfound
  refine List.mem_map.mpr ⟨call, List.mem_filter.mpr ⟨hcall, ?_⟩, htask⟩
  simp [h.origin hledger hcall htask]

/-- **Who was answered about a synchronous task was told its end.** -/
theorem Tracked.settled_step (h : Tracked env s) (l : Label)
    (hsync : SyncTask s.outer outcome.result.taskId) (hsettled : Settled s.outer outcome) :
    Settled (step env s l).outer outcome := by
  obtain ⟨record, hget, hterminal, hresult, hreceipt⟩ := hsettled
  have hallowed : Allowed (sparesTask outcome.result.taskId) env s l := by
    rcases spares_or_ends s l outcome.result.taskId with
      hallowed | ⟨id, answer, faults, call, -, hfound, htask, hnot⟩
    · exact hallowed
    · -- the task has ended, so the call that still waits for it finds it revoked
      obtain ⟨record', hget', hstatus⟩ :=
        h.once.pending _ (hsync.call_mem h.ledger.ledger hfound htask)
      obtain rfl : record = record' := Option.some.inj (hget.symm.trans hget')
      rcases hstatus with haccepted | hrevoked
      · simp [haccepted, isTerminal] at hterminal
      · exact absurd ⟨record, hget, hrevoked⟩ hnot
  rcases spares_step h.ledger hallowed hsync hget with hsame | ⟨hlive, -⟩
  · exact ⟨record, hsame, hterminal, hresult, hreceipt⟩
  · rw [hterminal] at hlive
    cases hlive

/-- A task stays pending, unless its call ends. -/
theorem Tracked.pending_step (h : Tracked env s) {l : Label} (ht : t ∈ syncCalls s.outer)
    (hallowed : Allowed (sparesTask t) env s l) : Pending (step env s l).outer t := by
  obtain ⟨record, hget, hstatus⟩ := h.once.pending t ht
  rcases spares_step h.ledger hallowed (h.call_task ht) hget with
    hsame | ⟨-, record', hget', hrevoked⟩
  · exact ⟨record, hsame, hstatus⟩
  · exact ⟨record', hget', .inr hrevoked⟩

theorem SyncTask.earlier (hledger' : Ledger env w') (hsub : w.history ⊆ w'.history)
    {submission : Submission} {envelope : TaskEnvelope} {capability : String}
    (hc : Created w.history submission envelope capability) (htask : envelope.taskId = t)
    (h : SyncTask w' t) : SyncTask w t := by
  obtain ⟨envelope', capability', hc', htask'⟩ := h
  obtain ⟨rfl, rfl, rfl⟩ := hledger'.created_unique (hc.mono hsub) hc' (htask.trans htask'.symm)
  exact ⟨envelope, capability, hc, htask⟩

theorem settled_of_stored (hledger : Ledger env w) (hnamed : ResultsNamed w)
    (hget : w.taskStore.get t = some record)
    (hstored : storedAnswer record = some (.answer outcome))
    (hsync : SyncTask w outcome.result.taskId) : Settled w outcome := by
  obtain ⟨hresult, hreceipt⟩ := storedAnswer_answer hstored
  have htask : outcome.result.taskId = t := hnamed t record hget _ hresult
  refine ⟨record, htask ▸ hget, ?_, hresult, hreceipt⟩
  obtain ⟨envelope, capability, hc, hid⟩ := hsync
  obtain ⟨submission, envelope', capability', hc', hid', -, -, -, hfits⟩ :=
    (hledger.records t record hget).origin
  obtain ⟨rfl, -, -⟩ := hledger.created_unique hc hc' ((hid.trans htask).trans hid'.symm)
  rcases hfits with haccepted | hend
  · -- an accepted task is waited for
    have haccepted : record.status = .accepted := haccepted
    simp [storedAnswer, hresult, hreceipt, haccepted] at hstored
  · exact hend.isTerminal

/-- Earlier answers need no second look. -/
theorem Tracked.once_of (h : Tracked env s) (l : Label) (hruns : (syncRuns (step env s l).outer).Nodup)
    (hcalls : (syncCalls (step env s l).outer).Nodup)
    (hpending : ∀ t ∈ syncCalls (step env s l).outer, Pending (step env s l).outer t)
    (hanswers : ∀ k outcome, .answered k outcome ∈ (step env s l).outer.history →
      .answered k outcome ∈ s.outer.history ∨
        (SyncTask (step env s l).outer outcome.result.taskId →
          Settled (step env s l).outer outcome)) :
    RunOnce (step env s l).outer := by
  refine ⟨hruns, hcalls, hpending, fun k outcome hanswered hsync => ?_⟩
  obtain ⟨hmoves, hledger'⟩ := step_moves h.ledger (allowed_any env s l)
  rcases hanswers k outcome hanswered with hold | hnew
  · obtain ⟨submission, envelope, capability, hc, htask⟩ := h.known k outcome hold
    have hbefore := hsync.earlier hledger'.ledger (moves_history_subset hmoves) hc htask
    exact h.settled_step l hbefore (h.once.answered k outcome hold hbefore)
  · exact hnew hsync

/-- A turn after which the same dispatches wait, and no adapter was started by one. -/
theorem Tracked.once_of_same (h : Tracked env s) {l : Label}
    (hlabel : ∀ id outcome faults, l ≠ .resume id outcome faults)
    (hruns : syncRuns (step env s l).outer = syncRuns s.outer)
    (hcalls : syncCalls (step env s l).outer = syncCalls s.outer)
    (hanswers : ∀ k outcome, .answered k outcome ∈ (step env s l).outer.history →
      .answered k outcome ∈ s.outer.history ∨
        (SyncTask (step env s l).outer outcome.result.taskId →
          Settled (step env s l).outer outcome)) :
    RunOnce (step env s l).outer := by
  refine h.once_of l (hruns ▸ h.once.runs) (hcalls ▸ h.once.calls) (fun t ht => ?_) hanswers
  rw [hcalls] at ht
  rcases spares_or_ends s l t with hallowed | ⟨id, outcome, faults, -, hends, -⟩
  · exact h.pending_step ht hallowed
  · exact absurd hends (hlabel id outcome faults)

/-- The turn that creates a synchronous task starts its adapter, and nobody else's. -/
theorem Tracked.once_of_executes (h : Tracked env s) {request : DispatchRequest} {faults : Faults}
    {uuid : Nat} {ready : Ready} {submitted : InvokeResult} {waiting : Call} {w₁ : Runtime}
    (hp : Planned env s.outer.policy s.outer.taskStore s.now uuid request .sync ready submitted)
    (hnumbered : w₁ = { s.outer with
      nextCall := s.outer.nextCall + 1, nextUuid := s.outer.nextUuid + 2 })
    (hexecutes : Executes s.now w₁ ready submitted waiting
      (step env s (.dispatch request faults)).outer) :
    RunOnce (step env s (.dispatch request faults)).outer := by
  have habsent := hp.absent h.ledger.ledger
  have hfresh : ¬ SyncTask s.outer ready.envelope.taskId := by
    intro hsync
    obtain ⟨record, hget⟩ := hsync.onRecord h.ledger.ledger
    rw [habsent] at hget
    cases hget
  obtain ⟨last, hlast, htail, hlogged⟩ := suspend_logs waiting
    (recorded s.now ready submitted (log (createdEvent waiting.id .sync ready) w₁))
  have hhistory : (step env s (.dispatch request faults)).outer.history =
      last ++ createdEvent waiting.id .sync ready :: s.outer.history := by
    rw [hexecutes.suspends, hlast, hnumbered]
    rfl
  have hcalls : syncCalls (step env s (.dispatch request faults)).outer =
      syncCalls s.outer ++ [ready.envelope.taskId] := by
    rw [hexecutes.suspends, hnumbered]
    simp [syncCalls, suspend, recorded, log, hexecutes.origin, hexecutes.envelope]
  have hget : (step env s (.dispatch request faults)).outer.taskStore.get ready.envelope.taskId =
      some ((ready.saveParams submitted).toRecord s.now) := by
    rw [hexecutes.suspends]
    exact get_recorded
  refine h.once_of _ ?_ ?_ ?_ ?_
  · have hsingle : last.filterMap syncRun = [] ∨
        last.filterMap syncRun = [ready.envelope.taskId] := by
      -- the start of the adapter is logged if the executor got that far
      cases last with
      | nil => exact .inl rfl
      | cons event rest =>
          obtain rfl : rest = [] := htail
          obtain ⟨_, _, -, rfl⟩ := hlogged event List.mem_cons_self
          rw [hexecutes.origin, hexecutes.envelope]
          exact .inr rfl
    unfold syncRuns
    rw [hhistory, List.filterMap_append]
    have hnone : syncRun (createdEvent waiting.id .sync ready) = none := rfl
    rw [List.filterMap_cons, hnone]
    rcases hsingle with hnil | hone
    · rw [hnil]
      exact h.once.runs
    · rw [hone]
      exact List.nodup_cons.mpr ⟨fun hmem => hfresh (h.run_task hmem), h.once.runs⟩
  · rw [hcalls]
    refine List.nodup_append.mpr ⟨h.once.calls, by simp, ?_⟩
    rintro t ht t' ht' rfl
    rw [List.mem_singleton.mp ht'] at ht
    exact hfresh (h.call_task ht)
  · intro t ht
    rw [hcalls] at ht
    rcases List.mem_append.mp ht with hold | hnew
    · exact h.pending_step hold (by simp [Allowed, sparesTask, Guard.any])
    · rw [List.mem_singleton.mp hnew]
      -- the new task waits for its own call
      exact ⟨_, hget, .inl hp.status⟩
  · intro k outcome hanswered
    rw [hhistory] at hanswered
    rcases List.mem_append.mp hanswered with hnew | hold
    · obtain ⟨_, _, -, heq⟩ := hlogged _ hnew
      cases heq
    · exact .inl (List.mem_of_ne_of_mem (by simp [createdEvent]) hold)

/-- A call that ends waits no more, and its task may end with it. -/
theorem Tracked.once_of_over (h : Tracked env s) {id : Nat}
    {outcome : Except Rejection ExecutionResult} {faults : Faults} {call : Call}
    {events : List Event}
    (hover : Over s.outer (step env s (.resume id outcome faults)).outer id call events)
    (hruns : syncRuns (step env s (.resume id outcome faults)).outer = syncRuns s.outer)
    (hanswers : ∀ k outcome', .answered k outcome' ∈
        (step env s (.resume id outcome faults)).outer.history →
      .answered k outcome' ∈ s.outer.history ∨
        (SyncTask (step env s (.resume id outcome faults)).outer outcome'.result.taskId →
          Settled (step env s (.resume id outcome faults)).outer outcome')) :
    RunOnce (step env s (.resume id outcome faults)).outer := by
  obtain ⟨l₁, l₂, hsplit, herase⟩ := AsyncTaskQueue.find?_split hover.found
  have hcalls : (step env s (.resume id outcome faults)).outer.calls = l₁ ++ l₂ :=
    hover.calls.trans herase
  have hsublist : (syncCalls (step env s (.resume id outcome faults)).outer).Sublist
      (syncCalls s.outer) := by
    unfold syncCalls
    rw [hover.calls]
    exact (List.eraseP_sublist.filter _).map _
  refine h.once_of _ (hruns ▸ h.once.runs) (h.once.calls.sublist hsublist) ?_ hanswers
  intro t ht
  rcases spares_or_ends s (.resume id outcome faults) t with
    hallowed | ⟨id', outcome', faults', call', hlabel, hfound, htask, -⟩
  · exact h.pending_step (hsublist.subset ht) hallowed
  · -- the call of the task is the one that is over, and it was the only one
    exfalso
    cases hlabel
    obtain rfl : call = call' := Option.some.inj (hover.found.symm.trans hfound)
    have horigin := (h.call_task (hsublist.subset ht)).origin h.ledger.ledger
      (find_call hfound).1 htask
    have hnodup := h.once.calls
    unfold syncCalls at hnodup ht
    rw [hcalls] at ht
    rw [hsplit] at hnodup
    simp only [List.filter_append, List.filter_cons, horigin, decide_true, if_true, List.map_append,
      List.map_cons, htask] at hnodup ht
    have hfirst := List.perm_middle.nodup_iff.mp hnodup
    exact (List.nodup_cons.mp hfirst).1 ht

/-- An answer that a record gives. -/
theorem Tracked.stored_answer (h : Tracked env s) (hget : s.outer.taskStore.get t = some record)
    (hstored : storedAnswer record = some (.answer outcome)) (l : Label)
    (hsync : SyncTask (step env s l).outer outcome.result.taskId) :
    Settled (step env s l).outer outcome := by
  obtain ⟨hmoves, hledger'⟩ := step_moves h.ledger (allowed_any env s l)
  obtain ⟨submission, envelope, capability, hc, htask, -⟩ :=
    (h.ledger.ledger.records t record hget).origin
  have hid : outcome.result.taskId = t :=
    h.named t record hget _ (storedAnswer_answer hstored).1
  have hbefore := hsync.earlier hledger'.ledger (moves_history_subset hmoves) hc
    (htask.trans hid.symm)
  exact h.settled_step l hbefore
    (settled_of_stored h.ledger.ledger h.named hget hstored hbefore)

/-- What a look at the store leaves as it is. -/
theorem Polled.frame (hp : Polled w id w') :
    syncCalls w' = syncCalls w ∧ syncRuns w' = syncRuns w ∧
      ∀ k outcome, .answered k outcome ∈ w'.history → .answered k outcome ∈ w.history ∨
        ∃ t record, w.taskStore.get t = some record ∧
          storedAnswer record = some (.answer outcome) := by
  cases hp with
  | absent => exact ⟨rfl, rfl, fun _ _ hanswered => .inl hanswered⟩
  | timedOut hfound =>
      exact ⟨rfl, rfl, fun _ _ hanswered => .inl (List.mem_of_ne_of_mem (by simp) hanswered)⟩
  | answered hfound hget hstored =>
      refine ⟨rfl, rfl, fun k outcome hanswered => ?_⟩
      rcases List.mem_cons.mp hanswered with hnew | hold
      · cases hnew
        exact .inr ⟨_, _, hget, hstored⟩
      · exact .inl hold
  | waits hfound => exact ⟨rfl, rfl, fun _ _ hanswered => .inl hanswered⟩

theorem answered_before (hhistory : w'.history = events ++ w.history)
    (hunheard : ∀ event ∈ events, Unheard event) {k : Nat}
    (hanswered : .answered k outcome ∈ w'.history) : .answered k outcome ∈ w.history := by
  rw [hhistory] at hanswered
  exact answered_of_unheard hunheard hanswered

theorem syncRuns_unheard (hhistory : w'.history = events ++ w.history)
    (hunheard : ∀ event ∈ events, Unheard event) : syncRuns w' = syncRuns w :=
  syncRuns_append events hhistory fun event hevent => (hunheard event hevent).syncRun

theorem syncRuns_answered {k : Nat}
    (hhistory : w'.history = .answered k outcome :: (events ++ w.history))
    (hunheard : ∀ event ∈ events, Unheard event) : syncRuns w' = syncRuns w := by
  refine syncRuns_append (.answered k outcome :: events) hhistory fun event hevent => ?_
  rcases List.mem_cons.mp hevent with rfl | hold
  · rfl
  · exact (hunheard event hold).syncRun

/-- A task that is answered as soon as it is submitted was not submitted synchronously. -/
theorem Tracked.once_atOnce (h : Tracked env s) {request : DispatchRequest} {faults : Faults}
    {submission : Submission} {ready : Ready} {outcome : InvokeResult}
    (hplan : planDispatch env s.outer.policy s.outer.taskStore s.now
      (s.queue.hasCapacity env.queueOptions) s.outer.nextUuid request =
        .ok (.submit submission ready outcome))
    (hlater : submission ≠ .sync)
    (hatOnce : AnswersAtOnce s.outer s.outer.nextCall submission ready outcome
      (step env s (.dispatch request faults)).outer) :
    RunOnce (step env s (.dispatch request faults)).outer := by
  obtain ⟨w₁, hstill, heq⟩ := hatOnce.before
  obtain ⟨events, hevents, hunheard⟩ := hstill.history
  have hhistory : (step env s (.dispatch request faults)).outer.history =
      .answered s.outer.nextCall outcome :: (events ++ s.outer.history) := by
    rw [heq]
    exact congrArg (List.cons _) hevents
  refine h.once_of_same (by simp) (syncRuns_answered hhistory hunheard) ?_
    fun k outcome' hanswered => ?_
  · rw [heq]
    unfold syncCalls
    rw [← hstill.calls]
    rfl
  · rw [hhistory] at hanswered
    rcases List.mem_cons.mp hanswered with hnew | hold
    · cases hnew
      refine .inr fun ⟨envelope, capability, hc, htask⟩ => ?_
      have hledger' := (step_moves h.ledger
        (allowed_any env s (.dispatch request faults))).2.ledger
      have hsame := hledger'.created_unique hc ⟨_, hatOnce.created⟩
        (htask.trans (planDispatch_submit hplan).taskId)
      exact absurd hsame.1.symm hlater
    · exact .inl (answered_of_unheard hunheard hold)

/-- A dispatch. -/
theorem Tracked.once_made (h : Tracked env s) {request : DispatchRequest} {faults : Faults}
    (hmade : Made s.now (planDispatch env s.outer.policy s.outer.taskStore s.now
      (s.queue.hasCapacity env.queueOptions) s.outer.nextUuid request) s.outer
        (step env s (.dispatch request faults)).outer) :
    RunOnce (step env s (.dispatch request faults)).outer := by
  have hother : ∀ id outcome faults', Label.dispatch request faults ≠ .resume id outcome faults' :=
    by simp
  cases hmade with
  | still hstill =>
      obtain ⟨events, hevents, hunheard⟩ := hstill.history
      exact h.once_of_same hother (syncRuns_unheard hevents hunheard)
        (by unfold syncCalls; rw [hstill.calls])
        fun k outcome hanswered => .inl (answered_before hevents hunheard hanswered)
  | @found outcome hplan heq =>
      obtain ⟨envelope, record, creator, created, -, hfound, hstored, -⟩ :=
        planDispatch_stored h.ledger.ledger hplan
      obtain ⟨t, hget⟩ := hfound.get
      refine h.once_of_same hother (by rw [heq]; rfl) (by rw [heq]; rfl)
        fun k outcome' hanswered => ?_
      rw [heq] at hanswered
      rcases List.mem_cons.mp hanswered with hnew | hold
      · cases hnew
        exact .inr (h.stored_answer hget hstored _)
      · exact .inl hold
  | waits hplan heq =>
      refine h.once_of_same hother (by rw [heq]; rfl) (by rw [heq]; rfl)
        fun k outcome' hanswered => ?_
      rw [heq] at hanswered
      exact .inl hanswered
  | submitted hplan hlater hatOnce => exact h.once_atOnce hplan hlater hatOnce
  | executes hplan hid hnumbered hexecutes =>
      exact h.once_of_executes (planDispatch_submit hplan) hnumbered hexecutes

/-- The answer of a synchronous call is on record at its end. -/
theorem Tracked.settled_of_ended (h : Tracked env s) {id : Nat}
    {outcome : Except Rejection ExecutionResult} {faults : Faults} {call : Call}
    {coreResult : CoreResult} {normalized : InvokeResult} {record : TaskRecord}
    (hfound : s.outer.calls.find? (·.id == id) = some call)
    (harrives : Arrives env s.now s.outer id outcome call coreResult normalized record)
    (hget : (step env s (.resume id outcome faults)).outer.taskStore.get call.envelope.taskId =
      some (revised record (Origin.stamp call.origin normalized) s.now))
    (hsync : SyncTask (step env s (.resume id outcome faults)).outer
      (Origin.stamp call.origin normalized).result.taskId) :
    Settled (step env s (.resume id outcome faults)).outer (Origin.stamp call.origin normalized) := by
  obtain ⟨hmoves, hledger'⟩ := step_moves h.ledger (allowed_any env s (.resume id outcome faults))
  obtain ⟨hcall, -⟩ := find_call hfound
  obtain ⟨envelope, capability, hc, htask⟩ := (h.ledger.ledger.calls call hcall).1.created
  rw [harrives.result_taskId] at hsync
  have hbefore := hsync.earlier hledger'.ledger (moves_history_subset hmoves) hc htask
  refine ⟨_, harrives.result_taskId ▸ hget, ?_, rfl, rfl⟩
  show isTerminal (Origin.stamp call.origin normalized).result.status = true
  rcases h.ledger.ledger.sync_status hcall (hbefore.origin h.ledger.ledger hcall rfl)
    harrives.answer harrives.normalized with hstatus | hstatus <;> rw [hstatus] <;> rfl

theorem Tracked.once_ended (h : Tracked env s) {outcome : Except Rejection ExecutionResult}
    {faults : Faults}
    (hended : Ended env s.now s.outer id outcome (step env s (.resume id outcome faults)).outer) :
    RunOnce (step env s (.resume id outcome faults)).outer := by
  cases hended with
  | absent heq => exact heq ▸ h.once
  | silent hover hunheard =>
      exact h.once_of_over hover (syncRuns_unheard hover.history hunheard)
        fun k outcome' hanswered => .inl (answered_before hover.history hunheard hanswered)
  | @answered call coreResult normalized record events hover hunheard harrives hget =>
      refine h.once_of_over hover (syncRuns_answered hover.history hunheard)
        fun k outcome' hanswered => ?_
      rw [hover.history] at hanswered
      rcases List.mem_cons.mp hanswered with hnew | hold
      · cases hnew
        exact .inr (h.settled_of_ended hover.found harrives hget)
      · exact .inl (answered_of_unheard hunheard hold)

theorem Tracked.once_step (h : Tracked env s) (l : Label) : RunOnce (step env s l).outer := by
  cases step_turn h.ledger l with
  | silent hlabel hsilent =>
      obtain ⟨started, hcalls, hnew⟩ := hsilent.calls
      obtain ⟨events, hevents, hunheard⟩ := hsilent.history
      exact h.once_of_same hlabel (syncRuns_unheard hevents hunheard)
        (syncCalls_of_started hcalls fun call hcall => (hnew call hcall).1)
        fun k outcome hanswered => .inl (answered_before hevents hunheard hanswered)
  | made hlabel hmade =>
      subst hlabel
      exact h.once_made hmade
  | @polled id hlabel hpolled =>
      obtain ⟨hcalls, hruns, hnew⟩ := hpolled.frame
      refine h.once_of_same (by simp [hlabel]) hruns hcalls fun k outcome hanswered => ?_
      refine (hnew k outcome hanswered).imp (fun hold => hold) ?_
      rintro ⟨t, record, hget, hstored⟩
      exact h.stored_answer hget hstored l
  | ended hlabel hended =>
      subst hlabel
      exact h.once_ended hended

theorem Tracked.step (h : Tracked env s) (l : Label) : Tracked env (step env s l) := by
  have hmoves := (step_moves h.ledger (allowed_any env s l)).1
  refine ⟨(step_moves h.ledger (allowed_any env s l)).2, resultsNamed_step h.ledger h.named l, ?_, ?_,
    h.once_step l⟩
  · exact moves_invariant (I := fun w => Traced w.history)
      (fun _ _ _ hw ht hm => traced_move hw ht hm) h.ledger.ledger h.traced hmoves
  · have hboth := moves_invariant (I := fun w => ResultsNamed w ∧ AnswersKnown w)
      (fun _ _ _ hw hi hm => ⟨resultsNamed_move hw hi.1 hm, answersKnown_move hw hi.1 hi.2 hm⟩)
      h.ledger.ledger ⟨h.named, h.known⟩ hmoves
    exact hboth.2

end Step

theorem init_tracked (env : OrchestratorEnv) (policy : PolicyDocument)
    (deadLetters : List DeadLetterRecord) (now : Millis) :
    Tracked env (init env policy deadLetters now) where
  ledger := init_worldLedger env policy deadLetters now
  named := init_resultsNamed env policy deadLetters now
  traced := by simp [Traced]
  known := by simp [AnswersKnown]
  once := by constructor <;> simp [syncRuns, syncCalls]

/-- **Every run keeps track of its synchronous tasks.** -/
theorem run_tracked (env : OrchestratorEnv) (policy : PolicyDocument)
    (deadLetters : List DeadLetterRecord) (now : Millis) (ls : List Label) :
    Tracked env (run env (init env policy deadLetters now) ls) :=
  Transition.run_preserves (fun _ l h => h.step l) ls (init_tracked env policy deadLetters now)

end Orchestrator

end MapProtocol
