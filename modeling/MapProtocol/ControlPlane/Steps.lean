import MapProtocol.ControlPlane.Lifecycle
import MapProtocol.ControlPlane.Turns

/-!
# Every step is made of moves

Each method of the orchestrator is cut into moves here, from any runtime whose ledger is in order.
Resuming a call has the most exits, and `Resumed` lists them.
-/

namespace MapProtocol

open Js

namespace Orchestrator

variable {env : OrchestratorEnv} {g : Guard} {now : Millis} {faults : Faults}
variable {w w' : Runtime}

abbrev Moves (env : OrchestratorEnv) (g : Guard) (now : Millis) : Runtime → Runtime → Prop :=
  Relation.ReflTransGen (Move env g now)

theorem Ledger.moves (h : Ledger env w) (hm : Moves env g now w w') :
    Ledger env w' := by
  induction hm with
  | refl => exact h
  | tail _ hlast ih => exact ih.move hlast

theorem Move.one (h : Move env g now w w') : Moves env g now w w' :=
  Relation.ReflTransGen.single h

theorem moves_threw (h : Moves env g now w w') {call : Nat} {method : Method} {taskId : String}
    {rejection : Rejection} (hcall : call < w'.nextCall) :
    Moves env g now w (log (.threw call method taskId rejection) w') :=
  h.tail (.threw hcall)

/-! ## Dispatch

Up to its first wait a dispatch saves a record, appends a receipt, and enqueues or suspends. A
refused job is the one detour: its record is deleted again, which is no move but leaves the records
as they were. -/

section Dispatch

variable {w : Runtime} {call uuid : Nat} {request : DispatchRequest} {submission : Submission}
  {ready : Ready} {submitted : InvokeResult}

theorem Planned.status_ne_revoked {policy : PolicyDocument} {store : TaskStore}
    (hp : Planned env policy store now uuid request submission ready submitted) :
    ((ready.saveParams submitted).toRecord now).status ≠ .revoked := by
  show submitted.result.status ≠ .revoked
  rw [hp.status]
  cases submission <;> simp [Submission.initial]

/-- Saving a new task and deleting it again leaves the records as they were. -/
theorem delete_insert {store : TaskStore} {record : TaskRecord} {fault : Option String}
    (habsent : store.get record.taskId = none) :
    ((store.insert record).delete fault record.taskId).2.tasks = store.tasks ∧
      ∀ key t, ((store.insert record).delete fault record.taskId).2.idempotencyIndex.get key =
        some t → store.idempotencyIndex.get key = some t := by
  have hget : (store.insert record).tasks.get record.taskId = some record :=
    TaskStore.get_insert_self store record
  unfold TaskStore.delete
  rw [hget]
  dsimp only
  refine ⟨OrderedMap.delete_set_of_get_none habsent, ?_⟩
  intro key t hkey
  unfold TaskStore.insert at hkey
  dsimp only at hkey
  -- deleting a record also deletes the key it had just indexed
  cases hk : record.idempotencyKey with
  | none =>
      simp only [hk] at hkey
      exact hkey
  | some k =>
      simp only [hk] at hkey
      split at hkey
      · exact hkey
      · rw [OrderedMap.get_delete] at hkey
        split at hkey
        · cases hkey
        · rename_i hne
          rwa [OrderedMap.get_set_ne _ hne] at hkey

/-- A task that is put on record brings a key under which no task was. -/
theorem Planned.unindexed {policy : PolicyDocument} (h : Ledger env w)
    (hp : Planned env policy w.taskStore now uuid request submission ready submitted)
    {key t : String} (hkey : ready.idempotencyKey = some key) (ht : t ≠ "") :
    w.taskStore.idempotencyIndex.get key ≠ some t := by
  intro hindex
  obtain ⟨record, hget⟩ := h.index key t hindex
  obtain ⟨result, hresult, -⟩ := (h.records t record hget).result
  obtain ⟨receipt, hreceipt⟩ := (h.records t record hget).receipt
  have hfind : w.taskStore.findByIdempotencyKey key = some record := by
    unfold TaskStore.findByIdempotencyKey
    rw [hindex]
    dsimp only
    rw [if_neg ht]
    exact hget
  have hfound := hp.unstored
  unfold findStored lookupByKey at hfound
  simp only [bind_eq_ok, ← hp.key, hkey] at hfound
  obtain ⟨byKey, hlookup, hrest⟩ := hfound
  cases byKey with
  | some stored => simp at hrest
  | none =>
      -- the record has a result and a receipt, and would have answered
      simp only [hfind, lookupStored, bind_eq_ok] at hlookup
      obtain ⟨same, -, hlookup⟩ := hlookup
      cases same with
      | false => simp at hlookup
      | true =>
          simp only [if_true, pure_eq_ok, storedAnswer, hresult, hreceipt] at hlookup
          split at hlookup <;> cases hlookup

/-- Nor does that take a key from another task. -/
theorem keys_delete_insert {store : TaskStore} {record : TaskRecord} {fault : Option String}
    {key t : String} (hnew : record.idempotencyKey = some key →
      store.idempotencyIndex.get key ≠ some t)
    (hkey : store.idempotencyIndex.get key = some t) :
    ((store.insert record).delete fault record.taskId).2.idempotencyIndex.get key = some t := by
  have hget : (store.insert record).tasks.get record.taskId = some record :=
    TaskStore.get_insert_self store record
  unfold TaskStore.delete
  rw [hget]
  unfold TaskStore.insert
  dsimp only
  cases hk : record.idempotencyKey with
  | none => simpa [hk] using hkey
  | some k =>
      have hne : k ≠ key := fun heq => hnew (heq ▸ hk) hkey
      dsimp only
      split
      · exact hkey
      · rw [OrderedMap.get_delete, if_neg hne, OrderedMap.get_set_ne _ hne]
        exact hkey

theorem submits_moves {q : AsyncTaskQueue Ready} {s : AsyncTaskQueue Ready × Runtime}
    (h : Ledger env w)
    (hp : Planned env w.policy w.taskStore now uuid request submission ready submitted)
    (hcall : call < w.nextCall) (huuid : uuid + 1 < w.nextUuid)
    (hguard : g.submits submission ready)
    (hs : Submits env now faults call ready submitted q w submission s) : Moves env g now w s.2 := by
  have hentered : Moves env g now w (entered now call submission ready submitted w) :=
    Move.one (.created hp hcall huuid hguard)
  -- the receipt is in memory whether or not its write throws
  have happended : Moves env g now w
      (withReceipt faults submitted.receipt (entered now call submission ready submitted w)) :=
    hentered.tail (.appended get_recorded rfl hp.status_ne_revoked)
  cases hs with
  | unchecked => exact moves_threw .refl hcall
  | unsaved => exact moves_threw hentered hcall
  | unappended => exact moves_threw happended hcall
  | unnotified => exact moves_threw happended hcall
  | notified => exact happended.tail (.answered hcall get_recorded rfl rfl)
  | queued => exact happended.tail (.answered hcall get_recorded rfl rfl)
  | refused =>
      have hdelete := @delete_insert w.taskStore
        ((ready.saveParams submitted).toRecord now) faults.delete (hp.absent h)
      have hkeys : ∀ key t, t ≠ "" → w.taskStore.idempotencyIndex.get key = some t →
          ((recorded now ready submitted w).taskStore.delete faults.delete
            ready.envelope.taskId).2.idempotencyIndex.get key = some t :=
        fun key t ht hkey => keys_delete_insert (fun hk => hp.unindexed h hk ht) hkey
      have hwithdrawn : Moves env g now w (withdrawn now faults ready submitted w) :=
        Move.one (.withdrawn hp huuid hguard hdelete.1 hdelete.2 hkeys)
      exact moves_threw hwithdrawn hcall
  | suspends =>
      refine hentered.tail (.suspended (by simp [dispatchCall]) ⟨call, List.mem_cons_self⟩ rfl hcall
        ?_ ?_)
      · exact fun receipt hr => absurd hr executeApproved_ne_refused
      · intro intent context hadapter
        rw [executeApproved_adapter hadapter]
        exact .inl (hp.passes (by simp))

theorem moves_numbered (w : Runtime) (calls uuids : Nat) :
    Moves env g now w
      { w with nextCall := w.nextCall + calls, nextUuid := w.nextUuid + uuids } :=
  Move.one (.bookkeeping rfl rfl rfl rfl rfl (fun _ hc => hc) (Nat.le_add_right _ _)
    (Nat.le_add_right _ _))

theorem dispatch_moves {q : AsyncTaskQueue Ready} (h : Ledger env w)
    (hguard : ∀ submission ready submitted,
      planDispatch env w.policy w.taskStore now (q.hasCapacity env.queueOptions) w.nextUuid
        request = .ok (.submit submission ready submitted) → g.submits submission ready) :
    Moves env g now w (dispatch env now faults request (q, w)).2 := by
  have hcalled : Moves env g now w { w with nextCall := w.nextCall + 1 } := moves_numbered w 1 0
  have hnumbered : Moves env g now w (numbered w) := moves_numbered w 1 2
  have hturn := dispatch_cases env now faults request q w
  generalize dispatch env now faults request (q, w) = s at hturn
  cases hturn with
  | rejected hplan => exact moves_threw hcalled (Nat.lt_succ_self _)
  | found hplan =>
      obtain ⟨t, record, hget, hresult, hreceipt⟩ := planDispatch_answer hplan
      exact hcalled.tail (.answered (Nat.lt_succ_self _) hget hresult hreceipt)
  | waits hplan =>
      exact hcalled.tail (.bookkeeping rfl rfl rfl rfl rfl (fun _ hc => hc) (Nat.le_refl _)
        (Nat.le_refl _))
  | submits hplan hsubmits =>
      exact hnumbered.trans (submits_moves (h.moves hnumbered) (planDispatch_submit hplan)
        (Nat.lt_succ_self _) (Nat.lt_succ_self _) (hguard _ _ _ hplan) hsubmits)

end Dispatch

/-! ## Approve, cancel, poll -/

theorem approve_moves {w : Runtime} {request : ApprovalRequest}
    (hguard : ∀ approval, checkApproval env w.taskStore request = .ok approval →
      g.approves w approval) :
    Moves env g now w (approve env request w) := by
  unfold approve
  dsimp only
  split
  · exact moves_threw (moves_numbered w 1 0) (Nat.lt_succ_self _)
  · rename_i approval hcheck
    obtain ⟨record, hchecked⟩ := checkApproval_eq_ok hcheck
    exact Move.one (.approved hchecked (hguard approval hcheck) rfl rfl rfl ⟨_, rfl⟩)

theorem cancelTask_moves {q : AsyncTaskQueue Ready} {taskId : String} {tenantId : Option String} :
    Moves env g now w (cancelTask env now faults q taskId tenantId w) := by
  have hcalled : Moves env g now w { w with nextCall := w.nextCall + 1 } := moves_numbered w 1 0
  unfold cancelTask
  dsimp only
  split
  · exact moves_threw hcalled (Nat.lt_succ_self _)
  · rename_i outcome hplan
    obtain ⟨record, hcancellable⟩ := planCancel_eq_ok hplan
    unfold updateTask
    dsimp only
    split
    · rename_i heq
      obtain ⟨-, rfl⟩ := Prod.mk.inj heq
      exact hcalled.tail (.cancelled hcancellable (.threw _ _ (Nat.lt_succ_self _)))
    · rename_i heq
      obtain ⟨-, rfl⟩ := Prod.mk.inj heq
      exact hcalled.tail (.cancelled hcancellable (.cancelled _))

theorem storedAnswer_answer {record : TaskRecord} {outcome : InvokeResult}
    (h : storedAnswer record = some (.answer outcome)) :
    record.result = some outcome.result ∧ record.receipt = some outcome.receipt := by
  unfold storedAnswer at h
  split at h
  · rename_i result receipt hresult hreceipt
    split at h
    · cases h
    · cases h
      exact ⟨hresult, hreceipt⟩
  · cases h

/-- The numbers of the waiting dispatches have been drawn. -/
def WaitersNumbered (w : Runtime) : Prop := ∀ waiter ∈ w.waiters, waiter.id < w.nextCall

theorem poll_moves {id : Nat} (hwaiters : WaitersNumbered w) :
    Moves env g now w (poll id w) := by
  have hlt : ∀ {waiter : Waiter}, w.waiters.find? (·.id == id) = some waiter → id < w.nextCall := by
    intro waiter hfound
    have hid : waiter.id = id := by simpa using List.find?_some hfound
    exact hid ▸ hwaiters _ (List.mem_of_find?_eq_some hfound)
  have hover : Moves env g now w { w with waiters := w.waiters.eraseP (·.id == id) } :=
    Move.one (.bookkeeping rfl rfl rfl rfl rfl (fun _ hc => hc) (Nat.le_refl _) (Nat.le_refl _))
  have hpolled := poll_polled id w
  generalize poll id w = w' at hpolled
  cases hpolled with
  | absent => exact .refl
  | timedOut hfound => exact moves_threw hover (hlt hfound)
  | answered hfound hget hstored =>
      obtain ⟨hresult, hreceipt⟩ := storedAnswer_answer hstored
      exact hover.tail (.answered (hlt hfound) hget hresult hreceipt)
  | waits =>
      exact Move.one (.bookkeeping rfl rfl rfl rfl rfl (fun _ hc => hc) (Nat.le_refl _)
        (Nat.le_refl _))

/-! ## Resume

An answer is normalised, then offered to the record, and the call ends with what the record
holds. -/

section Resume

variable {w : Runtime} {id : Nat} {call : Call} {outcome : Except Rejection ExecutionResult}
  {coreResult : CoreResult} {normalized : InvokeResult}

variable {record : TaskRecord}

/-- The runtime in which the answer of a call has arrived and nothing is written yet. -/
def arrived (env : OrchestratorEnv) (now : Millis) (call : Call) (coreResult : CoreResult)
    (w : Runtime) : Runtime :=
  { w with
    calls := w.calls.eraseP (·.id == call.id)
    nextUuid := w.nextUuid + 1
    history := returnedEvents env now w.nextUuid call coreResult ++ w.history }

/-- The runtime in which an outcome has been offered to the record of the call's task. -/
def offered (env : OrchestratorEnv) (now : Millis) (faults : Faults) (call : Call)
    (coreResult : CoreResult) (normalized : InvokeResult) (w : Runtime) : Runtime :=
  { arrived env now call coreResult w with
    taskStore := (w.taskStore.update now faults.update call.envelope.taskId
      (outcomeUpdate (Origin.stamp call.origin normalized))).2 }

/-- A call of the runtime is answered, and the answer has been normalised. -/
structure Arrives (env : OrchestratorEnv) (now : Millis) (w : Runtime) (id : Nat)
    (outcome : Except Rejection ExecutionResult) (call : Call) (coreResult : CoreResult)
    (normalized : InvokeResult) (record : TaskRecord) : Prop where
  found      : w.calls.find? (·.id == id) = some call
  answer     : settledAnswer call.invocation outcome = .ok coreResult
  normalized : normalizeCoreResult env now w.nextUuid coreResult call.envelope call.capability
    call.negotiation = .ok normalized
  record     : w.taskStore.get call.envelope.taskId = some record

/-- **What resuming a call can do.** -/
inductive Resumed (env : OrchestratorEnv) (now : Millis) (faults : Faults) (w : Runtime) (id : Nat)
    (outcome : Except Rejection ExecutionResult) : Runtime → Prop
  | absent (h : w.calls.find? (·.id == id) = none) : Resumed env now faults w id outcome w
  | rejected {call : Call} {e : Rejection} (hfound : w.calls.find? (·.id == id) = some call)
      (hanswer : settledAnswer call.invocation outcome = .error e) :
      Resumed env now faults w id outcome
        (finish call (.error e) { w with calls := w.calls.eraseP (·.id == id) })
  /-- The record does not take the outcome. -/
  | refused {call : Call} {coreResult : CoreResult} {normalized : InvokeResult}
      {record : TaskRecord} {e : String}
      (h : Arrives env now w id outcome call coreResult normalized record)
      (hrefuses : ¬ Accepts record (Origin.stamp call.origin normalized)) :
      Resumed env now faults w id outcome
        (finish call (.error (some e)) (offered env now faults call coreResult normalized w))
  /-- The record takes the outcome, and the write of the file throws. -/
  | unsaved {call : Call} {coreResult : CoreResult} {normalized : InvokeResult}
      {record : TaskRecord} {e : String}
      (h : Arrives env now w id outcome call coreResult normalized record)
      (haccepts : Accepts record (Origin.stamp call.origin normalized))
      (hfault : faults.update = some e) :
      Resumed env now faults w id outcome
        (finish call (.error (some e)) (offered env now faults call coreResult normalized w))
  | saved {call : Call} {coreResult : CoreResult} {normalized : InvokeResult}
      {record : TaskRecord} (h : Arrives env now w id outcome call coreResult normalized record)
      (haccepts : Accepts record (Origin.stamp call.origin normalized))
      (hfault : faults.update = none) :
      Resumed env now faults w id outcome
        (finish call
          (((w.receiptStore.append faults.append
            (Origin.stamp call.origin normalized).receipt).1.mapError some).map
              fun _ => Origin.stamp call.origin normalized)
          (withReceipt faults (Origin.stamp call.origin normalized).receipt
            (offered env now faults call coreResult normalized w)))

theorem find_call (h : w.calls.find? (·.id == id) = some call) : call ∈ w.calls ∧ call.id = id :=
  ⟨List.mem_of_find?_eq_some h, by simpa using List.find?_some h⟩

theorem Ledger.normalizes (h : Ledger env w) (hcall : call ∈ w.calls) :
    ∃ normalized, normalizeCoreResult env now w.nextUuid coreResult call.envelope call.capability
      call.negotiation = .ok normalized := by
  obtain ⟨e, cap, hc, _⟩ := (h.calls call hcall).1.created
  obtain ⟨receipt, hsign⟩ := h.canSign ⟨_, e, cap, hc⟩
    (outcomeOf env now w.nextUuid coreResult call.envelope call.capability call.negotiation).2
  exact ⟨⟨_, receipt⟩, normalizeCoreResult_eq_ok.mpr ⟨rfl, hsign⟩⟩

theorem Ledger.record_of_call (h : Ledger env w) (hcall : call ∈ w.calls) :
    ∃ record, w.taskStore.get call.envelope.taskId = some record := by
  obtain ⟨e, cap, hc, htask⟩ := (h.calls call hcall).1.created
  obtain ⟨record, hget⟩ := h.onRecord _ _ _ hc
  exact ⟨record, htask ▸ hget⟩

theorem resume_cases (h : Ledger env w) (id : Nat) (outcome : Except Rejection ExecutionResult) :
    Resumed env now faults w id outcome (resume env now faults id outcome w) := by
  unfold resume
  cases hfind : w.calls.find? (·.id == id) with
  | none => exact .absent hfind
  | some call =>
      obtain ⟨hcall, hid⟩ := find_call hfind
      subst hid
      dsimp only
      cases hanswer : settledAnswer call.invocation outcome with
      | error e => exact .rejected hfind hanswer
      | ok coreResult =>
          -- the answer can be signed, since the ledger knows that receipts can
          obtain ⟨normalized, hnormalized⟩ : ∃ normalized, normalizeCoreResult env now w.nextUuid
              coreResult call.envelope call.capability call.negotiation = .ok normalized :=
            h.normalizes hcall
          obtain ⟨record, hget⟩ := h.record_of_call hcall
          have harrives : Arrives env now w call.id outcome call coreResult normalized record :=
            ⟨hfind, hanswer, hnormalized, hget⟩
          dsimp only
          unfold complete recordOutcome updateTask
          dsimp only
          rw [hnormalized]
          dsimp only
          rcases update_outcome w.taskStore now faults.update call.envelope.taskId
              (Origin.stamp call.origin normalized) with
            ⟨hnone, _⟩ | ⟨old, e, hold, hrefuses, heq⟩ | ⟨old, hold, haccepts, heq⟩
          · rw [hget] at hnone
            cases hnone
          · obtain rfl : record = old := Option.some.inj (hget.symm.trans hold)
            have hrefused : Resumed env now faults w call.id outcome (finish call (.error (some e))
                (offered env now faults call coreResult normalized w)) := .refused harrives hrefuses
            unfold offered at hrefused
            rw [heq] at hrefused ⊢
            exact hrefused
          · obtain rfl : record = old := Option.some.inj (hget.symm.trans hold)
            -- from here the run is saved; only the writes can still throw
            cases hfault : faults.update with
            | some e =>
                have hunsaved := Resumed.unsaved harrives haccepts hfault
                unfold offered at hunsaved
                rw [hfault] at hunsaved heq
                rw [heq] at hunsaved ⊢
                exact hunsaved
            | none =>
                have hsaved := Resumed.saved harrives haccepts hfault
                unfold offered at hsaved
                rw [hfault] at hsaved heq
                rw [heq] at hsaved ⊢
                dsimp only [persist, Except.map]
                rw [appendReceipt_eq]
                cases happend : (w.receiptStore.append faults.append
                    (Origin.stamp call.origin normalized).receipt).1 with
                | error e =>
                    rw [happend] at hsaved
                    exact hsaved
                | ok u =>
                    rw [happend] at hsaved
                    exact hsaved

theorem finish_error_moves {e : Rejection} (hcall : call.id < w.nextCall) :
    Moves env g now w (finish call (.error e) w) := by
  unfold finish
  split
  · exact Move.one (.bookkeeping rfl rfl rfl rfl rfl (fun _ hc => hc) (Nat.le_refl _)
      (Nat.le_refl _))
  · rename_i heq
    cases heq
  · exact Move.one (.threw hcall)
  · rename_i heq
    cases heq
  · exact Move.one (.threw hcall)

/-- A call ends with the outcome that its task's record holds. -/
theorem finish_ok_moves {answer : InvokeResult} {t : String} (hcall : call.id < w.nextCall)
    (hget : w.taskStore.get t = some record) (hresult : record.result = some answer.result)
    (hreceipt : record.receipt = some answer.receipt) :
    Moves env g now w (finish call (.ok answer) w) := by
  unfold finish
  split
  · exact Move.one (.bookkeeping rfl rfl rfl rfl rfl (fun _ hc => hc) (Nat.le_refl _)
      (Nat.le_refl _))
  · rename_i heq
    cases heq
    exact Move.one (.answered hcall hget hresult hreceipt)
  · rename_i heq
    cases heq
  · rename_i heq
    cases heq
    exact Move.one (.answered hcall hget hresult hreceipt)
  · rename_i heq
    cases heq

theorem Arrives.call_mem (h : Arrives env now w id outcome call coreResult normalized record) :
    call ∈ w.calls ∧ call.id = id :=
  find_call h.found

theorem offered_moves {record : TaskRecord}
    (h : Arrives env now w id outcome call coreResult normalized record)
    (hguard : g.completes w call coreResult) :
    Moves env g now w (offered env now faults call coreResult normalized w) :=
  Move.one (.settled h.call_mem.1 h.answer hguard (fun _ hc => List.mem_of_mem_eraseP hc)
    h.normalized)

/-- An outcome that was accepted is on record. -/
theorem get_offered (h : Arrives env now w id outcome call coreResult normalized record)
    (haccepts : Accepts record (Origin.stamp call.origin normalized)) :
    (offered env now faults call coreResult normalized w).taskStore.get call.envelope.taskId =
      some (revised record (Origin.stamp call.origin normalized) now) := by
  unfold offered
  rcases update_outcome w.taskStore now faults.update call.envelope.taskId
      (Origin.stamp call.origin normalized) with
    ⟨hnone, _⟩ | ⟨old, e, hold, hrefuses, _⟩ | ⟨old, hold, _, heq⟩
  · rw [h.record] at hnone
    cases hnone
  · obtain rfl : record = old := Option.some.inj (h.record.symm.trans hold)
    exact absurd haccepts hrefuses
  · obtain rfl : record = old := Option.some.inj (h.record.symm.trans hold)
    rw [heq]
    exact OrderedMap.get_set_self _ _ _

/-- Only a cancellation revokes. -/
theorem status_ne_revoked_of_normalized {uuid : Nat} {origin : Origin} {envelope : TaskEnvelope}
    {capability : String} {negotiation : InvocationNegotiation}
    (h : normalizeCoreResult env now uuid coreResult envelope capability negotiation =
      .ok normalized) :
    (Origin.stamp origin normalized).result.status ≠ .revoked := by
  rw [Origin.stamp_result, (normalizeCoreResult_eq_ok.mp h).1]
  cases coreResult with
  | receipt receipt =>
      show statusOfAction receipt.action ≠ .revoked
      cases receipt.action <;> simp [statusOfAction]
  | result execResult =>
      show statusOfResult execResult.status ≠ .revoked
      cases execResult.status <;> simp [statusOfResult]

theorem resume_moves (h : Ledger env w)
    (hguard : ∀ call coreResult, w.calls.find? (·.id == id) = some call →
      settledAnswer call.invocation outcome = .ok coreResult → g.completes w call coreResult) :
    Moves env g now w (resume env now faults id outcome w) := by
  have hresumed : Resumed env now faults w id outcome (resume env now faults id outcome w) :=
    resume_cases h id outcome
  generalize resume env now faults id outcome w = w' at hresumed
  cases hresumed with
  | absent => exact .refl
  | rejected hfound =>
      have hover : Moves env g now w { w with calls := w.calls.eraseP (·.id == id) } :=
        Move.one (.bookkeeping rfl rfl rfl rfl rfl (fun _ hc => List.mem_of_mem_eraseP hc)
          (Nat.le_refl _) (Nat.le_refl _))
      exact hover.trans (finish_error_moves (h.calls _ (find_call hfound).1).2)
  | refused harrives =>
      exact (offered_moves harrives (hguard _ _ harrives.found harrives.answer)).trans
        (finish_error_moves (h.calls _ harrives.call_mem.1).2)
  | unsaved harrives =>
      exact (offered_moves harrives (hguard _ _ harrives.found harrives.answer)).trans
        (finish_error_moves (h.calls _ harrives.call_mem.1).2)
  | @saved call coreResult normalized record harrives haccepts =>
      have hget : (offered env now faults call coreResult normalized w).taskStore.get
          call.envelope.taskId = some (revised record (Origin.stamp call.origin normalized) now) :=
        get_offered harrives haccepts
      have hoffered : Moves env g now w (offered env now faults call coreResult normalized w) :=
        offered_moves harrives (hguard _ _ harrives.found harrives.answer)
      have happended := hoffered.tail (@Move.appended env g now _ faults.append _ _ _ hget rfl
        (status_ne_revoked_of_normalized harrives.normalized))
      refine happended.trans ?_
      cases (w.receiptStore.append faults.append _).1 with
      | error e => exact finish_error_moves (h.calls _ harrives.call_mem.1).2
      | ok u => exact finish_ok_moves (h.calls _ harrives.call_mem.1).2 hget rfl rfl

end Resume

end Orchestrator

end MapProtocol
