import MapProtocol.ControlPlane.Planning
import MapProtocol.ControlPlane.QueueView

/-!
# What a turn can do

The turn that makes a dispatch and the one that looks at the store have many exits. `DispatchTurn`,
`Submits` and `Polled` list them once, each with what the code has checked on the way, and what an
invariant needs of such a turn is read off the cases.
-/

namespace MapProtocol

namespace Orchestrator

variable {env : OrchestratorEnv} {now : Millis} {faults : Faults} {w : Runtime}

/-! ## Submissions

A submission saves its record, appends its receipt unless it runs now, and is queued, told to the
approver or executed. Every write that throws leaves behind what was written before it. -/

section Submit

variable {submission : Submission} {ready : Ready} {submitted : InvokeResult}

def recorded (now : Millis) (ready : Ready) (submitted : InvokeResult) (w : Runtime) : Runtime :=
  { w with taskStore := w.taskStore.insert ((ready.saveParams submitted).toRecord now) }

theorem recorded_get (t : String) : (recorded now ready submitted w).taskStore.get t =
    if ready.envelope.taskId = t then some ((ready.saveParams submitted).toRecord now)
    else w.taskStore.get t :=
  TaskStore.get_insert _ _ _

theorem get_recorded : (recorded now ready submitted w).taskStore.get ready.envelope.taskId =
    some ((ready.saveParams submitted).toRecord now) :=
  TaskStore.get_insert_self _ _

theorem saveTask_eq (h : w.taskStore.checkSave (ready.saveParams submitted) = .ok ()) :
    saveTask now faults ready submitted w =
      ((persist faults.save).map fun _ => (ready.saveParams submitted).toRecord now,
        recorded now ready submitted w) := by
  unfold saveTask
  rw [TaskStore.save_eq h]
  rfl

def withReceipt (faults : Faults) (receipt : ExecutionReceipt) (w : Runtime) : Runtime :=
  { w with receiptStore := (w.receiptStore.append faults.append receipt).2 }

theorem appendReceipt_eq (receipt : ExecutionReceipt) (w : Runtime) :
    appendReceipt faults receipt w =
      ((w.receiptStore.append faults.append receipt).1, withReceipt faults receipt w) := rfl

/-- The runtime with the task of a submission on record. -/
def entered (now : Millis) (call : Nat) (submission : Submission) (ready : Ready)
    (submitted : InvokeResult) (w : Runtime) : Runtime :=
  log (createdEvent call submission ready) (recorded now ready submitted w)

/-- The runtime with the receipt of a submission whose record was deleted again. -/
def withdrawn (now : Millis) (faults : Faults) (ready : Ready) (submitted : InvokeResult)
    (w : Runtime) : Runtime :=
  { withReceipt faults submitted.receipt w with
    taskStore := ((recorded now ready submitted w).taskStore.delete faults.delete
      ready.envelope.taskId).2 }

/-- The call of a dispatch that runs now. -/
def dispatchCall (env : OrchestratorEnv) (call : Nat) (ready : Ready) (w : Runtime) : Call where
  id := call
  origin := .dispatch
  envelope := ready.envelope
  capability := ready.capability
  negotiation := ready.negotiation
  invocation := (executor env w).executeApproved (env.uuids.uuid w.nextUuid) ready.intent

/-- The record of a submission is written. -/
structure RecordSaved (faults : Faults) (ready : Ready) (submitted : InvokeResult) (w : Runtime) :
    Prop where
  check : w.taskStore.checkSave (ready.saveParams submitted) = .ok ()
  save  : faults.save = none

/-- The record of a submission is written, and so is its receipt. -/
structure ReceiptSaved (faults : Faults) (ready : Ready) (submitted : InvokeResult) (w : Runtime) : Prop
    extends RecordSaved faults ready submitted w where
  append : (w.receiptStore.append faults.append submitted.receipt).1 = .ok ()

section

variable (env : OrchestratorEnv) (now : Millis) (faults : Faults) (call : Nat) (ready : Ready)
  (submitted : InvokeResult) (q : AsyncTaskQueue Ready) (w : Runtime)

/-- **What a submission can do.** -/
inductive Submits : Submission → AsyncTaskQueue Ready × Runtime → Prop
  | unchecked {submission : Submission} {e : String}
      (hcheck : w.taskStore.checkSave (ready.saveParams submitted) = .error e) :
      Submits submission (q, log (.threw call .dispatch ready.envelope.taskId (some e)) w)
  | unsaved {submission : Submission} {e : String}
      (hcheck : w.taskStore.checkSave (ready.saveParams submitted) = .ok ())
      (hsave : faults.save = some e) :
      Submits submission (q, log (.threw call .dispatch ready.envelope.taskId (some e))
        (entered now call submission ready submitted w))
  | unappended {submission : Submission} {e : String} (hsync : submission ≠ .sync)
      (hsaved : RecordSaved faults ready submitted w)
      (happend : (w.receiptStore.append faults.append submitted.receipt).1 = .error e) :
      Submits submission (q, log (.threw call .dispatch ready.envelope.taskId (some e))
        (withReceipt faults submitted.receipt (entered now call submission ready submitted w)))
  /-- The approver cannot be told. -/
  | unnotified (hstored : ReceiptSaved faults ready submitted w)
      (hthrows : notifyThrows env ready.envelope = true) :
      Submits .approval (q, log (.threw call .dispatch ready.envelope.taskId
          (some "Cannot convert undefined or null to object"))
        (withReceipt faults submitted.receipt (entered now call .approval ready submitted w)))
  | notified (hstored : ReceiptSaved faults ready submitted w)
      (hthrows : notifyThrows env ready.envelope = false) :
      Submits .approval (q, log (.answered call submitted)
        (withReceipt faults submitted.receipt (entered now call .approval ready submitted w)))
  | queued {q' : AsyncTaskQueue Ready} (hstored : ReceiptSaved faults ready submitted w)
      (hqueue : q.enqueue env.queueOptions (enqueueParams ready) = (true, q')) :
      Submits .async (q', log (.answered call submitted)
        (withReceipt faults submitted.receipt (entered now call .async ready submitted w)))
  | refused {e : String} (hstored : ReceiptSaved faults ready submitted w)
      (hqueue : q.enqueue env.queueOptions (enqueueParams ready) = (false, q)) :
      Submits .async (q, log (.threw call .dispatch ready.envelope.taskId (some e))
        (withdrawn now faults ready submitted w))
  | suspends (hsaved : RecordSaved faults ready submitted w) :
      Submits .sync (q, suspend (dispatchCall env call ready w)
        (entered now call .sync ready submitted w))

end

variable {call : Nat} {q : AsyncTaskQueue Ready}

/-- A queue that refuses a job stays as it is. -/
theorem enqueue_refused {params : EnqueueParams Ready} {q' : AsyncTaskQueue Ready}
    (h : q.enqueue env.queueOptions params = (false, q')) : q' = q := by
  rcases q.enqueue_cases params with heq | heq <;> rw [heq] at h <;> cases h
  rfl

theorem submitForApproval_submits : Submits env now faults call ready submitted q w .approval
    (q, submitForApproval env now faults call ready submitted w) := by
  unfold submitForApproval
  dsimp only
  split
  · exact .unchecked ‹_›
  · rename_i hcheck
    have hcheck' : (log (createdEvent call .approval ready) w).taskStore.checkSave
        (ready.saveParams submitted) = .ok () := hcheck
    rw [saveTask_eq hcheck']
    cases hsave : faults.save with
    | some e => exact .unsaved hcheck hsave
    | none =>
        dsimp only [persist, Except.map]
        rw [appendReceipt_eq]
        split <;> rename_i heq <;> obtain ⟨happend, rfl⟩ := Prod.mk.inj heq
        · exact .unappended (by simp) ⟨hcheck, hsave⟩ happend
        · split
          · exact .unnotified ⟨⟨hcheck, hsave⟩, happend⟩ ‹_›
          · rename_i hthrows
            exact .notified ⟨⟨hcheck, hsave⟩, happend⟩ (by simpa using hthrows)

theorem submitAsync_submits : Submits env now faults call ready submitted q w .async
    (submitAsync env now faults call ready submitted (q, w)) := by
  unfold submitAsync
  dsimp only
  split
  · exact .unchecked ‹_›
  · rename_i hcheck
    rw [saveTask_eq hcheck]
    cases hsave : faults.save with
    | some e => exact .unsaved hcheck hsave
    | none =>
        dsimp only [persist, Except.map]
        rw [appendReceipt_eq]
        split <;> rename_i heq <;> obtain ⟨happend, rfl⟩ := Prod.mk.inj heq
        · exact .unappended (by simp) ⟨hcheck, hsave⟩ happend
        · split
          · exact .queued ⟨⟨hcheck, hsave⟩, happend⟩ ‹_›
          · rename_i hqueue
            obtain rfl := enqueue_refused hqueue
            split
            · exact .refused ⟨⟨hcheck, hsave⟩, happend⟩ hqueue
            · exact .refused ⟨⟨hcheck, hsave⟩, happend⟩ hqueue

theorem submitSync_submits : Submits env now faults call ready submitted q w .sync
    (q, submitSync env now faults call ready submitted w) := by
  unfold submitSync
  dsimp only
  split
  · exact .unchecked ‹_›
  · rename_i hcheck
    have hcheck' : (log (createdEvent call .sync ready) w).taskStore.checkSave
        (ready.saveParams submitted) = .ok () := hcheck
    rw [saveTask_eq hcheck']
    cases hsave : faults.save with
    | some e => exact .unsaved hcheck hsave
    | none => exact .suspends ⟨hcheck, hsave⟩

end Submit

/-! ## The turn that makes a dispatch -/

/-- The runtime that a submission starts from. -/
def numbered (w : Runtime) : Runtime :=
  { w with nextCall := w.nextCall + 1, nextUuid := w.nextUuid + 2 }

section

variable (env : OrchestratorEnv) (now : Millis) (faults : Faults) (request : DispatchRequest)
  (q : AsyncTaskQueue Ready) (w : Runtime)

/-- **What the turn that makes a dispatch can do**, by the plan. -/
inductive DispatchTurn (plan : Except String DispatchPlan) : AsyncTaskQueue Ready × Runtime → Prop
  | rejected {e : String} (hplan : plan = .error e) :
      DispatchTurn plan (q, log (.threw w.nextCall .dispatch request.envelope.taskId (some e))
        { w with nextCall := w.nextCall + 1 })
  | found {result : InvokeResult} (hplan : plan = .ok (.stored (.answer result))) :
      DispatchTurn plan (q, log (.answered w.nextCall result) { w with nextCall := w.nextCall + 1 })
  | waits {taskId : String} (hplan : plan = .ok (.stored (.wait taskId))) :
      DispatchTurn plan (q, { w with
        nextCall := w.nextCall + 1
        waiters := w.waiters ++ [⟨w.nextCall, taskId, 1⟩] })
  | submits {submission : Submission} {ready : Ready} {submitted : InvokeResult}
      {s : AsyncTaskQueue Ready × Runtime} (hplan : plan = .ok (.submit submission ready submitted))
      (hsubmits : Submits env now faults w.nextCall ready submitted q (numbered w) submission s) :
      DispatchTurn plan s

theorem dispatch_cases : DispatchTurn env now faults request q w
    (planDispatch env w.policy w.taskStore now (q.hasCapacity env.queueOptions) w.nextUuid request)
    (dispatch env now faults request (q, w)) := by
  unfold dispatch
  dsimp only
  split
  · exact .rejected ‹_›
  · exact .found ‹_›
  · exact .waits ‹_›
  · rename_i submission ready submitted hplan
    cases submission with
    | approval => exact .submits hplan submitForApproval_submits
    | async => exact .submits hplan submitAsync_submits
    | sync => exact .submits hplan submitSync_submits

end

/-! ## A look at the store -/

/-- **What a look at the store can do.** -/
inductive Polled (w : Runtime) (id : Nat) : Runtime → Prop
  | absent (h : w.waiters.find? (·.id == id) = none) : Polled w id w
  | timedOut {waiter : Waiter} (hfound : w.waiters.find? (·.id == id) = some waiter) :
      Polled w id
        (log (.threw id .dispatch waiter.taskId
            (some ("Timed out waiting for task completion: " ++ waiter.taskId)))
          { w with waiters := w.waiters.eraseP (·.id == id) })
  | answered {waiter : Waiter} {record : TaskRecord} {outcome : InvokeResult}
      (hfound : w.waiters.find? (·.id == id) = some waiter)
      (hget : w.taskStore.get waiter.taskId = some record)
      (hstored : storedAnswer record = some (.answer outcome)) :
      Polled w id
        (log (.answered id outcome) { w with waiters := w.waiters.eraseP (·.id == id) })
  | waits {waiter : Waiter} (hfound : w.waiters.find? (·.id == id) = some waiter) :
      Polled w id { w with
        waiters := w.waiters.eraseP (·.id == id) ++ [{ waiter with checks := waiter.checks + 1 }] }

theorem poll_polled (id : Nat) (w : Runtime) : Polled w id (poll id w) := by
  unfold poll
  split
  · rename_i hnone
    exact .absent hnone
  · rename_i waiter hfound
    dsimp only
    split
    · exact .timedOut hfound
    · split
      · rename_i outcome hanswer
        obtain ⟨record, hget, hstored⟩ := Option.bind_eq_some_iff.mp hanswer
        exact .answered hfound hget hstored
      · exact .waits hfound

/-! ## The end of a call

A call ends in the history or among the runs that are over, and touches nothing else. -/

structure FinishFrame (w w' : Runtime) : Prop where
  taskStore      : w'.taskStore = w.taskStore
  receiptStore   : w'.receiptStore = w.receiptStore
  calls          : w'.calls = w.calls
  waiters        : w'.waiters = w.waiters
  executorPolicy : w'.executorPolicy = w.executorPolicy

theorem finish_frame (call : Call) (outcome : Except Rejection InvokeResult) (w : Runtime) :
    FinishFrame w (finish call outcome w) := by
  unfold finish
  split <;> exact ⟨rfl, rfl, rfl, rfl, rfl⟩

end Orchestrator

end MapProtocol
