import MapProtocol.ControlPlane.FailedDispatch

/-!
# Two stores, one trail

The orchestrator writes each outcome twice: into the record of the task, and into the receipt store.
The two agree (`StoresAgree`) if every receipt on the record of a task that has been taken up is
stored, and every stored receipt names a task on record.

Two paths write one store only. `cancelTask` puts its receipt on the record and never appends it, and
a dispatch whose job the queue refuses takes its record back and leaves the receipt. `stores_agree`
shows that these are all: `Entry` lists what the other paths write, and none of it comes apart.
-/

namespace MapProtocol

open Js

/-- The statuses whose receipts belong in the receipt store. -/
def receiptedStatuses : List TaskStatus :=
  [.awaitingApproval, .running, .completed, .failed, .denied, .revoked]

/-- **The two stores agree.** -/
structure StoresAgree (tasks : TaskStore) (receipts : ReceiptStore) : Prop where
  stored : ∀ t record, tasks.get t = some record → record.status ∈ receiptedStatuses →
    ∃ receipt, record.receipt = some receipt ∧ receipts.get receipt.receiptId = some receipt
  named  : ∀ id receipt, receipts.get id = some receipt →
    ∃ t record, receipt.taskId = some t ∧ tasks.get t = some record

theorem storesAgree_empty : StoresAgree .empty .empty where
  stored _ _ hget := by cases hget
  named _ _ hget := by cases hget

/-- **What one path writes into both stores.** -/
inductive Entry (tasks : TaskStore) (receipts : ReceiptStore) (tasks' : TaskStore)
    (receipts' : ReceiptStore) : Prop
  | unwritten (htasks : tasks' = tasks) (hreceipts : receipts' = receipts)
  /-- A synchronous task is on record before it is executed. -/
  | opened {t : String} {record : TaskRecord}
      (hget : ∀ t', tasks'.get t' = if t = t' then some record else tasks.get t')
      (hstatus : record.status = .accepted) (hreceipts : receipts' = receipts)
  | entered {t : String} {record : TaskRecord} {receipt : ExecutionReceipt}
      (hget : ∀ t', tasks'.get t' = if t = t' then some record else tasks.get t')
      (hreceipt : record.receipt = some receipt) (htask : receipt.taskId = some t)
      (hnew : receipts.get receipt.receiptId = none)
      (hreceipts : receipts' = (receipts.append none receipt).2)

theorem on_record_of_set {tasks tasks' : TaskStore} {t t' : String} {record old : TaskRecord}
    (hget : ∀ t', tasks'.get t' = if t = t' then some record else tasks.get t')
    (hold : tasks.get t' = some old) : ∃ record', tasks'.get t' = some record' := by
  rw [hget]
  split
  · exact ⟨record, rfl⟩
  · exact ⟨old, hold⟩

/-- **An entry keeps the stores in agreement.** -/
theorem StoresAgree.entry {tasks tasks' : TaskStore} {receipts receipts' : ReceiptStore}
    (h : StoresAgree tasks receipts) (hentry : Entry tasks receipts tasks' receipts') :
    StoresAgree tasks' receipts' := by
  cases hentry with
  | unwritten htasks hreceipts =>
      rw [htasks, hreceipts]
      exact h
  | opened hget hstatus hreceipts =>
      rw [hreceipts]
      constructor
      · intro t' record' hrecord hlisted
        rw [hget] at hrecord
        split at hrecord
        · obtain rfl := Option.some.inj hrecord
          rw [hstatus] at hlisted
          exact absurd hlisted (by decide)
        · exact h.stored t' record' hrecord hlisted
      · intro id receipt hid
        obtain ⟨t', old, htask, hold⟩ := h.named id receipt hid
        obtain ⟨record', hrecord'⟩ := on_record_of_set hget hold
        exact ⟨t', record', htask, hrecord'⟩
  | @entered t record receipt hget hreceipt htask hnew hreceipts =>
      -- the receipt has an id of its own, so the append adds it and keeps the others
      have hfree : receipts.receipts.get receipt.receiptId = none := hnew
      have hpush : receipts' = receipts.push receipt hfree := by
        rw [hreceipts, ReceiptStore.append_of_new none hnew]
      constructor
      · intro t' record' hrecord hlisted
        rw [hget] at hrecord
        split at hrecord
        · obtain rfl := Option.some.inj hrecord
          exact ⟨receipt, hreceipt, by rw [hpush, ReceiptStore.get_push, if_pos rfl]⟩
        · obtain ⟨receipt', hreceipt', hstored⟩ := h.stored t' record' hrecord hlisted
          refine ⟨receipt', hreceipt', ?_⟩
          rw [hreceipts]
          exact ReceiptStore.get_append_of_get hstored
      · intro id receipt' hid
        rw [hpush, ReceiptStore.get_push] at hid
        split at hid
        · obtain rfl := Option.some.inj hid
          exact ⟨t, record, htask, by rw [hget, if_pos rfl]⟩
        · obtain ⟨t', old, htask', hold⟩ := h.named id receipt' hid
          obtain ⟨record', hrecord'⟩ := on_record_of_set hget hold
          exact ⟨t', record', htask', hrecord'⟩

namespace Orchestrator

variable {env : OrchestratorEnv} {now : Millis} {faults : Faults}

/-- No write of the two stores throws. -/
structure StoresWork (faults : Faults) : Prop where
  save   : faults.save = none
  update : faults.update = none
  append : faults.append = none

/-! ## Submissions

The record is saved before the receipt is appended, and a full queue undoes the first only. -/

section Submit

variable {w : Runtime} {call : Nat} {ready : Ready} {submitted : InvokeResult}

/-- The stores with the record and the receipt of a submission. -/
theorem entry_submitted {w' : Runtime}
    (hsaved : w'.taskStore = (recorded now ready submitted w).taskStore)
    (htask : submitted.receipt.taskId = some ready.envelope.taskId)
    (hnew : w.receiptStore.get submitted.receipt.receiptId = none)
    (happended : w'.receiptStore = (w.receiptStore.append none submitted.receipt).2) :
    Entry w.taskStore w.receiptStore w'.taskStore w'.receiptStore :=
  .entered (fun t => by rw [hsaved]; exact recorded_get t) rfl htask hnew happended

theorem submits_entry {submission : Submission} {q : AsyncTaskQueue Ready}
    {s : AsyncTaskQueue Ready × Runtime} (hfaults : StoresWork faults)
    (hroom : submission = .async → q.queue.length < env.queueOptions.queueDepth)
    (hstatus : submission = .sync → submitted.result.status = .accepted)
    (htask : submitted.receipt.taskId = some ready.envelope.taskId)
    (hnew : w.receiptStore.get submitted.receipt.receiptId = none)
    (h : Submits env now faults call ready submitted q w submission s) :
    Entry w.taskStore w.receiptStore s.2.taskStore s.2.receiptStore := by
  have happended : ∀ submission, (withReceipt faults submitted.receipt
      (entered now call submission ready submitted w)).receiptStore =
        (w.receiptStore.append none submitted.receipt).2 := by
    intro submission
    unfold withReceipt
    rw [hfaults.append]
    rfl
  cases h with
  | unchecked => exact .unwritten rfl rfl
  | unsaved _ hsave => cases hsave.symm.trans hfaults.save
  | unappended => exact entry_submitted rfl htask hnew (happended _)
  | unnotified => exact entry_submitted rfl htask hnew (happended _)
  | notified => exact entry_submitted rfl htask hnew (happended _)
  | queued => exact entry_submitted rfl htask hnew (happended _)
  | refused _ hqueue =>
      -- a queue with room takes the job
      have haccepts : (q.enqueue env.queueOptions (enqueueParams ready)).1 = true :=
        enqueue_accepts.mpr (hroom rfl)
      rw [hqueue] at haccepts
      cases haccepts
  | suspends =>
      have hget : ∀ t', (recorded now ready submitted w).taskStore.get t' =
          if ready.envelope.taskId = t' then some ((ready.saveParams submitted).toRecord now)
          else w.taskStore.get t' := fun t' => TaskStore.get_insert _ _ _
      exact .opened hget (hstatus rfl) rfl

end Submit

/-- A submission's receipt names its task and has an id of its own. -/
theorem Planned.receipt_new {w : Runtime} (h : Numbering env w) {request : DispatchRequest}
    {submission : Submission} {ready : Ready} {submitted : InvokeResult}
    (hp : Planned env w.policy w.taskStore now w.nextUuid request submission ready submitted) :
    submitted.receipt.taskId = some ready.envelope.taskId ∧
      w.receiptStore.get submitted.receipt.receiptId = none :=
  ⟨congrArg UnsignedReceipt.taskId (stageReceipt_eq_ok hp.receipt),
    h.unused (endsIn_stage hp.receipt) (Nat.le_succ _)⟩

/-- A dispatch that does not find its queue full. -/
theorem dispatch_entry {w : Runtime} {q : AsyncTaskQueue Ready} {request : DispatchRequest}
    (hnumbering : Numbering env w) (hfaults : StoresWork faults)
    (hroom : ∀ ready submitted, planDispatch env w.policy w.taskStore now
      (q.hasCapacity env.queueOptions) w.nextUuid request = .ok (.submit .async ready submitted) →
        q.queue.length < env.queueOptions.queueDepth) :
    Entry w.taskStore w.receiptStore (dispatch env now faults request (q, w)).2.taskStore
      (dispatch env now faults request (q, w)).2.receiptStore := by
  have hturn := dispatch_cases env now faults request q w
  generalize dispatch env now faults request (q, w) = s at hturn ⊢
  cases hturn with
  | rejected | found | waits => exact .unwritten rfl rfl
  | @submits submission ready submitted _ hplan hsubmits =>
      have hp := planDispatch_submit hplan
      obtain ⟨htask, hnew⟩ := hp.receipt_new hnumbering
      refine submits_entry (w := numbered w) hfaults ?_ ?_ htask hnew hsubmits
      · rintro rfl
        exact hroom _ _ hplan
      · rintro rfl
        exact hp.status

/-! ## The other methods

A record that takes an outcome gets its receipt appended; a cancellation appends none. -/

theorem approve_entry (request : ApprovalRequest) (w : Runtime) :
    Entry w.taskStore w.receiptStore (approve env request w).taskStore
      (approve env request w).receiptStore := by
  unfold approve
  dsimp only
  split <;> exact .unwritten rfl rfl

theorem poll_entry (id : Nat) (w : Runtime) :
    Entry w.taskStore w.receiptStore (poll id w).taskStore (poll id w).receiptStore := by
  have hpolled := poll_polled id w
  generalize poll id w = w' at hpolled ⊢
  cases hpolled <;> exact .unwritten rfl rfl

/-- A cancellation that finds no task to cancel. -/
theorem cancelTask_entry {q : AsyncTaskQueue Ready} {taskId : String} {tenantId : Option String}
    {w : Runtime} (hidle : ∀ record, cancelTarget w.taskStore taskId tenantId = .ok (some record) →
      record.status ∉ cancellableStates) :
    Entry w.taskStore w.receiptStore (cancelTask env now faults q taskId tenantId w).taskStore
      (cancelTask env now faults q taskId tenantId w).receiptStore := by
  unfold cancelTask
  dsimp only
  split
  · exact .unwritten rfl rfl
  · rename_i outcome hplan
    obtain ⟨record, hcancellable⟩ := planCancel_eq_ok hplan
    exact absurd hcancellable.status (hidle record hcancellable.target)

/-- An outcome that is written to its record and then appended. -/
theorem entry_outcome {w : Runtime} {outcome : InvokeResult} {record : TaskRecord} {t : String}
    (hget : w.taskStore.get t = some record) (hid : record.taskId = t)
    (haccepts : Accepts record outcome)
    (hnew : w.receiptStore.get outcome.receipt.receiptId = none) :
    Entry w.taskStore w.receiptStore (w.taskStore.update now none t (outcomeUpdate outcome)).2
      (w.receiptStore.append none outcome.receipt).2 := by
  rcases update_outcome w.taskStore now none t outcome with
    ⟨hnone, _⟩ | ⟨old, _, hold, hrefuses, _⟩ | ⟨old, hold, _, heq⟩
  · rw [hget] at hnone
    cases hnone
  · obtain rfl := Option.some.inj (hget.symm.trans hold)
    exact absurd haccepts hrefuses
  · obtain rfl := Option.some.inj (hget.symm.trans hold)
    rw [heq]
    refine .entered (fun t' => OrderedMap.get_set _ _ _ _) rfl ?_ hnew rfl
    rw [haccepts.receipt, hid]

theorem resume_entry {w : Runtime} (hledger : Ledger env w) (hnumbering : Numbering env w)
    (hfaults : StoresWork faults) (id : Nat) (outcome : Except Rejection ExecutionResult) :
    Entry w.taskStore w.receiptStore (resume env now faults id outcome w).taskStore
      (resume env now faults id outcome w).receiptStore := by
  have hresumed : Resumed env now faults w id outcome (resume env now faults id outcome w) :=
    resume_cases hledger id outcome
  generalize resume env now faults id outcome w = w' at hresumed
  cases hresumed with
  | absent => exact .unwritten rfl rfl
  | rejected =>
      exact .unwritten (finish_frame _ _ _).taskStore (finish_frame _ _ _).receiptStore
  | @refused call coreResult normalized record e harrives hrefuses =>
      -- a record that refuses the outcome is as it was
      have hframe := finish_frame call (.error (some e))
        (offered env now faults call coreResult normalized w)
      refine .unwritten (hframe.taskStore.trans ?_) hframe.receiptStore
      show (w.taskStore.update now faults.update call.envelope.taskId _).2 = w.taskStore
      rcases update_outcome w.taskStore now faults.update call.envelope.taskId
        (Origin.stamp call.origin normalized) with ⟨_, heq⟩ | ⟨_, _, _, _, heq⟩ |
          ⟨old, hold, haccepts, _⟩
      · rw [heq]
      · rw [heq]
      · obtain rfl := Option.some.inj (harrives.record.symm.trans hold)
        exact absurd haccepts hrefuses
  | unsaved _ _ hfault =>
      rw [hfaults.update] at hfault
      cases hfault
  | @saved call coreResult normalized record harrives haccepts =>
      rw [(finish_frame _ _ _).taskStore, (finish_frame _ _ _).receiptStore]
      unfold withReceipt offered arrived
      rw [hfaults.update, hfaults.append]
      exact entry_outcome harrives.record (hledger.records _ _ harrives.record).taskId haccepts
        (hnumbering.unused (endsIn_normalized harrives.normalized) (Nat.le_refl _))

/-! ## The queue -/

theorem onDeadLetter_entry {w : Runtime} (hledger : Ledger env w) (hnumbering : Numbering env w)
    (hfaults : StoresWork faults) (job : QueueJob Ready) (deadLetter : DeadLetterRecord) :
    Entry w.taskStore w.receiptStore
      (onDeadLetter env now faults job deadLetter w).2.taskStore
      (onDeadLetter env now faults job deadLetter w).2.receiptStore := by
  unfold onDeadLetter
  dsimp only
  cases hstage : job.run.stageReceipt env now w.nextUuid "dead_lettered" with
  | error e => exact .unwritten rfl rfl
  | ok receipt =>
      have hnew : w.receiptStore.get receipt.receiptId = none :=
        hnumbering.unused (endsIn_stage hstage) (Nat.le_refl _)
      dsimp only
      unfold updateTask
      dsimp only
      rw [hfaults.update]
      rcases update_outcome w.taskStore now none job.run.envelope.taskId
        ⟨job.run.deadLetterResult deadLetter.error, receipt⟩ with
          ⟨hnone, heq⟩ | ⟨_, _, _, _, heq⟩ | ⟨old, hold, haccepts, heq⟩
      · -- no record, no receipt
        rw [heq]
        dsimp only
        rw [hnone]
        exact .unwritten rfl rfl
      · rw [heq]
        exact .unwritten rfl rfl
      · have hentry := @entry_outcome now w ⟨job.run.deadLetterResult deadLetter.error, receipt⟩ old
          _ hold (hledger.records _ _ hold).taskId haccepts hnew
        rw [heq] at hentry ⊢
        dsimp only [persist, Except.map]
        unfold TaskStore.get
        rw [OrderedMap.get_set_self]
        unfold appendReceipt
        rw [hfaults.append]
        exact hentry

/-- What the moves of the queue keep. -/
structure Agreed (env : OrchestratorEnv) (w : Runtime) : Prop where
  ledger    : Ledger env w
  numbering : Numbering env w
  agree     : StoresAgree w.taskStore w.receiptStore

theorem Agreed.of_moves {g : Guard} {w w' : Runtime} (h : Agreed env w)
    (hmoves : Moves env g now w w')
    (hentry : Entry w.taskStore w.receiptStore w'.taskStore w'.receiptStore) : Agreed env w' where
  ledger := h.ledger.moves hmoves
  numbering := moves_invariant (fun _ _ _ _ hn hm => numbering_move hn hm) h.ledger h.numbering hmoves
  agree := h.agree.entry hentry

theorem agreed_queueStep {s : World} (hledger : WorldLedger env s) (h : Agreed env s.outer)
    (hfaults : StoresWork faults) {label : QueueLabel Ready} (hlabel : label.internal) :
    Agreed env (queueStep env faults s label).outer := by
  refine hledger.queueStep_keeps hlabel h (fun job w _ hknown hagreed => ?_)
    fun job record w hw hknown hagreed => ?_
  · exact hagreed.of_moves (g := .any) (runJob_moves hknown) (.unwritten rfl rfl)
  · exact hagreed.of_moves (g := .any) (onDeadLetter_moves hw hknown)
      (onDeadLetter_entry hw hagreed.numbering hfaults job record)

/-! ## Steps and runs -/

/-- **The condition on a step.** No write of the stores throws, no task is cancelled, and an
asynchronous task that is put on record finds room in the queue. -/
def WritesBoth (env : OrchestratorEnv) (s : World) : Label → Prop
  | .dispatch request faults => StoresWork faults ∧ ∀ ready submitted,
      planDispatch env s.outer.policy s.outer.taskStore s.now
        (s.queue.hasCapacity env.queueOptions) s.outer.nextUuid request =
          .ok (.submit .async ready submitted) →
        s.queue.queue.length < env.queueOptions.queueDepth
  | .cancelTask taskId tenantId _ => ∀ record,
      cancelTarget s.outer.taskStore taskId tenantId = .ok (some record) →
        record.status ∉ cancellableStates
  | .resume _ _ faults => StoresWork faults
  | .jobSettles _ faults => StoresWork faults
  | .queue _ faults => StoresWork faults
  | _ => True

theorem agreed_step {s : World} (hledger : WorldLedger env s) (h : Agreed env s.outer) {l : Label}
    (hl : WritesBoth env s l) : Agreed env (step env s l).outer := by
  have hmoves := (step_moves hledger (allowed_any env s l)).1
  cases l with
  | dispatch request faults => exact h.of_moves hmoves (dispatch_entry h.numbering hl.1 hl.2)
  | approve request => exact h.of_moves hmoves (approve_entry request s.outer)
  | cancelTask taskId tenantId faults => exact h.of_moves hmoves (cancelTask_entry hl)
  | setPolicy policy => exact h.of_moves hmoves (.unwritten rfl rfl)
  | resume id outcome faults =>
      exact h.of_moves hmoves (resume_entry h.ledger h.numbering hl id outcome)
  | poll id => exact h.of_moves hmoves (poll_entry id s.outer)
  | jobSettles id faults =>
      show Agreed env (jobSettles env faults id s).outer
      unfold jobSettles
      split
      · exact h
      · -- the closure's promise is taken off, and the queue sees it settle
        rename_i outcome _
        obtain ⟨hover, hsettled⟩ := @settledRun_moves env .any s.now s hledger id
        exact agreed_queueStep hsettled (h.of_moves hover (.unwritten rfl rfl)) hl trivial
  | queue turn faults => exact agreed_queueStep hledger h hl (QueueTurn.internal _ turn)
  | tick ms =>
      have hnone : StoresWork {} := ⟨rfl, rfl, rfl⟩
      exact agreed_queueStep hledger h hnone trivial

/-- **The two stores agree** in every state of a run that cancels no task and queues every
asynchronous task it puts on record. -/
theorem stores_agree (env : OrchestratorEnv) (policy : PolicyDocument)
    (deadLetters : List DeadLetterRecord) (now : Millis) (ls : List Label)
    (hls : Transition.StepsMeet (step env) (WritesBoth env) (init env policy deadLetters now) ls) :
    StoresAgree (run env (init env policy deadLetters now) ls).outer.taskStore
      (run env (init env policy deadLetters now) ls).outer.receiptStore := by
  have hinit : Agreed env (init env policy deadLetters now).outer :=
    ⟨(init_worldLedger env policy deadLetters now).ledger,
      (init_trail env policy deadLetters now).numbering, storesAgree_empty⟩
  have hrun := Transition.run_invariant
    (I := fun s => WorldLedger env s ∧ Agreed env s.outer)
    (fun s l hinv hl => ⟨(step_moves hinv.1 (allowed_any env s l)).2,
      agreed_step hinv.1 hinv.2 hl⟩) ⟨init_worldLedger env policy deadLetters now, hinit⟩ hls
  exact hrun.2.agree

/-- The sample task is submitted for approval, approved and executed. -/
theorem stores_agree_sample : StoresAgree
    (run (sampleEnv "ops.restart" noCrypto) (sampleInit .requireApproval)
      [sampleDispatch "ops.restart" none {}, sampleApprove "alice" "restart web",
        .resume 1 (.ok sampleResult) {}]).outer.taskStore
    (run (sampleEnv "ops.restart" noCrypto) (sampleInit .requireApproval)
      [sampleDispatch "ops.restart" none {}, sampleApprove "alice" "restart web",
        .resume 1 (.ok sampleResult) {}]).outer.receiptStore := by
  refine stores_agree _ _ _ _ _ ⟨⟨⟨rfl, rfl, rfl⟩, ?_⟩, trivial, ⟨rfl, rfl, rfl⟩, trivial⟩
  intro ready submitted _
  decide

/-- The sample task is cancelled: its record carries a receipt that is nowhere else. -/
theorem cancellation_unstored : ¬ StoresAgree
    (run (sampleEnv "ops.restart" noCrypto) (sampleInit .requireApproval)
      [sampleDispatch "ops.restart" none {}, .cancelTask "t1" none {}]).outer.taskStore
    (run (sampleEnv "ops.restart" noCrypto) (sampleInit .requireApproval)
      [sampleDispatch "ops.restart" none {}, .cancelTask "t1" none {}]).outer.receiptStore := by
  intro h
  have hrevoked : ∃ record receipt,
      (run (sampleEnv "ops.restart" noCrypto) (sampleInit .requireApproval)
        [sampleDispatch "ops.restart" none {}, .cancelTask "t1" none {}]).outer.taskStore.get "t1" =
          some record ∧ record.status = .revoked ∧ record.receipt = some receipt ∧
      (run (sampleEnv "ops.restart" noCrypto) (sampleInit .requireApproval)
        [sampleDispatch "ops.restart" none {}, .cancelTask "t1" none {}]).outer.receiptStore.get
          receipt.receiptId = none := ⟨_, _, rfl, rfl, rfl, rfl⟩
  obtain ⟨record, receipt, hget, hstatus, hreceipt, hnone⟩ := hrevoked
  obtain ⟨receipt', hreceipt', hstored⟩ := h.stored "t1" record hget (by rw [hstatus]; decide)
  obtain rfl := Option.some.inj (hreceipt.symm.trans hreceipt')
  rw [hnone] at hstored
  cases hstored

end Orchestrator

end MapProtocol
