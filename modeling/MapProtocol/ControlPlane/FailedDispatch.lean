import MapProtocol.ControlPlane.Audit

/-!
# Dispatches that fail

A dispatch that throws should leave the stores as it found them, or its task at an end. `dispatch`
saves the record first and appends the receipt second, and most of its later exits undo neither: a
write that throws, an approver who cannot be notified, a queue that refuses the job (whose record is
deleted, but not its receipt), an adapter that throws under a synchronous dispatch.
`failed_dispatches_undone` says that these are all.

A dispatch may take several turns of the event loop, with other calls between them. Only its own
turns are held against it.
-/

namespace MapProtocol

open Js

namespace Orchestrator

variable {env : OrchestratorEnv} {now : Millis} {faults : Faults}

/-! ## The turns of a dispatch

A dispatch starts in one turn, its executor answers in another, and a dispatch that finds its task
stored looks again in up to 200 more. `Undone` is about all of them together. -/

def SameRecords (w w' : Runtime) : Prop :=
  w'.taskStore.tasks = w.taskStore.tasks ∧ w'.receiptStore.receipts = w.receiptStore.receipts

theorem SameRecords.refl (w : Runtime) : SameRecords w w := ⟨rfl, rfl⟩

/-- The turn runs the dispatch numbered `c`: its start, its return from the executor, or one of its
looks at a stored task. -/
def TurnOf (s : World) (c : Nat) : Label → Prop
  | .dispatch _ _  => c = s.outer.nextCall
  | .resume id _ _ => c = id ∧
      ∃ call, s.outer.calls.find? (·.id == id) = some call ∧ call.origin = .dispatch
  | .poll id       => c = id
  | _              => False

/-- No turn of the dispatch numbered `c` has changed a record, in the run of `ls` from `s`. -/
def Untouched (env : OrchestratorEnv) (s : World) (ls : List Label) (c : Nat) : Prop :=
  ∀ ks l, ks ++ [l] <+: ls → TurnOf (run env s ks) c l →
    SameRecords (run env s ks).outer (run env s (ks ++ [l])).outer

/-- In the turn `l`, the dispatch numbered `c` throws. -/
def Throws (env : OrchestratorEnv) (s : World) (l : Label) (c : Nat) (t : String)
    (rejection : Rejection) : Prop :=
  ∃ events, (step env s l).outer.history = events ++ s.outer.history ∧
    .threw c .dispatch t rejection ∈ events

/-- **No half state**: the dispatch numbered `c` has changed no record, or its task `t` has ended
with a result. -/
def Undone (env : OrchestratorEnv) (s : World) (ls : List Label) (c : Nat) (t : String) : Prop :=
  Untouched env s ls c ∨ ∃ record, (run env s ls).outer.taskStore.get t = some record ∧
    isTerminal record.status = true ∧ record.result.isSome = true

theorem run_concat (s : World) (ls : List Label) (l : Label) :
    run env s (ls ++ [l]) = step env (run env s ls) l := by
  unfold run
  rw [Transition.run_append]
  rfl

theorem untouched_concat {s : World} {ls : List Label} {l : Label} {c : Nat} :
    Untouched env s (ls ++ [l]) c ↔ Untouched env s ls c ∧ (TurnOf (run env s ls) c l →
      SameRecords (run env s ls).outer (step env (run env s ls) l).outer) := by
  constructor
  · intro h
    refine ⟨fun ks k hks => h ks k (hks.trans (List.prefix_append _ _)), fun hturn => ?_⟩
    rw [← run_concat]
    exact h ls l (List.prefix_refl _) hturn
  · rintro ⟨hls, hlast⟩ ks k hks hturn
    rcases List.prefix_concat_iff.mp hks with heq | hshort
    · obtain ⟨rfl, hk⟩ := List.append_inj' heq rfl
      obtain rfl := List.singleton_inj.mp hk
      rw [run_concat]
      exact hlast hturn
    · exact hls ks k hshort hturn

/-! ## Turns that run no dispatch

Approvals, cancellations and the queue write to the same stores. They are quiet: what they throw, no
dispatch throws. -/

/-- No dispatch throws, and none comes to wait. -/
structure Quiet (w w' : Runtime) : Prop where
  waiters : w'.waiters = w.waiters
  calls   : ∀ call ∈ w'.calls, call ∈ w.calls ∨ call.origin ≠ .dispatch
  history : ∃ events, w'.history = events ++ w.history ∧
    ∀ c t rejection, .threw c .dispatch t rejection ∉ events

theorem Quiet.refl (w : Runtime) : Quiet w w := ⟨rfl, fun _ h => .inl h, [], rfl, by simp⟩

theorem Quiet.trans {w w' w'' : Runtime} (h : Quiet w w') (h' : Quiet w' w'') : Quiet w w'' := by
  obtain ⟨events, hevents, hnone⟩ := h.history
  obtain ⟨events', hevents', hnone'⟩ := h'.history
  refine ⟨h'.waiters.trans h.waiters, fun call hcall => ?_, events' ++ events, ?_, ?_⟩
  · rcases h'.calls call hcall with hold | hne
    · exact h.calls call hold
    · exact .inr hne
  · rw [hevents', hevents, List.append_assoc]
  · intro c t rejection hmem
    rcases List.mem_append.mp hmem with hmem | hmem
    · exact hnone' c t rejection hmem
    · exact hnone c t rejection hmem

theorem Quiet.of_events {w w' : Runtime} (events : List Event) (hwaiters : w'.waiters = w.waiters)
    (hcalls : w'.calls = w.calls) (hhistory : w'.history = events ++ w.history)
    (hnone : ∀ c t rejection, .threw c .dispatch t rejection ∉ events) : Quiet w w' :=
  ⟨hwaiters, fun _ h => .inl (hcalls ▸ h), events, hhistory, hnone⟩

theorem Quiet.of_writes {w w' : Runtime} {events : List Event} (h : Writes events w w')
    (hnone : ∀ c t rejection, .threw c .dispatch t rejection ∉ events) : Quiet w w' :=
  .of_events events h.waiters h.calls h.history hnone

theorem suspend_throws (call : Call) (w : Runtime) :
    ∃ events, (suspend call w).history = events ++ w.history ∧
      ∀ c t rejection, .threw c .dispatch t rejection ∉ events := by
  unfold suspend
  dsimp only
  split
  · exact ⟨[_], rfl, by simp⟩
  · exact ⟨[], rfl, by simp⟩

theorem quiet_suspend {call : Call} (horigin : call.origin ≠ .dispatch) (w : Runtime) :
    Quiet w (suspend call w) := by
  refine ⟨rfl, fun c hc => ?_, suspend_throws call w⟩
  rcases List.mem_append.mp hc with hold | hnew
  · exact .inl hold
  · rw [List.mem_singleton.mp hnew]
    exact .inr horigin

theorem quiet_approve (request : ApprovalRequest) (w : Runtime) :
    Quiet w (approve env request w) := by
  rcases @approve_writes env request w with
    ⟨rejection, hwrites⟩ | ⟨w₁, approval, started, hwrites, horigin, -, heq⟩
  · exact .of_writes hwrites (by simp)
  · have happroving : Quiet w w₁ := .of_writes hwrites (by simp)
    rw [heq]
    exact happroving.trans (quiet_suspend (by simp [horigin]) w₁)

theorem quiet_cancelTask (q : AsyncTaskQueue Ready) (taskId : String) (tenantId : Option String)
    (w : Runtime) : Quiet w (cancelTask env now faults q taskId tenantId w) := by
  obtain ⟨event, hwrites, hevent⟩ := @cancelTask_writes env now faults q taskId tenantId w
  refine .of_writes hwrites fun c t rejection hmem => ?_
  obtain rfl := List.mem_singleton.mp hmem
  rcases hevent with ⟨rejection, heq⟩ | ⟨queued, outcome, heq⟩ <;> cases heq

theorem quiet_onDeadLetter (job : QueueJob Ready) (deadLetter : DeadLetterRecord) (w : Runtime) :
    Quiet w (onDeadLetter env now faults job deadLetter w).2 :=
  .of_writes (onDeadLetter_writes job deadLetter w) (by simp)

theorem quiet_runJob (job : QueueJob Ready) (w : Runtime) : Quiet w (runJob env now job w) := by
  have hnumbered : Quiet w { w with nextCall := w.nextCall + 1 } :=
    .of_events [] rfl rfl rfl (by simp)
  exact hnumbered.trans (quiet_suspend (by simp) _)

theorem quiet_queueStep (s : World) {label : QueueLabel Ready} (hlabel : label.internal) :
    Quiet s.outer (queueStep env faults s label).outer :=
  queueStep_keeps hlabel (.refl _) (fun job w h => h.trans (quiet_runJob job w))
    fun job record w h => h.trans (quiet_onDeadLetter job record w)

theorem quiet_jobSettles (id : Nat) (s : World) :
    Quiet s.outer (jobSettles env faults id s).outer := by
  unfold jobSettles
  split
  · exact .refl _
  · rename_i outcome _
    -- the closure's promise is taken off, and the queue sees it settle
    have hover : Quiet s.outer
        { s.outer with settledRuns := s.outer.settledRuns.eraseP (·.1 == id) } :=
      .of_events [] rfl rfl rfl (by simp)
    have hturn := @quiet_queueStep env faults
      { s with outer := { s.outer with settledRuns := s.outer.settledRuns.eraseP (·.1 == id) } }
      (.settle id outcome faults.deadLetter) trivial
    exact hover.trans hturn

/-! ## The turn that starts a dispatch

A plan writes nothing, so a dispatch that throws while it is planned is undone. Afterwards the
record is saved first, and only a refused job makes the source delete it again. -/

/-- What a submission needs beyond a record that can be saved. -/
def Submission.Lands (env : OrchestratorEnv) (faults : Faults) (q : AsyncTaskQueue Ready)
    (ready : Ready) : Submission → Prop
  | .approval =>
      faults.save = none ∧ faults.append = none ∧ notifyThrows env ready.envelope = false
  | .async    =>
      faults.save = none ∧ faults.append = none ∧ q.queue.length < env.queueOptions.queueDepth
  | .sync     => faults.save = none

theorem enqueue_accepts {q : AsyncTaskQueue Ready} {params : EnqueueParams Ready} :
    (q.enqueue env.queueOptions params).1 = true ↔
      q.queue.length < env.queueOptions.queueDepth := by
  unfold AsyncTaskQueue.enqueue
  split <;> simp_all

/-- **The condition on a turn.** A dispatch that saves its record gets through the turn: no write
throws, the approver can be notified, the queue has room. The adapter under a synchronous dispatch
answers, if the task has not ended meanwhile. -/
def GetsThrough (env : OrchestratorEnv) (s : World) : Label → Prop
  | .dispatch request faults => ∀ submission ready submitted,
      planDispatch env s.outer.policy s.outer.taskStore s.now
        (s.queue.hasCapacity env.queueOptions) s.outer.nextUuid request =
          .ok (.submit submission ready submitted) →
      s.outer.taskStore.checkSave (ready.saveParams submitted) = .ok () →
        submission.Lands env faults s.queue ready
  | .resume id outcome _ => ∀ call, s.outer.calls.find? (·.id == id) = some call →
      call.origin = .dispatch → ∀ e, settledAnswer call.invocation outcome = .error e →
        ∀ record, s.outer.taskStore.get call.envelope.taskId = some record →
          isTerminal record.status = true
  | _ => True

/-- **What a dispatch can do in its first turn.** -/
inductive Dispatched (w w' : Runtime) (lands : Prop) : Prop
  /-- It ends or comes to wait, and has written nothing. -/
  | unwritten (events : List Event) (hrecords : SameRecords w w') (hcalls : w'.calls = w.calls)
      (hwaiters : w'.waiters = w.waiters ∨ ∃ t, w'.waiters = w.waiters ++ [⟨w.nextCall, t, 1⟩])
      (hcall : w'.nextCall = w.nextCall + 1) (hhistory : w'.history = events ++ w.history)
      (hthrown : ∀ c t rejection, .threw c .dispatch t rejection ∈ events → c = w.nextCall)
      (hlands : lands)
  /-- It has written its record and gets through. -/
  | landed (events : List Event) (hrecords : ¬ SameRecords w w')
      (hcalls : ∀ call ∈ w'.calls, call ∈ w.calls ∨ call.id = w.nextCall)
      (hwaiters : w'.waiters = w.waiters) (hcall : w'.nextCall = w.nextCall + 1)
      (hhistory : w'.history = events ++ w.history)
      (hthrown : ∀ c t rejection, .threw c .dispatch t rejection ∉ events) (hlands : lands)
  /-- It has written a record or a receipt, and throws. -/
  | abandoned (events : List Event) (t : String) (rejection : Rejection)
      (hrecords : ¬ SameRecords w w') (hcalls : w'.calls = w.calls)
      (hwaiters : w'.waiters = w.waiters) (hcall : w'.nextCall = w.nextCall + 1)
      (hhistory : w'.history = .threw w.nextCall .dispatch t rejection :: events ++ w.history)
      (hopen : ∀ record, w'.taskStore.get t = some record → isTerminal record.status = false)
      (hlands : ¬ lands)

section Submit

variable {w w' : Runtime} {q : AsyncTaskQueue Ready} {request : DispatchRequest}
  {submission : Submission} {ready : Ready} {submitted : InvokeResult}

theorem not_sameRecords_of_get {t : String} {record : TaskRecord}
    (habsent : w.taskStore.get t = none) (hget : w'.taskStore.get t = some record) :
    ¬ SameRecords w w' := by
  intro h
  unfold TaskStore.get at habsent hget
  rw [h.1, habsent] at hget
  cases hget

theorem Planned.open (hp : Planned env w.policy w.taskStore now w.nextUuid request submission ready
    submitted) : isTerminal ((ready.saveParams submitted).toRecord now).status = false := by
  show isTerminal submitted.result.status = false
  rw [hp.status]
  cases submission <;> rfl

theorem dispatched_of_unsaved {t e : String} {lands : Prop}
    (h : w.taskStore.checkSave (ready.saveParams submitted) = .error e) :
    Dispatched w (log (.threw w.nextCall .dispatch t (some e)) (numbered w))
      (w.taskStore.checkSave (ready.saveParams submitted) = .ok () → lands) := by
  refine .unwritten [_] (.refl w) rfl (.inl rfl) rfl rfl ?_ ?_
  · intro c t rejection hmem
    obtain ⟨rfl, -⟩ := by simpa using hmem
    rfl
  · intro hok
    rw [h] at hok
    cases hok

/-- A submission that throws after its record was saved leaves the record, which is not at an
end. -/
theorem dispatched_of_saved {e : String} {lands : Prop} (hledger : Ledger env w)
    (hp : Planned env w.policy w.taskStore now w.nextUuid request submission ready submitted)
    (hget : w'.taskStore.get ready.envelope.taskId =
      some ((ready.saveParams submitted).toRecord now))
    (hcalls : w'.calls = w.calls) (hwaiters : w'.waiters = w.waiters)
    (hcall : w'.nextCall = w.nextCall + 1)
    (hhistory : w'.history = createdEvent w.nextCall submission ready :: w.history)
    (hlands : ¬ lands) :
    Dispatched w (log (.threw w.nextCall .dispatch ready.envelope.taskId (some e)) w') lands := by
  refine .abandoned [createdEvent w.nextCall submission ready] ready.envelope.taskId (some e)
    (not_sameRecords_of_get (hp.absent hledger) hget) hcalls hwaiters hcall ?_ ?_ hlands
  · show _ :: w'.history = _
    rw [hhistory]
    rfl
  · intro record hrecord
    obtain rfl := Option.some.inj (hget.symm.trans hrecord)
    exact hp.open

/-- A receipt of a new submission can be appended, unless the write throws. -/
theorem append_submitted (hnumbering : Numbering env w)
    (hp : Planned env w.policy w.taskStore now w.nextUuid request submission ready submitted) :
    ∃ hnew, w.receiptStore.append faults.append submitted.receipt =
      (persist faults.append, w.receiptStore.push submitted.receipt hnew) := by
  have hunused : w.receiptStore.get submitted.receipt.receiptId = none :=
    hnumbering.unused (endsIn_stage hp.receipt) (Nat.le_succ _)
  exact ⟨hunused, ReceiptStore.append_of_new faults.append hunused⟩

/-- A submission whose record was deleted again leaves its receipt. -/
theorem dispatched_of_refused {e : String} {lands : Prop} (hledger : Ledger env w)
    (hnumbering : Numbering env w)
    (hp : Planned env w.policy w.taskStore now w.nextUuid request submission ready submitted)
    (hreceipts : w'.receiptStore = (w.receiptStore.append faults.append submitted.receipt).2)
    (htasks : w'.taskStore.tasks = w.taskStore.tasks) (hcalls : w'.calls = w.calls)
    (hwaiters : w'.waiters = w.waiters) (hcall : w'.nextCall = w.nextCall + 1)
    (hhistory : w'.history = w.history) (hlands : ¬ lands) :
    Dispatched w (log (.threw w.nextCall .dispatch ready.envelope.taskId (some e)) w') lands := by
  obtain ⟨hnew, happend⟩ := @append_submitted env now faults w _ _ _ _ hnumbering hp
  refine .abandoned [] ready.envelope.taskId (some e) ?_ hcalls hwaiters hcall ?_ ?_ hlands
  · intro hsame
    -- the receipt is in the later store and not in the earlier one
    have hget : w'.receiptStore.get submitted.receipt.receiptId = some submitted.receipt := by
      rw [hreceipts, happend, ReceiptStore.get_push, if_pos rfl]
    unfold ReceiptStore.get at hget
    rw [show w'.receiptStore.receipts = w.receiptStore.receipts from hsame.2, hnew] at hget
    cases hget
  · show _ :: w'.history = _
    rw [hhistory]
    rfl
  · intro record hget
    have habsent : w'.taskStore.get ready.envelope.taskId = none := by
      unfold TaskStore.get
      rw [htasks]
      exact hp.absent hledger
    cases habsent.symm.trans hget

/-- What a submission needs to get through, of what it has come to. -/
theorem Submission.Lands.save (h : submission.Lands env faults q ready) : faults.save = none := by
  cases submission with
  | approval => exact h.1
  | async => exact h.1
  | sync => exact h

theorem Submission.Lands.append (h : submission.Lands env faults q ready)
    (hsync : submission ≠ .sync) : faults.append = none := by
  cases submission with
  | approval => exact h.2.1
  | async => exact h.2.1
  | sync => exact absurd rfl hsync

theorem submits_dispatched {s : AsyncTaskQueue Ready × Runtime} (hledger : Ledger env w)
    (hnumbering : Numbering env w)
    (hp : Planned env w.policy w.taskStore now w.nextUuid request submission ready submitted)
    (h : Submits env now faults w.nextCall ready submitted q (numbered w) submission s) :
    Dispatched w s.2 (w.taskStore.checkSave (ready.saveParams submitted) = .ok () →
      submission.Lands env faults q ready) := by
  have habsent := hp.absent hledger
  obtain ⟨hnew, happend⟩ := @append_submitted env now faults w _ _ _ _ hnumbering hp
  -- a new receipt is not appended only if the write throws
  have hwritten : RecordSaved faults ready submitted (numbered w) →
      (w.receiptStore.append faults.append submitted.receipt).1 = .ok () →
        faults.append = none := by
    intro _ hok
    rw [happend] at hok
    cases hfault : faults.append with
    | none => rfl
    | some e =>
        rw [hfault] at hok
        cases hok
  cases h with
  | unchecked hcheck => exact dispatched_of_unsaved hcheck
  | unsaved hcheck hsave =>
      -- the record is in memory before the write of the file throws
      refine dispatched_of_saved hledger hp get_recorded rfl rfl rfl rfl fun hlands => ?_
      cases hsave.symm.trans (hlands hcheck).save
  | unappended hsync hsaved hfailed =>
      refine dispatched_of_saved hledger hp get_recorded rfl rfl rfl rfl fun hlands => ?_
      have hfailed' : (w.receiptStore.append faults.append submitted.receipt).1 = _ := hfailed
      rw [happend, (hlands hsaved.check).append hsync] at hfailed'
      cases hfailed'
  | unnotified hstored hthrows =>
      -- the approver cannot be told; record and receipt stay behind
      refine dispatched_of_saved hledger hp get_recorded rfl rfl rfl rfl fun hlands => ?_
      cases hthrows.symm.trans (hlands hstored.check).2.2
  | notified hstored hthrows =>
      refine .landed [_, createdEvent w.nextCall .approval ready]
        (not_sameRecords_of_get habsent get_recorded) (fun call hcall => .inl hcall) rfl rfl rfl ?_
        (fun _ => ⟨hstored.save, hwritten hstored.toRecordSaved hstored.append, hthrows⟩)
      simp [createdEvent]
  | queued hstored hqueue =>
      refine .landed [_, createdEvent w.nextCall .async ready]
        (not_sameRecords_of_get habsent get_recorded) (fun call hcall => .inl hcall) rfl rfl rfl ?_
        (fun _ => ⟨hstored.save, hwritten hstored.toRecordSaved hstored.append,
          enqueue_accepts.mp (congrArg Prod.fst hqueue)⟩)
      simp [createdEvent]
  | refused hstored hqueue =>
      -- the record is taken back
      have hdeleted := (@delete_insert w.taskStore
        ((ready.saveParams submitted).toRecord now) faults.delete habsent).1
      refine dispatched_of_refused hledger hnumbering hp rfl hdeleted rfl rfl rfl rfl fun hlands => ?_
      have haccepts : (q.enqueue env.queueOptions (enqueueParams ready)).1 = true :=
        enqueue_accepts.mpr (hlands hstored.check).2.2
      rw [hqueue] at haccepts
      cases haccepts
  | suspends hsaved =>
      -- the call waits for the executor
      obtain ⟨events, hhistory, hnone⟩ := suspend_throws (dispatchCall env w.nextCall ready (numbered w))
        (entered now w.nextCall .sync ready submitted (numbered w))
      refine .landed (events ++ [createdEvent w.nextCall .sync ready])
        (not_sameRecords_of_get habsent get_recorded) (fun call hcall => ?_) rfl rfl ?_ ?_
        (fun _ => hsaved.save)
      · rcases List.mem_append.mp hcall with hold | hnew
        · exact .inl hold
        · rw [List.mem_singleton.mp hnew]
          exact .inr rfl
      · rw [List.append_assoc]
        exact hhistory
      · intro c t rejection hmem
        rcases List.mem_append.mp hmem with hmem | hmem
        · exact hnone c t rejection hmem
        · cases List.mem_singleton.mp hmem

end Submit

/-- The first turn, from a state of a run. -/
theorem dispatch_dispatched {s : World} (hledger : Ledger env s.outer)
    (hnumbering : Numbering env s.outer) (request : DispatchRequest) :
    Dispatched s.outer (step env s (.dispatch request faults)).outer
      (GetsThrough env s (.dispatch request faults)) := by
  show Dispatched s.outer (dispatch env s.now faults request (s.queue, s.outer)).2 _
  have hturn := dispatch_cases env s.now faults request s.queue s.outer
  generalize dispatch env s.now faults request (s.queue, s.outer) = s' at hturn ⊢
  -- a dispatch that submits nothing gets through, for it creates no record
  have hlands : (∀ submission ready submitted, planDispatch env s.outer.policy s.outer.taskStore
      s.now (s.queue.hasCapacity env.queueOptions) s.outer.nextUuid request ≠
        .ok (.submit submission ready submitted)) → GetsThrough env s (.dispatch request faults) :=
    fun hnever submission ready submitted hsubmit => absurd hsubmit (hnever _ _ _)
  cases hturn with
  | rejected hplan =>
      -- planning writes nothing
      refine .unwritten [_] (.refl _) rfl (.inl rfl) rfl rfl ?_ (hlands (by simp [hplan]))
      intro c t rejection hmem
      obtain ⟨rfl, -⟩ := by simpa using hmem
      rfl
  | found hplan =>
      exact .unwritten [_] (.refl _) rfl (.inl rfl) rfl rfl (by simp) (hlands (by simp [hplan]))
  | waits hplan =>
      exact .unwritten [] (.refl _) rfl (.inr ⟨_, rfl⟩) rfl rfl (by simp)
        (hlands (by simp [hplan]))
  | @submits submission ready submitted _ hplan hsubmits =>
      have hthrough : GetsThrough env s (.dispatch request faults) ↔
          (s.outer.taskStore.checkSave (ready.saveParams submitted) = .ok () →
            submission.Lands env faults s.queue ready) := by
        constructor
        · exact fun h => h submission ready submitted hplan
        · intro h submission' ready' submitted' hsubmit
          cases hplan.symm.trans hsubmit
          exact h
      rw [hthrough]
      exact submits_dispatched hledger hnumbering (planDispatch_submit hplan) hsubmits

/-! ## What a turn does to the dispatches

One type for every turn, so that the induction over a run sees three cases and not each method. -/

/-- **What a turn can do**, as far as dispatches go. -/
structure Turned (env : OrchestratorEnv) (s : World) (l : Label) : Prop where
  calls   : ∀ call ∈ (step env s l).outer.calls, call.origin = .dispatch → call ∈ s.outer.calls ∨
    TurnOf s call.id l ∧ ¬ SameRecords s.outer (step env s l).outer
  waiters : ∀ waiter ∈ (step env s l).outer.waiters,
    (∃ old ∈ s.outer.waiters, old.id = waiter.id) ∨
      waiter.id = s.outer.nextCall ∧ SameRecords s.outer (step env s l).outer
  turns   : ∀ c, TurnOf s c l → ¬ SameRecords s.outer (step env s l).outer →
    c = s.outer.nextCall ∧ s.outer.nextCall < (step env s l).outer.nextCall ∨
      ∃ call ∈ s.outer.calls, call.id = c ∧ call.origin = .dispatch
  /-- A dispatch throws with nothing written so far, or at the end of its task. -/
  undoes  : GetsThrough env s l → ∀ c t rejection, Throws env s l c t rejection →
    (SameRecords s.outer (step env s l).outer ∧
      (c = s.outer.nextCall ∨ ∃ waiter ∈ s.outer.waiters, waiter.id = c)) ∨
    ∃ record, (step env s l).outer.taskStore.get t = some record ∧
      isTerminal record.status = true ∧ record.result.isSome = true
  /-- A dispatch throws with something written, and its task is not at an end. -/
  leaves  : ¬ GetsThrough env s l → ∃ c t rejection, Throws env s l c t rejection ∧
    (TurnOf s c l ∧ ¬ SameRecords s.outer (step env s l).outer ∨
      ∃ call ∈ s.outer.calls, call.id = c ∧ call.origin = .dispatch) ∧
    ∀ record, (step env s l).outer.taskStore.get t = some record → isTerminal record.status = false

theorem Turned.of_quiet {s : World} {l : Label} (h : Quiet s.outer (step env s l).outer)
    (hturn : ∀ c, ¬ TurnOf s c l) (hthrough : GetsThrough env s l) : Turned env s l where
  calls call hcall horigin := by
    rcases h.calls call hcall with hold | hne
    · exact .inl hold
    · exact absurd horigin hne
  waiters waiter hwaiter := .inl ⟨waiter, h.waiters ▸ hwaiter, rfl⟩
  turns c hc := absurd hc (hturn c)
  undoes _ c t rejection hthrows := by
    obtain ⟨events, hhistory, hmem⟩ := hthrows
    obtain ⟨events', hhistory', hnone⟩ := h.history
    obtain rfl : events = events' := List.append_cancel_right (hhistory.symm.trans hhistory')
    exact absurd hmem (hnone c t rejection)
  leaves hnot := absurd hthrough hnot

theorem dispatch_turned {s : World} (hledger : Ledger env s.outer)
    (hnumbering : Numbering env s.outer) (request : DispatchRequest) :
    Turned env s (.dispatch request faults) := by
  have hthrown : ∀ {events : List Event} {c : Nat} {t : String} {rejection : Rejection},
      (step env s (.dispatch request faults)).outer.history = events ++ s.outer.history →
      Throws env s (.dispatch request faults) c t rejection →
        .threw c .dispatch t rejection ∈ events := by
    rintro events c t rejection hhistory ⟨events', hhistory', hmem⟩
    obtain rfl : events' = events := List.append_cancel_right (hhistory'.symm.trans hhistory)
    exact hmem
  have hturns : (step env s (.dispatch request faults)).outer.nextCall = s.outer.nextCall + 1 →
      ∀ c, TurnOf s c (.dispatch request faults) →
        ¬ SameRecords s.outer (step env s (.dispatch request faults)).outer →
      c = s.outer.nextCall ∧
          s.outer.nextCall < (step env s (.dispatch request faults)).outer.nextCall ∨
        ∃ call ∈ s.outer.calls, call.id = c ∧ call.origin = .dispatch :=
    fun hnext c hc _ => .inl ⟨hc, hnext ▸ Nat.lt_succ_self _⟩
  cases @dispatch_dispatched env faults s hledger hnumbering request with
  | unwritten events hrecords hcalls hwaiters hnext hhistory hthrows hlands =>
      refine ⟨fun call hcall _ => .inl (hcalls ▸ hcall), fun waiter hwaiter => ?_, hturns hnext, ?_,
        fun h => absurd hlands h⟩
      · rcases hwaiters with heq | ⟨t, heq⟩
        · exact .inl ⟨waiter, heq ▸ hwaiter, rfl⟩
        · rw [heq] at hwaiter
          rcases List.mem_append.mp hwaiter with hold | hnew
          · exact .inl ⟨waiter, hold, rfl⟩
          · rw [List.mem_singleton.mp hnew]
            exact .inr ⟨rfl, hrecords⟩
      · intro _ c t rejection h
        exact .inl ⟨hrecords, .inl (hthrows c t rejection (hthrown hhistory h))⟩
  | landed events hrecords hcalls hwaiters hnext hhistory hthrows hlands =>
      refine ⟨fun call hcall _ => ?_, fun waiter hwaiter => .inl ⟨waiter, hwaiters ▸ hwaiter, rfl⟩,
        hturns hnext, ?_, fun h => absurd hlands h⟩
      · exact (hcalls call hcall).imp id fun hid => ⟨hid, hrecords⟩
      · intro _ c t rejection h
        exact absurd (hthrown hhistory h) (hthrows c t rejection)
  | abandoned events t rejection hrecords hcalls hwaiters hnext hhistory hopen hlands =>
      refine ⟨fun call hcall _ => .inl (hcalls ▸ hcall),
        fun waiter hwaiter => .inl ⟨waiter, hwaiters ▸ hwaiter, rfl⟩, hturns hnext,
        fun h => absurd h hlands, fun _ => ?_⟩
      exact ⟨s.outer.nextCall, t, rejection, ⟨_ :: events, hhistory, List.mem_cons_self⟩,
        .inl ⟨rfl, hrecords⟩, hopen⟩

/-- **What a look at the store can do**: nothing, or the waiter goes on or ends its dispatch. -/
theorem poll_cases (id : Nat) (w : Runtime) :
    poll id w = w ∨ ∃ waiter ∈ w.waiters, waiter.id = id ∧ ∃ waiters events,
      poll id w = { w with waiters := waiters, history := events ++ w.history } ∧
        (∀ other ∈ waiters, other ∈ w.waiters ∨ other.id = id) ∧
        ∀ c t rejection, .threw c .dispatch t rejection ∈ events → c = id := by
  have hmem : ∀ {waiter : Waiter}, w.waiters.find? (·.id == id) = some waiter →
      waiter ∈ w.waiters ∧ waiter.id = id :=
    fun hfound => ⟨List.mem_of_find?_eq_some hfound, by simpa using List.find?_some hfound⟩
  have herased : ∀ other ∈ w.waiters.eraseP (·.id == id), other ∈ w.waiters ∨ other.id = id :=
    fun other hother => .inl (List.mem_of_mem_eraseP hother)
  have hpolled := poll_polled id w
  generalize poll id w = w' at hpolled ⊢
  cases hpolled with
  | absent => exact .inl rfl
  | timedOut hfound =>
      refine .inr ⟨_, (hmem hfound).1, (hmem hfound).2, _, [_], rfl, herased,
        fun c t rejection hthrown => ?_⟩
      obtain ⟨rfl, -⟩ := by simpa using hthrown
      rfl
  | answered hfound =>
      exact .inr ⟨_, (hmem hfound).1, (hmem hfound).2, _, [_], rfl, herased, by simp⟩
  | waits hfound =>
      refine .inr ⟨_, (hmem hfound).1, (hmem hfound).2, _, [], rfl, fun other hother => ?_, by simp⟩
      rcases List.mem_append.mp hother with hold | hnew
      · exact herased other hold
      · rw [List.mem_singleton.mp hnew]
        exact .inr (hmem hfound).2

theorem poll_turned {s : World} (id : Nat) : Turned env s (.poll id) := by
  rcases poll_cases id s.outer with
    hnone | ⟨waiter, hwaiter, hid, waiters, events, hpoll, hwaiters, hthrown⟩
  · have hpoll : (step env s (.poll id)).outer = s.outer := hnone
    refine ⟨fun call hcall _ => .inl (hpoll ▸ hcall),
      fun waiter hwaiter => .inl ⟨waiter, hpoll ▸ hwaiter, rfl⟩, fun _ _ h => ?_,
      fun _ c t rejection hthrows => ?_, fun h => absurd trivial h⟩
    · rw [hpoll] at h
      exact absurd (.refl _) h
    · obtain ⟨events, hhistory, hmem⟩ := hthrows
      rw [hpoll] at hhistory
      rw [List.self_eq_append_left.mp hhistory] at hmem
      cases hmem
  · have hpoll' : (step env s (.poll id)).outer =
        { s.outer with waiters := waiters, history := events ++ s.outer.history } := hpoll
    have hsame : SameRecords s.outer (step env s (.poll id)).outer := by
      rw [hpoll']
      exact ⟨rfl, rfl⟩
    refine ⟨fun call hcall _ => .inl ?_, fun other hother => .inl ?_,
      fun _ _ h => absurd hsame h, fun _ c t rejection hthrows => .inl ⟨hsame, .inr ?_⟩,
      fun h => absurd trivial h⟩
    · rw [hpoll'] at hcall
      exact hcall
    · rw [hpoll'] at hother
      rcases hwaiters other hother with hold | hnew
      · exact ⟨other, hold, rfl⟩
      · exact ⟨waiter, hwaiter, hid.trans hnew.symm⟩
    · obtain ⟨events', hhistory, hmem⟩ := hthrows
      rw [hpoll'] at hhistory
      obtain rfl : events = events' := List.append_cancel_right hhistory
      exact ⟨waiter, hwaiter, hid.trans (hthrown c t rejection hmem).symm⟩

/-! ## The turn after the executor

The record of a synchronous task is at its end before the receipt is appended. A failed append is
therefore no half state; an adapter that throws leaves the task accepted. -/

section Resume

variable {w : Runtime} {id : Nat} {outcome : Except Rejection ExecutionResult}

/-- A call that ends a dispatch by throwing belongs to that dispatch. -/
theorem finish_threw {call : Call} {answer : Except Rejection InvokeResult} {events : List Event}
    {c : Nat} {t : String} {rejection : Rejection}
    (h : (finish call answer w).history = events ++ w.history)
    (hmem : .threw c .dispatch t rejection ∈ events) :
    call.origin = .dispatch ∧ t = call.envelope.taskId := by
  have hlast : ∀ event, [event] ++ w.history = events ++ w.history → events = [event] :=
    fun event h => (List.append_cancel_right h).symm
  unfold finish at h
  split at h
  · rw [List.self_eq_append_left.mp h] at hmem
    cases hmem
  · rw [hlast _ h] at hmem
    simp at hmem
  · rename_i horigin
    rw [hlast _ h] at hmem
    obtain ⟨-, rfl, -⟩ := by simpa using hmem
    exact ⟨horigin, rfl⟩
  · rw [hlast _ h] at hmem
    simp at hmem
  · rw [hlast _ h] at hmem
    simp at hmem

theorem resume_calls (h : Ledger env w) :
    ∀ call ∈ (resume env now faults id outcome w).calls, call ∈ w.calls := by
  have hresumed : Resumed env now faults w id outcome (resume env now faults id outcome w) :=
    resume_cases h id outcome
  generalize resume env now faults id outcome w = w' at hresumed
  intro call hcall
  cases hresumed with
  | absent => exact hcall
  | rejected =>
      rw [(finish_frame _ _ _).calls] at hcall
      exact List.mem_of_mem_eraseP hcall
  | refused =>
      rw [(finish_frame _ _ _).calls] at hcall
      exact List.mem_of_mem_eraseP hcall
  | unsaved =>
      rw [(finish_frame _ _ _).calls] at hcall
      exact List.mem_of_mem_eraseP hcall
  | saved =>
      rw [(finish_frame _ _ _).calls] at hcall
      exact List.mem_of_mem_eraseP hcall

/-- The task of a dispatch whose adapter has answered is at an end, whatever happens to the
write. -/
theorem Arrives.over {call : Call} {coreResult : CoreResult} {normalized : InvokeResult}
    {record : TaskRecord} (h : Ledger env w)
    (harrives : Arrives env now w id outcome call coreResult normalized record)
    (horigin : call.origin = .dispatch) :
    ∃ record', (offered env now faults call coreResult normalized w).taskStore.get
        call.envelope.taskId = some record' ∧
      isTerminal record'.status = true ∧ record'.result.isSome = true := by
  have hoffered : Ledger env (offered env now faults call coreResult normalized w) :=
    h.moves (@offered_moves env .any now faults w id call outcome coreResult normalized record
      harrives trivial)
  have hover : ∃ record', (offered env now faults call coreResult normalized w).taskStore.get
      call.envelope.taskId = some record' ∧ isTerminal record'.status = true := by
    cases coreResult with
    | receipt receipt =>
        -- only a job's intent may be refused after its dispatch
        obtain ⟨⟨job, hjob⟩, -⟩ := (h.calls call harrives.call_mem.1).1.refused receipt
          (settledAnswer_receipt harrives.answer)
        cases horigin.symm.trans hjob
    | result execResult =>
        exact h.over_of_result harrives.call_mem.1 faults.update harrives.normalized
  obtain ⟨record', hget, hended⟩ := hover
  obtain ⟨result, hresult, -⟩ := (hoffered.records _ _ hget).result
  exact ⟨record', hget, hended, hresult ▸ rfl⟩

/-- The adapter's return is no throw. -/
theorem answered_threw {call : Call} {answer : Except Rejection InvokeResult} {w' : Runtime}
    {coreResult : CoreResult} {events : List Event} {c : Nat} {t : String} {rejection : Rejection}
    (hw' : w'.history = returnedEvents env now w.nextUuid call coreResult ++ w.history)
    (h : (finish call answer w').history = events ++ w.history)
    (hmem : .threw c .dispatch t rejection ∈ events) :
    call.origin = .dispatch ∧ t = call.envelope.taskId := by
  obtain ⟨-, last, hlast, -⟩ := finish_audit call answer w'
  obtain rfl : events = last ++ returnedEvents env now w.nextUuid call coreResult := by
    rw [hlast, hw', ← List.append_assoc] at h
    exact (List.append_cancel_right h).symm
  rcases List.mem_append.mp hmem with hthrew | hreturned
  · exact finish_threw hlast hthrew
  · cases coreResult <;> simp [returnedEvents] at hreturned

theorem resume_turned {s : World} (h : WorldLedger env s) :
    Turned env s (.resume id outcome faults) := by
  have hresumed : Resumed env s.now faults s.outer id outcome
      (step env s (.resume id outcome faults)).outer := resume_cases h.ledger id outcome
  refine ⟨fun call hcall _ => .inl (resume_calls h.ledger call hcall),
    fun waiter hwaiter => .inl ?_, fun c hturn _ => ?_,
    fun hthrough c t rejection hthrows => .inr ?_, fun hnot => ?_⟩
  · have hwaiters : (step env s (.resume id outcome faults)).outer.waiters = s.outer.waiters :=
      resume_waiters id outcome h.ledger
    exact ⟨waiter, hwaiters ▸ hwaiter, rfl⟩
  · obtain ⟨rfl, call, hfind, horigin⟩ := hturn
    exact .inr ⟨call, (find_call hfind).1, (find_call hfind).2, horigin⟩
  · obtain ⟨events, hhistory, hmem⟩ := hthrows
    generalize (step env s (.resume id outcome faults)).outer = w' at hresumed hhistory
    cases hresumed with
    | absent =>
        rw [List.self_eq_append_left.mp hhistory] at hmem
        cases hmem
    | @rejected call e hfound hanswer =>
        -- the adapter threw, and under the condition its task had ended meanwhile
        obtain ⟨horigin, rfl⟩ := finish_threw hhistory hmem
        obtain ⟨record, hget⟩ := h.ledger.record_of_call (find_call hfound).1
        obtain ⟨result, hresult, -⟩ := (h.ledger.records _ _ hget).result
        rw [(finish_frame _ _ _).taskStore]
        exact ⟨record, hget, hthrough call hfound horigin e hanswer record hget, hresult ▸ rfl⟩
    | refused harrives =>
        obtain ⟨horigin, rfl⟩ := answered_threw rfl hhistory hmem
        rw [(finish_frame _ _ _).taskStore]
        exact harrives.over h.ledger horigin
    | unsaved harrives =>
        obtain ⟨horigin, rfl⟩ := answered_threw rfl hhistory hmem
        rw [(finish_frame _ _ _).taskStore]
        exact harrives.over h.ledger horigin
    | saved harrives =>
        obtain ⟨horigin, rfl⟩ := answered_threw rfl hhistory hmem
        rw [(finish_frame _ _ _).taskStore]
        exact harrives.over h.ledger horigin
  · simp only [GetsThrough, not_forall] at hnot
    obtain ⟨call, hfind, horigin, e, hanswer, record, hget, hopen⟩ := hnot
    -- the call ends with the error of the adapter, and no write follows
    have hresume : (step env s (.resume id outcome faults)).outer =
        finish call (.error e) { s.outer with calls := s.outer.calls.eraseP (·.id == id) } := by
      show resume env s.now faults id outcome s.outer = _
      unfold resume
      rw [hfind]
      dsimp only
      rw [hanswer]
    refine ⟨call.id, call.envelope.taskId, e, ⟨[_], ?_, List.mem_cons_self⟩,
      .inr ⟨call, (find_call hfind).1, rfl, horigin⟩, fun record' hget' => ?_⟩
    · rw [hresume]
      unfold finish
      rw [horigin]
      rfl
    · rw [hresume, (finish_frame _ _ _).taskStore] at hget'
      obtain rfl := Option.some.inj (hget.symm.trans hget')
      simpa using hopen

end Resume

/-- **Every turn**, from a state of a run. -/
theorem step_turned {s : World} (h : WorldLedger env s) (hnumbering : Numbering env s.outer)
    (l : Label) : Turned env s l := by
  cases l with
  | dispatch request faults => exact dispatch_turned h.ledger hnumbering request
  | approve request => exact .of_quiet (quiet_approve request s.outer) (fun _ h => h) trivial
  | cancelTask taskId tenantId faults =>
      exact .of_quiet (quiet_cancelTask s.queue taskId tenantId s.outer) (fun _ h => h) trivial
  | setPolicy policy =>
      exact .of_quiet (.of_events [] rfl rfl rfl (by simp)) (fun _ h => h) trivial
  | resume id outcome faults => exact resume_turned h
  | poll id => exact poll_turned id
  | jobSettles id faults => exact .of_quiet (quiet_jobSettles id s) (fun _ h => h) trivial
  | queue turn faults =>
      exact .of_quiet (quiet_queueStep s (QueueTurn.internal _ turn)) (fun _ h => h) trivial
  | tick ms => exact .of_quiet (quiet_queueStep s trivial) (fun _ h => h) trivial

/-! ## Runs

A dispatch that waits has written its record, one that looks at the store has not. With that, the
condition on one turn decides what becomes of the whole dispatch. -/

/-- What a run keeps: a call of a dispatch that waits for the executor has written its record, and a
dispatch that waits for a stored task has written nothing. -/
structure TurnsKept (env : OrchestratorEnv) (s : World) (ls : List Label) : Prop where
  ledger    : WorldLedger env (run env s ls)
  numbering : Numbering env (run env s ls).outer
  calls     : ∀ call ∈ (run env s ls).outer.calls, call.origin = .dispatch →
    ¬ Untouched env s ls call.id
  waiters   : ∀ waiter ∈ (run env s ls).outer.waiters, Untouched env s ls waiter.id
  numbered  : ∀ c, (run env s ls).outer.nextCall ≤ c → Untouched env s ls c

variable {s : World} {ls : List Label} {l : Label}

theorem TurnsKept.step (h : TurnsKept env s ls) (l : Label) : TurnsKept env s (ls ++ [l]) := by
  have hturned := step_turned h.ledger h.numbering l
  have hmoves := step_moves h.ledger (allowed_any env (run env s ls) l)
  have hnext := moves_nextCall_le hmoves.1
  refine ⟨?_, ?_, ?_, ?_, ?_⟩
  · rw [run_concat]
    exact hmoves.2
  · rw [run_concat]
    exact numbering_step h.ledger h.numbering l
  · intro call hcall horigin
    rw [run_concat] at hcall
    rw [untouched_concat]
    rcases hturned.calls call hcall horigin with hold | ⟨hturn, hwrites⟩
    · exact fun hall => h.calls call hold horigin hall.1
    · exact fun hall => hwrites (hall.2 hturn)
  · intro waiter hwaiter
    rw [run_concat] at hwaiter
    rw [untouched_concat]
    -- a waiter is one from before, or has been made by this turn, which wrote nothing
    have hbefore : Untouched env s ls waiter.id := by
      rcases hturned.waiters waiter hwaiter with ⟨old, hold, hid⟩ | ⟨hid, -⟩
      · exact hid ▸ h.waiters old hold
      · exact h.numbered _ (Nat.le_of_eq hid.symm)
    refine ⟨hbefore, fun hturn => ?_⟩
    -- a turn of the waiter that writes is a first turn or the turn of a call; a waiter has neither
    by_contra hwrites
    rcases hturned.turns _ hturn hwrites with ⟨hid, -⟩ | ⟨call, hcall, hid, horigin⟩
    · rcases hturned.waiters waiter hwaiter with ⟨old, hold, hold'⟩ | ⟨-, hsame⟩
      · have hlt := h.ledger.waiters old hold
        omega
      · exact hwrites hsame
    · exact h.calls call hcall horigin (hid ▸ hbefore)
  · intro c hc
    rw [run_concat] at hc
    rw [untouched_concat]
    refine ⟨h.numbered c (Nat.le_trans hnext hc), fun hturn => ?_⟩
    by_contra hwrites
    rcases hturned.turns _ hturn hwrites with ⟨hid, hlt⟩ | ⟨call, hcall, hid, horigin⟩
    · omega
    · have hlt := (h.ledger.ledger.calls call hcall).2
      omega

theorem init_turnsKept (env : OrchestratorEnv) (policy : PolicyDocument)
    (deadLetters : List DeadLetterRecord) (now : Millis) :
    TurnsKept env (init env policy deadLetters now) [] where
  ledger := init_worldLedger env policy deadLetters now
  numbering := (init_trail env policy deadLetters now).numbering
  calls := by simp [run, init, QueueMachine.init, freshRuntime]
  waiters := by simp [run, init, QueueMachine.init, freshRuntime]
  numbered := by simp [Untouched]

theorem run_turnsKept (env : OrchestratorEnv) (policy : PolicyDocument)
    (deadLetters : List DeadLetterRecord) (now : Millis) (ls : List Label) :
    TurnsKept env (init env policy deadLetters now) ls := by
  induction ls using List.reverseRec with
  | nil => exact init_turnsKept env policy deadLetters now
  | append_singleton ls l ih => exact ih.step l

/-- **One turn undoes what throws in it exactly under the condition.** -/
theorem getsThrough_iff (h : TurnsKept env s ls) :
    GetsThrough env (run env s ls) l ↔ ∀ c t rejection,
      Throws env (run env s ls) l c t rejection → Undone env s (ls ++ [l]) c t := by
  have hturned := step_turned h.ledger h.numbering l
  constructor
  · intro hthrough c t rejection hthrows
    unfold Undone
    rw [untouched_concat, run_concat]
    -- before this turn the dispatch had written nothing: it is new, or it waited for a stored task
    rcases hturned.undoes hthrough c t rejection hthrows with ⟨hsame, hc⟩ | hended
    · refine .inl ⟨?_, fun _ => hsame⟩
      rcases hc with rfl | ⟨waiter, hwaiter, rfl⟩
      · exact h.numbered _ (Nat.le_refl _)
      · exact h.waiters waiter hwaiter
    · exact .inr hended
  · intro hundone
    by_contra hnot
    obtain ⟨c, t, rejection, hthrows, htouched, hopen⟩ := hturned.leaves hnot
    have hends := hundone c t rejection hthrows
    unfold Undone at hends
    rw [untouched_concat, run_concat] at hends
    rcases hends with ⟨hbefore, hlast⟩ | ⟨record, hget, hended, -⟩
    · -- the record was written in this turn, or in the turn that made the call
      rcases htouched with ⟨hturn, hwrites⟩ | ⟨call, hcall, rfl, horigin⟩
      · exact hwrites (hlast hturn)
      · exact h.calls call hcall horigin hbefore
    · rw [hopen record hget] at hended
      cases hended

/-- **A failed dispatch leaves no half state**, in every run, exactly when each dispatch that saves
its record gets through: no write throws, the approver can be notified, the queue has room, and the
adapter under a synchronous dispatch answers. -/
theorem failed_dispatches_undone (env : OrchestratorEnv) (policy : PolicyDocument)
    (deadLetters : List DeadLetterRecord) (now : Millis) (ls : List Label) :
    Transition.StepsMeet (step env) (GetsThrough env) (init env policy deadLetters now) ls ↔
      ∀ ks l, ks ++ [l] <+: ls → ∀ c t rejection,
        Throws env (run env (init env policy deadLetters now) ks) l c t rejection →
          Undone env (init env policy deadLetters now) (ks ++ [l]) c t := by
  rw [Transition.stepsMeet_iff_forall]
  refine forall_congr' fun ks => forall_congr' fun l => imp_congr_right fun _ => ?_
  exact getsThrough_iff (run_turnsKept env policy deadLetters now ks)

/-- The adapter under a synchronous dispatch throws: the task stays accepted. -/
theorem failed_dispatch_left :
    Throws (sampleEnv "ops.restart" noCrypto)
        (run (sampleEnv "ops.restart" noCrypto) (sampleInit .allow)
          [sampleDispatch "ops.restart" none {}])
        (.resume 0 (.error (some "boom")) {}) 0 "t1" (some "boom") ∧
      ¬ Undone (sampleEnv "ops.restart" noCrypto) (sampleInit .allow)
        [sampleDispatch "ops.restart" none {}, .resume 0 (.error (some "boom")) {}] 0 "t1" := by
  constructor
  · exact ⟨[_], rfl, List.mem_cons_self⟩
  · rintro (huntouched | ⟨record, hget, hended, -⟩)
    · have hsame := huntouched [] (sampleDispatch "ops.restart" none {}) (by simp) rfl
      have htask := congrArg (fun tasks => (tasks.get "t1").isSome) hsame.1
      exact absurd htask (by decide +kernel)
    · have hopen : ((run (sampleEnv "ops.restart" noCrypto) (sampleInit .allow)
          [sampleDispatch "ops.restart" none {},
            .resume 0 (.error (some "boom")) {}]).outer.taskStore.get "t1").map
              (fun record => isTerminal record.status) = some false := by decide +kernel
      rw [hget] at hopen
      cases hended.symm.trans (Option.some.inj hopen)

end Orchestrator

end MapProtocol
