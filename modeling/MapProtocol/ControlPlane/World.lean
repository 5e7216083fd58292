import MapProtocol.ControlPlane.Chronicle
import MapProtocol.ControlPlane.TurnWrites

/-!
# Runs of the orchestrator

`WorldLedger` adds to the ledger what the queue and the waiting dispatches know. `step_moves` cuts a
step of the whole orchestrator into moves, and `run_of_moves` is the rule that the later files use:
what every move keeps, every run whose labels the guard allows keeps.
-/

namespace MapProtocol

open Js

namespace Orchestrator

variable {env : OrchestratorEnv} {g : Guard} {now : Millis} {faults : Faults}
variable {w : Runtime} {v v' : QueueView Ready Runtime} {retries : QueueJob Ready → Prop}
  {s s' : World}

/-! ## The closures of a job -/

theorem runJob_moves {w : Runtime} {job : QueueJob Ready} (hjob : JobKnown w.history job) :
    Moves env g now w (runJob env now job w) :=
  (moves_numbered w 1 0).tail
    (.suspended (by simp) hjob.1 rfl (Nat.lt_succ_self _)
      (fun _ hr => ⟨⟨job.id, rfl⟩, execute_refused_action hr⟩)
      (fun _ _ hadapter => .inr (Executor.execute_adapter hadapter)))

theorem stageReceipt_total (hsign : CanSign env) (ready : Ready) (uuid : Nat) (stage : String) :
    ∃ receipt, ready.stageReceipt env now uuid stage = .ok receipt :=
  hsign _

theorem onDeadLetter_moves {job : QueueJob Ready} {deadLetter : DeadLetterRecord} (h : Ledger env w)
    (hjob : JobKnown w.history job) :
    Moves env g now w (onDeadLetter env now faults job deadLetter w).2 := by
  obtain ⟨receipt, hreceipt⟩ := @stageReceipt_total env now (h.canSign ⟨_, _, _, hjob.1⟩) job.run
    w.nextUuid "dead_lettered"
  have hnumbered : Moves env g now w { w with nextUuid := w.nextUuid + 1 } :=
    moves_numbered w 0 1
  have hoffered := hnumbered.tail (@Move.deadLettered env g now _ _ _ _ deadLetter.error
    faults.update hjob.1 hreceipt (Nat.lt_succ_self _))
  unfold onDeadLetter updateTask
  dsimp only
  rw [hreceipt]
  dsimp only
  split
  · rename_i heq
    obtain ⟨-, rfl⟩ := Prod.mk.inj heq
    exact hoffered
  · rename_i heq
    obtain ⟨hok, rfl⟩ := Prod.mk.inj heq
    split
    · rename_i stored hstored
      obtain ⟨record, hget, hrecord⟩ := Option.bind_eq_some_iff.mp hstored
      have hfailed : record.status = .failed := status_of_update hok hget
      refine hoffered.tail (@Move.appended env g now _ faults.append _ _ _ hget hrecord ?_)
      simp [hfailed]
    · exact hoffered

/-! ## The queue's turns

The queue knows of its jobs only what their closures are given. A view is the state of the queue
together with the runtime that the closures have led to. -/

/-- The jobs that the queue may still run or call back. -/
def liveJobs (v : QueueView Ready Runtime) : List (QueueJob Ready) :=
  v.queued ++ v.running ++ v.waiting ++ v.callable

/-- A view that moves have led to from the runtime `w`. -/
structure Reached (env : OrchestratorEnv) (g : Guard) (now : Millis) (w : Runtime)
    (v : QueueView Ready Runtime) : Prop where
  moves   : Moves env g now w v.outer
  ledger  : Ledger env v.outer
  waiters : WaitersNumbered v.outer
  jobs    : ∀ job ∈ liveJobs v, JobKnown v.outer.history job

/-- Moves lead on from a view that was reached. -/
theorem Reached.onward (h : Reached env g now w v) (hmoves : Moves env g now v.outer v'.outer)
    (hwaiters : v'.outer.waiters = v.outer.waiters)
    (hjobs : ∀ job ∈ liveJobs v', JobKnown v.outer.history job) : Reached env g now w v' where
  moves := h.moves.trans hmoves
  ledger := h.ledger.moves hmoves
  waiters := by
    intro waiter hmem
    rw [hwaiters] at hmem
    exact Nat.lt_of_lt_of_le (h.waiters waiter hmem) (moves_nextCall_le hmoves)
  jobs job hmem := (hjobs job hmem).mono (moves_history_subset hmoves)

/-- **The rule of the closures.** What the closures of live jobs keep of the runtime, every move of
the queue keeps. -/
theorem viewMove_keeps {P : Runtime → Prop}
    (hm : AsyncTaskQueue.ViewMove (hooks env now faults) retries v v') (h : P v.outer)
    (hrun : ∀ job ∈ liveJobs v, P (runJob env now job v.outer))
    (hdead : ∀ job ∈ liveJobs v, ∀ record, P (onDeadLetter env now faults job record v.outer).2) :
    P v'.outer := by
  have hback : ∀ {job : QueueJob Ready} {w' : Runtime}, job ∈ liveJobs v →
      AsyncTaskQueue.CalledBack (hooks env now faults) job v.outer w' → P w' := by
    intro job w' hjob hcalled
    rcases hcalled with rfl | ⟨record, rfl⟩
    · exact h
    · exact hdead job hjob record
  cases hm with
  | started => exact hrun _ (by simp [liveJobs])
  | skipped => exact h
  | retried => exact h
  | requeued => exact h
  | ended _ hcalled => exact hback (by simp [liveJobs]) hcalled
  | dropped _ hcalled => exact hback (by simp [liveJobs]) hcalled
  | called hjob _ hcalled => exact hback (List.mem_append_right _ hjob) hcalled

/-- The live jobs after a move were live before, up to their attempts. -/
theorem viewMove_liveJobs (hm : AsyncTaskQueue.ViewMove (hooks env now faults) retries v v') :
    ∀ job ∈ liveJobs v', ∃ old ∈ liveJobs v, job.run = old.run ∧ job.taskId = old.taskId := by
  have hsame : ∀ {jobs : List (QueueJob Ready)} {job : QueueJob Ready}, job ∈ jobs →
      ∃ old ∈ jobs, job.run = old.run ∧ job.taskId = old.taskId :=
    fun hjob => ⟨_, hjob, rfl, rfl⟩
  intro j hj
  cases hm with
  | started =>
      refine hsame ?_
      simp only [liveJobs, List.mem_append, List.mem_cons] at hj ⊢
      tauto
  | skipped =>
      refine hsame ?_
      simp only [liveJobs, List.mem_append, List.mem_cons] at hj ⊢
      tauto
  | retried =>
      refine hsame ?_
      simp only [liveJobs, List.mem_append, List.mem_cons] at hj ⊢
      tauto
  | ended hc =>
      refine hsame ?_
      simp only [liveJobs, List.mem_append, List.mem_cons] at hj ⊢
      rcases hj with hj | hj
      · tauto
      · rcases hc j hj with heq | hj <;> tauto
  | dropped hc =>
      refine hsame ?_
      simp only [liveJobs, List.mem_append, List.mem_cons] at hj ⊢
      rcases hj with hj | hj
      · tauto
      · rcases hc j hj with heq | hj <;> tauto
  | @requeued q r l₁ l₂ c job =>
      simp only [liveJobs, List.mem_append, List.mem_singleton] at hj
      by_cases hlast : j = { job with attempt := job.attempt + 1 }
      · -- the job queued again runs the same closures
        exact ⟨job, by simp [liveJobs], by rw [hlast], by rw [hlast]⟩
      · refine hsame ?_
        simp only [liveJobs, List.mem_append, List.mem_cons]
        tauto
  | called _ hc =>
      refine hsame ?_
      simp only [liveJobs, List.mem_append] at hj ⊢
      rcases hj with hj | hj
      · tauto
      · have := hc j hj
        tauto

theorem reached_viewMove (v v' : QueueView Ready Runtime) (h : Reached env g now w v)
    (hm : AsyncTaskQueue.ViewMove (hooks env now faults) retries v v') :
    Reached env g now w v' := by
  have hmoves : Moves env g now v.outer v'.outer ∧ v'.outer.waiters = v.outer.waiters :=
    viewMove_keeps (P := fun w' => Moves env g now v.outer w' ∧ w'.waiters = v.outer.waiters) hm
      ⟨.refl, rfl⟩ (fun job hjob => ⟨runJob_moves (h.jobs job hjob), rfl⟩)
      (fun job hjob record => ⟨onDeadLetter_moves h.ledger (h.jobs job hjob),
        (onDeadLetter_writes job record v.outer).waiters⟩)
  refine h.onward hmoves.1 hmoves.2 fun job hjob => ?_
  -- a job queued again runs the same closures
  obtain ⟨old, hold, hrun, htask⟩ := viewMove_liveJobs hm job hjob
  have hknown := h.jobs old hold
  unfold JobKnown at hknown ⊢
  rwa [hrun, htask]

/-! ## Steps

A microtask, a timer and a delivery of the outbox are labels of their own, so nothing happens
between two steps. -/

/-- **The ledger of the orchestrator.** -/
structure WorldLedger (env : OrchestratorEnv) (s : World) : Prop where
  ledger  : Ledger env s.outer
  waiters : WaitersNumbered s.outer
  jobs    : ∀ job ∈ liveJobs (AsyncTaskQueue.view (s.queue, s.outer)), JobKnown s.outer.history job

/-- The guard lets the label pass. -/
def Allowed (g : Guard) (env : OrchestratorEnv) (s : World) : Label → Prop
  | .dispatch request _ => ∀ submission ready submitted,
      planDispatch env s.outer.policy s.outer.taskStore s.now
        (s.queue.hasCapacity env.queueOptions) s.outer.nextUuid request =
          .ok (.submit submission ready submitted) → g.submits submission ready
  | .approve request => ∀ approval, checkApproval env s.outer.taskStore request = .ok approval →
      g.approves s.outer approval
  | .setPolicy policy => g.sets s.outer policy
  | .resume id outcome _ => ∀ call coreResult, s.outer.calls.find? (·.id == id) = some call →
      settledAnswer call.invocation outcome = .ok coreResult →
        g.completes s.outer call coreResult
  | _ => True

theorem allowed_any (env : OrchestratorEnv) (s : World) (l : Label) : Allowed .any env s l := by
  cases l <;> simp [Allowed, Guard.any]

/-- The queue's turns are made of moves. -/
theorem queueStep_moves {s : World} (h : WorldLedger env s) {label : QueueLabel Ready}
    (hlabel : label.internal) :
    Reached env g s.now s.outer
      (AsyncTaskQueue.view ((queueStep env faults s label).queue,
        (queueStep env faults s label).outer)) :=
  QueueMachine.step_view (fun v v' hv hm => reached_viewMove v v' hv hm) hlabel
    (fun _ _ _ _ _ _ _ _ => trivial)
    ⟨.refl, h.ledger, h.waiters, h.jobs⟩

/-- **The rule of the queue's turns.** What every closure keeps of the runtime, a turn keeps. -/
theorem queueStep_keeps {P : Runtime → Prop} {s : World} {label : QueueLabel Ready}
    (hlabel : label.internal) (h : P s.outer)
    (hrun : ∀ job w, P w → P (runJob env s.now job w))
    (hdead : ∀ job record w, P w → P (onDeadLetter env s.now faults job record w).2) :
    P (queueStep env faults s label).outer :=
  QueueMachine.step_view (P := fun v => P v.outer)
    (fun v v' hv (hm : AsyncTaskQueue.ViewMove _ (fun _ => True) v v') =>
      viewMove_keeps hm hv (fun job _ => hrun job v.outer hv)
        fun job _ record => hdead job record v.outer hv)
    hlabel (fun _ _ _ _ _ _ _ _ => trivial) h

/-- Over a ledger the closures are those of jobs that the history knows. -/
theorem WorldLedger.queueStep_keeps {P : Runtime → Prop} {s : World} (hledger : WorldLedger env s)
    {label : QueueLabel Ready} (hlabel : label.internal) (h : P s.outer)
    (hrun : ∀ job w, Ledger env w → JobKnown w.history job → P w → P (runJob env s.now job w))
    (hdead : ∀ job record w, Ledger env w → JobKnown w.history job → P w →
      P (onDeadLetter env s.now faults job record w).2) :
    P (queueStep env faults s label).outer := by
  have hview : Reached env .any s.now s.outer
      (AsyncTaskQueue.view ((queueStep env faults s label).queue,
        (queueStep env faults s label).outer)) ∧ P (queueStep env faults s label).outer := by
    refine QueueMachine.step_view (P := fun v => Reached env .any s.now s.outer v ∧ P v.outer)
      (fun v v' hv (hm : AsyncTaskQueue.ViewMove _ (fun _ => True) v v') => ?_) hlabel
      (fun _ _ _ _ _ _ _ _ => trivial) ⟨⟨.refl, hledger.ledger, hledger.waiters, hledger.jobs⟩, h⟩
    obtain ⟨hreached, hkept⟩ := hv
    exact ⟨reached_viewMove v v' hreached hm, viewMove_keeps hm hkept
      (fun job hjob => hrun job v.outer hreached.ledger (hreached.jobs job hjob) hkept)
      fun job hjob record => hdead job record v.outer hreached.ledger (hreached.jobs job hjob) hkept⟩
  exact hview.2

theorem worldLedger_of_reached
    (h : Reached env g now s.outer (AsyncTaskQueue.view (s'.queue, s'.outer))) :
    Moves env g now s.outer s'.outer ∧ WorldLedger env s' :=
  ⟨h.moves, h.ledger, h.waiters, h.jobs⟩

theorem QueueTurn.internal (fault : Option String) (turn : QueueTurn) :
    (turn.toLabel fault).internal := by
  cases turn <;> trivial

theorem WorldLedger.moved (h : WorldLedger env s) (hqueue : s'.queue = s.queue)
    (hmoves : Moves env g now s.outer s'.outer)
    (hwaiters : ∀ waiter ∈ s'.outer.waiters, waiter.id < s'.outer.nextCall) :
    Moves env g now s.outer s'.outer ∧ WorldLedger env s' := by
  refine ⟨hmoves, h.ledger.moves hmoves, hwaiters, fun job hjob => ?_⟩
  unfold AsyncTaskQueue.view at hjob
  rw [hqueue] at hjob
  exact (h.jobs job hjob).mono (moves_history_subset hmoves)

/-- A job that a submission queues was created by it. -/
structure Enqueued (env : OrchestratorEnv) (call : Nat) (ready : Ready)
    (q : AsyncTaskQueue Ready) (s : AsyncTaskQueue Ready × Runtime) : Prop where
  queue   : s.1 = (q.enqueue env.queueOptions (enqueueParams ready)).2
  created : createdEvent call .async ready ∈ s.2.history

/-- The queue and the waiters after a submission. -/
theorem submits_queue {call : Nat} {submission : Submission} {ready : Ready}
    {submitted : InvokeResult} {q : AsyncTaskQueue Ready} {s : AsyncTaskQueue Ready × Runtime}
    (h : Submits env now faults call ready submitted q w submission s) :
    s.2.waiters = w.waiters ∧ (s.1 = q ∨ submission = .async ∧ Enqueued env call ready q s ∧
      s.2.taskStore.get ready.envelope.taskId = some ((ready.saveParams submitted).toRecord now)) := by
  cases h with
  | queued hstored hqueue =>
      refine ⟨rfl, .inr ⟨rfl, ⟨?_, List.mem_cons_of_mem _ List.mem_cons_self⟩, get_recorded⟩⟩
      rw [hqueue]
  | _ => exact ⟨rfl, .inl rfl⟩

/-- The live jobs after a submission are those before and the new one. -/
theorem Enqueued.jobs {call : Nat} {ready : Ready}
    {q : AsyncTaskQueue Ready} {s : AsyncTaskQueue Ready × Runtime} {w : Runtime}
    (h : Enqueued env call ready q s) {job : QueueJob Ready}
    (hjob : job ∈ liveJobs (AsyncTaskQueue.view s)) :
    job ∈ liveJobs (AsyncTaskQueue.view (q, w)) ∨ job = q.newJob (enqueueParams ready) := by
  obtain ⟨q', w'⟩ := s
  obtain rfl : q' = _ := h.queue
  rcases q.enqueue_cases (enqueueParams ready) with heq | heq
  · rw [heq] at hjob
    exact .inl hjob
  · rw [heq, AsyncTaskQueue.view_kickoff] at hjob
    unfold liveJobs AsyncTaskQueue.view at hjob ⊢
    simp only [List.mem_append, List.mem_singleton] at hjob ⊢
    rcases hjob with (((hqueued | hnew) | hrunning) | hwaiting) | hcallable
    · exact .inl (.inl (.inl (.inl hqueued)))
    · exact .inr hnew
    · exact .inl (.inl (.inl (.inr hrunning)))
    · exact .inl (.inl (.inr hwaiting))
    · exact .inl (.inr hcallable)

/-- The queue and the waiters after a dispatch. -/
theorem dispatch_queue (request : DispatchRequest) (q : AsyncTaskQueue Ready) (w : Runtime) :
    ((dispatch env now faults request (q, w)).2.waiters = w.waiters ∨ ∃ taskId,
      (dispatch env now faults request (q, w)).2.waiters = w.waiters ++ [⟨w.nextCall, taskId, 1⟩] ∧
        (dispatch env now faults request (q, w)).2.nextCall = w.nextCall + 1) ∧
      ((dispatch env now faults request (q, w)).1 = q ∨ ∃ ready,
        Enqueued env w.nextCall ready q (dispatch env now faults request (q, w))) := by
  have hturn := dispatch_cases env now faults request q w
  generalize dispatch env now faults request (q, w) = s at hturn ⊢
  cases hturn with
  | rejected => exact ⟨.inl rfl, .inl rfl⟩
  | found => exact ⟨.inl rfl, .inl rfl⟩
  | waits => exact ⟨.inr ⟨_, rfl, rfl⟩, .inl rfl⟩
  | submits _ hsubmits =>
      obtain ⟨hwaiters, hqueue⟩ := submits_queue hsubmits
      exact ⟨.inl hwaiters, hqueue.imp id fun h => ⟨_, h.2.1⟩⟩

theorem resume_waiters (id : Nat) (outcome : Except Rejection ExecutionResult) (h : Ledger env w) :
    (resume env now faults id outcome w).waiters = w.waiters := by
  have hresumed : Resumed env now faults w id outcome (resume env now faults id outcome w) :=
    resume_cases h id outcome
  generalize resume env now faults id outcome w = w' at hresumed
  cases hresumed with
  | absent => rfl
  | rejected => exact (finish_frame _ _ _).waiters
  | refused => exact (finish_frame _ _ _).waiters
  | unsaved => exact (finish_frame _ _ _).waiters
  | saved => exact (finish_frame _ _ _).waiters

theorem cancelTask_waiters {q : AsyncTaskQueue Ready} {taskId : String} {tenantId : Option String} :
    (cancelTask env now faults q taskId tenantId w).waiters = w.waiters := by
  obtain ⟨event, hwrites, -⟩ := @cancelTask_writes env now faults q taskId tenantId w
  exact hwrites.waiters

theorem approve_waiters {request : ApprovalRequest} :
    (approve env request w).waiters = w.waiters := by
  rcases @approve_writes env request w with
    ⟨rejection, hwrites⟩ | ⟨w₁, approval, started, hwrites, -, -, heq⟩
  · exact hwrites.waiters
  · rw [heq]
    exact hwrites.waiters

theorem poll_waiters {id : Nat} (hwaiters : WaitersNumbered w) :
    WaitersNumbered (poll id w) := by
  have hover : WaitersNumbered { w with waiters := w.waiters.eraseP (·.id == id) } :=
    fun waiter hmem => hwaiters waiter (List.mem_of_mem_eraseP hmem)
  have hpolled := poll_polled id w
  generalize poll id w = w' at hpolled
  cases hpolled with
  | absent => exact hwaiters
  | timedOut => exact hover
  | answered => exact hover
  | waits hfound =>
      intro waiter' hmem
      rcases List.mem_append.mp hmem with hold | hlast
      · exact hover waiter' hold
      · have hlt := hwaiters _ (List.mem_of_find?_eq_some hfound)
        rw [List.mem_singleton.mp hlast]
        exact hlt

theorem WorldLedger.kept (h : WorldLedger env s) (hqueue : s'.queue = s.queue)
    (hmoves : Moves env g now s.outer s'.outer) (hwaiters : s'.outer.waiters = s.outer.waiters) :
    Moves env g now s.outer s'.outer ∧ WorldLedger env s' := by
  refine h.moved hqueue hmoves fun waiter hmem => ?_
  rw [hwaiters] at hmem
  exact Nat.lt_of_lt_of_le (h.waiters waiter hmem) (moves_nextCall_le hmoves)

theorem dispatch_step (h : WorldLedger env s) {request : DispatchRequest}
    (hallowed : Allowed g env s (.dispatch request faults)) :
    Moves env g s.now s.outer (step env s (.dispatch request faults)).outer ∧
      WorldLedger env (step env s (.dispatch request faults)) := by
  have hmoves : Moves env g s.now s.outer (dispatch env s.now faults request
      (s.queue, s.outer)).2 := dispatch_moves h.ledger hallowed
  obtain ⟨hwaiters, hqueue⟩ := @dispatch_queue env s.now faults request s.queue s.outer
  refine ⟨hmoves, h.ledger.moves hmoves, ?_, ?_⟩
  · intro waiter hmem
    rcases hwaiters with heq | ⟨taskId, heq, hnext⟩
    · have hmem' : waiter ∈ s.outer.waiters := heq ▸ hmem
      exact Nat.lt_of_lt_of_le (h.waiters waiter hmem') (moves_nextCall_le hmoves)
    · have hmem' : waiter ∈ s.outer.waiters ++ [⟨s.outer.nextCall, taskId, 1⟩] := heq ▸ hmem
      rcases List.mem_append.mp hmem' with hold | hlast
      · exact Nat.lt_of_lt_of_le (h.waiters waiter hold) (moves_nextCall_le hmoves)
      · rw [List.mem_singleton.mp hlast]
        show s.outer.nextCall < (dispatch env s.now faults request (s.queue, s.outer)).2.nextCall
        rw [hnext]
        exact Nat.lt_succ_self _
  · intro job hjob
    rcases hqueue with heq | ⟨ready, henqueued⟩
    · refine (h.jobs job ?_).mono (moves_history_subset hmoves)
      show job ∈ liveJobs (AsyncTaskQueue.view (s.queue, _))
      rw [← heq]
      exact hjob
    · rcases @Enqueued.jobs _ _ _ _ _ s.outer henqueued job hjob with hold | rfl
      · exact (h.jobs job hold).mono (moves_history_subset hmoves)
      · exact ⟨⟨_, henqueued.created⟩, rfl⟩

theorem settledRun_moves {s : World} (h : WorldLedger env s) (id : Nat) :
    Moves env g now s.outer { s.outer with settledRuns := s.outer.settledRuns.eraseP (·.1 == id) } ∧
      WorldLedger env { s with
        outer := { s.outer with settledRuns := s.outer.settledRuns.eraseP (·.1 == id) } } := by
  have hover : Moves env g now s.outer
      { s.outer with settledRuns := s.outer.settledRuns.eraseP (·.1 == id) } :=
    Move.one (.bookkeeping rfl rfl rfl rfl rfl (fun _ hc => hc) (Nat.le_refl _) (Nat.le_refl _))
  exact ⟨hover, h.ledger.moves hover, h.waiters, h.jobs⟩

/-- **Every step is made of moves**, and keeps the ledger. -/
theorem step_moves (h : WorldLedger env s) {l : Label} (hallowed : Allowed g env s l) :
    Moves env g s.now s.outer (step env s l).outer ∧ WorldLedger env (step env s l) := by
  cases l with
  | dispatch request faults => exact dispatch_step h hallowed
  | approve request => exact h.kept rfl (approve_moves hallowed) approve_waiters
  | cancelTask taskId tenantId faults => exact h.kept rfl cancelTask_moves cancelTask_waiters
  | setPolicy policy => exact h.kept rfl (Move.one (.policySet hallowed)) rfl
  | resume id outcome faults =>
      exact h.kept rfl (resume_moves h.ledger hallowed) (resume_waiters id outcome h.ledger)
  | poll id => exact h.moved rfl (poll_moves h.waiters) (poll_waiters h.waiters)
  | jobSettles id faults =>
      show Moves env g s.now s.outer (jobSettles env faults id s).outer ∧
        WorldLedger env (jobSettles env faults id s)
      unfold jobSettles
      split
      · exact ⟨.refl, h⟩
      · rename_i outcome _
        obtain ⟨hover, hsettled⟩ := settledRun_moves (g := g) h id
        have hturn := worldLedger_of_reached (@queueStep_moves env g faults _ hsettled
          (.settle id outcome faults.deadLetter) trivial)
        exact ⟨hover.trans hturn.1, hturn.2⟩
  | queue turn faults =>
      exact worldLedger_of_reached (queueStep_moves h (QueueTurn.internal faults.deadLetter turn))
  | tick ms =>
      have hinternal : (.tick ms : QueueLabel Ready).internal := trivial
      exact worldLedger_of_reached (queueStep_moves h hinternal)

/-! ## Runs

The other modules prove what one move keeps, and get their runs from here. -/

section Init

variable (env : OrchestratorEnv) (policy : PolicyDocument) (deadLetters : List DeadLetterRecord)
  (now : Millis)

@[simp] theorem init_history : (init env policy deadLetters now).outer.history = [] := rfl

@[simp] theorem init_calls : (init env policy deadLetters now).outer.calls = [] := rfl

@[simp] theorem init_receiptStore :
    (init env policy deadLetters now).outer.receiptStore = .empty := rfl

@[simp] theorem init_get (t : String) :
    (init env policy deadLetters now).outer.taskStore.get t = none := rfl

end Init

theorem init_worldLedger (env : OrchestratorEnv) (policy : PolicyDocument)
    (deadLetters : List DeadLetterRecord) (now : Millis) :
    WorldLedger env (init env policy deadLetters now) where
  ledger := by
    refine ⟨?_, ?_, ?_, ?_, ?_, ?_, rfl, ?_⟩
    all_goals simp [init, QueueMachine.init, freshRuntime, TaskStore.get, TaskStore.empty, Created]
  waiters := by simp [WaitersNumbered, init, QueueMachine.init, freshRuntime]
  jobs := by
    simp [liveJobs, AsyncTaskQueue.view, init, QueueMachine.init, AsyncTaskQueue.init,
      OrderedMap.values, OrderedMap.empty]

theorem moves_invariant {I : Runtime → Prop}
    (hI : ∀ now w w', Ledger env w → I w → Move env g now w w' → I w') {w w' : Runtime}
    (hledger : Ledger env w) (h : I w) (hm : Moves env g now w w') : I w' := by
  have hboth : Ledger env w' ∧ I w' := by
    induction hm with
    | refl => exact ⟨hledger, h⟩
    | tail _ hlast ih => exact ⟨ih.1.move hlast, hI _ _ _ ih.1 ih.2 hlast⟩
  exact hboth.2

/-- **The rule of the moves.** What every move keeps, every allowed run keeps. -/
theorem run_of_moves {I : Runtime → Prop}
    (hI : ∀ now w w', Ledger env w → I w → Move env g now w w' → I w') {ls : List Label}
    (hledger : WorldLedger env s) (hs : I s.outer)
    (hallowed : Transition.StepsMeet (step env) (Allowed g env) s ls) :
    WorldLedger env (run env s ls) ∧ I (run env s ls).outer := by
  refine Transition.run_invariant (I := fun s => WorldLedger env s ∧ I s.outer) ?_ ⟨hledger, hs⟩
    hallowed
  intro s l hinv hl
  obtain ⟨hm, hledger'⟩ := step_moves hinv.1 hl
  exact ⟨hledger', moves_invariant hI hinv.1.ledger hinv.2 hm⟩

theorem run_worldLedger (h : WorldLedger env s) (ls : List Label) :
    WorldLedger env (run env s ls) :=
  (run_of_moves (g := .any) (I := fun _ => True) (fun _ _ _ _ _ _ => trivial) h trivial
    (Transition.stepsMeet_of_forall (allowed_any env) s ls)).1

theorem run_history_subset (h : WorldLedger env s) (ls : List Label) :
    s.outer.history ⊆ (run env s ls).outer.history :=
  (run_of_moves (g := .any) (I := fun w => s.outer.history ⊆ w.history)
    (fun _ _ _ _ hsub hm => List.Subset.trans hsub hm.history_subset) h (List.Subset.refl _)
    (Transition.stepsMeet_of_forall (allowed_any env) s ls)).2

end Orchestrator

end MapProtocol
