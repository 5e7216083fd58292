import MapProtocol.ControlPlane.Contexts
import MapProtocol.ControlPlane.TaskRestart

/-!
# One context for a task

The context of a task over the life of the orchestrator, which here includes that the process starts
again. A restart reads the records back: the file has all of a record that JSON carries, the
database has no column for the context.

`KeepsContext` is the condition on a step that leaves out what puts a result in another context than
its record. `one_context` then compares any two states of a run.
-/

namespace MapProtocol

open Js

namespace Orchestrator

variable {env : OrchestratorEnv} {now : Millis}

/-! ## Restarts

Calls in flight and queued jobs are gone after a restart; records come back through JSON. -/

/-- What a process finds when it starts: a policy, the backing of the task store, and what it has
read of the receipts and of the dead letters. -/
structure Startup where
  policy      : PolicyDocument
  backing     : TaskBacking
  receipts    : ReceiptStore
  deadLetters : List DeadLetterRecord

/-- The orchestrator starts again. What it had in memory only is gone; the calls are numbered on, and
no uuid is drawn twice. -/
def restart (env : OrchestratorEnv) (startup : Startup) (s : World) : World :=
  QueueMachine.init env.queueOptions startup.deadLetters
    { freshRuntime startup.policy with
      taskStore := startup.backing.hydrate
      receiptStore := startup.receipts
      nextCall := s.outer.nextCall
      nextUuid := s.outer.nextUuid
      history := s.outer.history } s.now

/-- The backing is the file that the tasks were written to, or there are no tasks. -/
def Startup.HoldsTasks (startup : Startup) (tasks : TaskStore) : Prop :=
  (∃ records, (TaskBacking.file records).persist none tasks = .ok startup.backing) ∨
    (tasks.list = [] ∧ startup.backing.stored = [])

def TasksNamed (w : Runtime) : Prop :=
  ∀ submission envelope capability, Created w.history submission envelope capability →
    envelope.taskId ≠ ""

theorem tasksNamed_move {g : Guard} {w w' : Runtime} (h : TasksNamed w)
    (hm : Move env g now w w') : TasksNamed w' := by
  obtain ⟨events, hlogs⟩ := hm.logs
  rintro submission envelope capability ⟨call, hmem⟩
  rw [hlogs.history] at hmem
  rcases List.mem_append.mp hmem with hnew | hold
  · have hlogged := hlogs.logged _ hnew
    generalize hevent : Event.created call submission envelope capability = event at hlogged
    cases hlogged with
    | created hplanned =>
        cases hevent
        exact (validateTaskEnvelope_eq_ok hplanned.validated).2.1
    | _ => cases hevent
  · exact h submission envelope capability ⟨call, hold⟩

section Restart

variable {s : World} {startup : Startup}

theorem get_restart (hledger : Ledger env s.outer) (hnamed : TasksNamed s.outer)
    (hstartup : startup.HoldsTasks s.outer.taskStore) (t : String) :
    (restart env startup s).outer.taskStore.get t =
      (s.outer.taskStore.get t).map TaskRecord.jsonCopy := by
  have hkeyed : ∀ t r, s.outer.taskStore.get t = some r → r.taskId = t :=
    fun t r hget => (hledger.records t r hget).taskId
  refine TaskStore.hydrate_copies hkeyed ?_ t
  rcases hstartup with ⟨records, hpersist⟩ | ⟨hlist, hstored⟩
  · -- a task without a name is not read back, and there is none
    rw [← Except.ok.inj hpersist]
    refine List.filter_eq_self.mpr fun r hr => decide_eq_true ?_
    obtain ⟨record, hrecord, rfl⟩ := List.mem_map.mp hr
    obtain ⟨t', hget⟩ := OrderedMap.mem_values.mp hrecord
    obtain ⟨_, envelope, _, hcreated, htask, -⟩ := (hledger.records t' record hget).origin
    show record.taskId ≠ ""
    rw [hkeyed t' record hget, ← htask]
    exact hnamed _ _ _ hcreated
  · rw [hstored, hlist]
    rfl

theorem liveJobs_restart : liveJobs (AsyncTaskQueue.view
    ((restart env startup s).queue, (restart env startup s).outer)) = [] := by
  simp [liveJobs, AsyncTaskQueue.view, restart, QueueMachine.init, AsyncTaskQueue.init,
    OrderedMap.values, OrderedMap.empty]

/-- The ledger is read back with the records. -/
theorem restart_worldLedger (h : WorldLedger env s) (hnamed : TasksNamed s.outer)
    (hstartup : startup.HoldsTasks s.outer.taskStore) : WorldLedger env (restart env startup s) := by
  have hget : ∀ t, (restart env startup s).outer.taskStore.get t =
      (s.outer.taskStore.get t).map TaskRecord.jsonCopy := get_restart h.ledger hnamed hstartup
  refine ⟨⟨?_, ?_, h.ledger.unique, ?_, h.ledger.numbered, h.ledger.canSign, rfl, ?_⟩, ?_, ?_⟩
  · intro t record hrecord
    rw [hget, Option.map_eq_some_iff] at hrecord
    obtain ⟨old, hold, rfl⟩ := hrecord
    obtain ⟨hid, horigin, ⟨result, hresult, hstatus⟩, hreceipt⟩ := h.ledger.records t old hold
    refine ⟨hid, horigin, ⟨result.jsonCopy, ?_, hstatus⟩, hreceipt⟩
    show old.result.map ResultPackage.jsonCopy = _
    rw [hresult]
    rfl
  · intro submission envelope capability hcreated
    obtain ⟨record, hrecord⟩ := h.ledger.onRecord submission envelope capability hcreated
    exact ⟨record.jsonCopy, by rw [hget, hrecord]; rfl⟩
  · intro call hcall
    cases hcall
  · exact fun key t hkey => TaskStore.index_foldl_insert hkey
  · intro waiter hwaiter
    cases hwaiter
  · intro job hjob
    rw [liveJobs_restart] at hjob
    cases hjob

end Restart

/-! ## Runs -/

/-- A turn of the event loop, or a new start of the process. -/
inductive LifeLabel where
  | turn (label : Label)
  | restart (startup : Startup)

def lifeStep (env : OrchestratorEnv) (s : World) : LifeLabel → World
  | .turn label      => step env s label
  | .restart startup => restart env startup s

/-- The orchestrator after the labels `ls`, over its restarts. -/
def life (env : OrchestratorEnv) (s : World) (ls : List LifeLabel) : World :=
  Transition.run (lifeStep env) s ls

/-- **The condition on a step.** No task is submitted for approval and none is cancelled, an adapter
names the context of its task as its intent, and the process starts again over the file that it has
written. -/
def KeepsContext (env : OrchestratorEnv) (s : World) : LifeLabel → Prop
  | .turn (.dispatch request _) => ∀ ready submitted,
      planDispatch env s.outer.policy s.outer.taskStore s.now
        (s.queue.hasCapacity env.queueOptions) s.outer.nextUuid request ≠
          .ok (.submit .approval ready submitted)
  | .turn (.cancelTask taskId tenantId _) => ∀ record,
      cancelTarget s.outer.taskStore taskId tenantId = .ok (some record) →
        record.status ∉ cancellableStates
  | .turn (.resume id outcome _) => AnswersInContext s.outer id outcome
  | .turn _ => True
  | .restart startup => startup.HoldsTasks s.outer.taskStore

/-- **The tasks are in their contexts**, and so is all that may still be written about them. -/
structure InContext (env : OrchestratorEnv) (s : World) : Prop where
  ledger : WorldLedger env s
  named  : TasksNamed s.outer
  held   : ReceiptsNumbered env s.outer
  one    : OneContext s.outer
  calls  : ∀ call ∈ s.outer.calls, call.envelope.contextId = none
  jobs   : ∀ job ∈ liveJobs (AsyncTaskQueue.view (s.queue, s.outer)),
    JobInContext s.outer.taskStore job

section Step

variable {s : World}

theorem InContext.queue_kept {s' : World} (h : InContext env s) (hqueue : s'.queue = s.queue)
    (hcarried : Carried s.outer s'.outer) : Carried s.outer s'.outer ∧
      ∀ job ∈ liveJobs (AsyncTaskQueue.view (s'.queue, s'.outer)),
        JobInContext s'.outer.taskStore job := by
  refine ⟨hcarried, fun job hjob => ?_⟩
  unfold liveJobs AsyncTaskQueue.view at hjob
  rw [hqueue] at hjob
  exact (h.jobs job hjob).kept hcarried.same rfl

/-- A job that settles is taken off the runs, and the queue goes on. -/
theorem InContext.jobSettles (h : InContext env s) (id : Nat) (faults : Faults) :
    Carried s.outer (jobSettles env faults id s).outer ∧
      ∀ job ∈ liveJobs (AsyncTaskQueue.view ((Orchestrator.jobSettles env faults id s).queue,
        (Orchestrator.jobSettles env faults id s).outer)),
          JobInContext (Orchestrator.jobSettles env faults id s).outer.taskStore job := by
  unfold Orchestrator.jobSettles
  split
  · exact ⟨.refl _, h.jobs⟩
  · rename_i outcome _
    have hsettled := (@settledRun_moves env .any s.now s h.ledger id).2
    have hover : Carried s.outer
        { s.outer with settledRuns := s.outer.settledRuns.eraseP (·.1 == id) } :=
      .quiet (fun _ hc => hc) rfl rfl
    have hturn := @queueStep_carried env faults _ hsettled h.jobs
      (.settle id outcome faults.deadLetter) trivial
    exact ⟨hover.trans hturn.carried, hturn.jobs⟩

/-- **Every turn carries the contexts on**, those of the jobs among them. -/
theorem InContext.step_carried (h : InContext env s) {l : Label}
    (hl : KeepsContext env s (.turn l)) : Carried s.outer (step env s l).outer ∧
      ∀ job ∈ liveJobs (AsyncTaskQueue.view ((step env s l).queue, (step env s l).outer)),
        JobInContext (step env s l).outer.taskStore job := by
  have hledger := h.ledger.ledger
  cases l with
  | dispatch request faults =>
      have hcarried : Carried s.outer (dispatch env s.now faults request (s.queue, s.outer)).2 :=
        dispatch_carried hledger hl
      refine ⟨hcarried, fun job hjob => ?_⟩
      rcases liveJobs_dispatch hledger hjob with hold | hnew
      · exact (h.jobs job hold).kept hcarried.same rfl
      · exact hnew
  | approve request => exact h.queue_kept rfl (approve_carried request s.outer)
  | cancelTask taskId tenantId faults => exact h.queue_kept rfl (cancelTask_carried hl)
  | setPolicy policy => exact h.queue_kept rfl (.quiet (fun _ hc => hc) rfl rfl)
  | resume id outcome faults =>
      exact h.queue_kept rfl (resume_carried hledger h.held h.calls hl)
  | poll id => exact h.queue_kept rfl (poll_carried id s.outer)
  | jobSettles id faults => exact h.jobSettles id faults
  | queue turn faults =>
      have hturn := @queueStep_carried env faults s h.ledger h.jobs _
        (QueueTurn.internal faults.deadLetter turn)
      exact ⟨hturn.carried, hturn.jobs⟩
  | tick ms =>
      have hinternal : (.tick ms : QueueLabel Ready).internal := trivial
      have hturn := @queueStep_carried env {} s h.ledger h.jobs _ hinternal
      exact ⟨hturn.carried, hturn.jobs⟩

theorem InContext.turn (h : InContext env s) {l : Label} (hl : KeepsContext env s (.turn l)) :
    InContext env (step env s l) ∧
      SameContexts s.outer.taskStore (step env s l).outer.taskStore := by
  obtain ⟨hmoves, hledger⟩ := step_moves h.ledger (allowed_any env s l)
  obtain ⟨hcarried, hjobs⟩ := h.step_carried hl
  refine ⟨⟨hledger, ?_, ?_, hcarried.one h.one, fun call hcall => ?_, hjobs⟩, hcarried.same⟩
  · exact moves_invariant (fun _ _ _ _ hn hm => tasksNamed_move hn hm) h.ledger.ledger h.named hmoves
  · exact moves_invariant (fun _ _ _ _ hn hm => receiptsNumbered_move hn hm) h.ledger.ledger h.held
      hmoves
  · rcases hcarried.calls call hcall with hold | hnew
    · exact h.calls call hold
    · exact hnew

theorem SameContexts.of_jsonCopy {store store' : TaskStore}
    (hget : ∀ t, store'.get t = (store.get t).map TaskRecord.jsonCopy) : SameContexts store store' :=
  fun t record hrecord => ⟨record.jsonCopy, by rw [hget, hrecord]; rfl, rfl⟩

theorem OneContext.of_jsonCopy {w w' : Runtime} (h : OneContext w)
    (hget : ∀ t, w'.taskStore.get t = (w.taskStore.get t).map TaskRecord.jsonCopy)
    (hhistory : w'.history = w.history) : OneContext w' := by
  constructor
  · intro t record hrecord
    rw [hget, Option.map_eq_some_iff] at hrecord
    obtain ⟨old, hold, rfl⟩ := hrecord
    obtain ⟨result, hresult, htask, hcontext⟩ := h.stored t old hold
    refine ⟨result.jsonCopy, ?_, htask, hcontext⟩
    show old.result.map ResultPackage.jsonCopy = _
    rw [hresult]
    rfl
  · intro outcome houtcome
    rw [hhistory] at houtcome
    obtain ⟨record, hrecord, hcontext⟩ := h.returned outcome houtcome
    obtain ⟨record', hrecord', hsame⟩ := SameContexts.of_jsonCopy hget _ record hrecord
    exact ⟨record', hrecord', hsame.trans hcontext⟩

theorem InContext.restart {startup : Startup} (h : InContext env s)
    (hstartup : startup.HoldsTasks s.outer.taskStore) :
    InContext env (restart env startup s) ∧
      SameContexts s.outer.taskStore (restart env startup s).outer.taskStore := by
  have hget : ∀ t, (Orchestrator.restart env startup s).outer.taskStore.get t =
      (s.outer.taskStore.get t).map TaskRecord.jsonCopy :=
    get_restart h.ledger.ledger h.named hstartup
  have hledger := restart_worldLedger h.ledger h.named hstartup
  refine ⟨⟨hledger, h.named, ?_, h.one.of_jsonCopy hget rfl, ?_, ?_⟩, .of_jsonCopy hget⟩
  · intro t record receipt hrecord hstatus hreceipt
    rw [hget, Option.map_eq_some_iff] at hrecord
    obtain ⟨old, hold, rfl⟩ := hrecord
    exact h.held t old receipt hold hstatus hreceipt
  · intro call hcall
    cases hcall
  · intro job hjob
    rw [liveJobs_restart] at hjob
    cases hjob

theorem inContext_init (policy : PolicyDocument) (deadLetters : List DeadLetterRecord) (now : Millis) :
    InContext env (init env policy deadLetters now) := by
  have hledger := init_worldLedger env policy deadLetters now
  refine ⟨hledger, ?_, ?_, ⟨?_, ?_⟩, ?_, ?_⟩
  · rintro _ _ _ ⟨_, hmem⟩
    cases hmem
  · exact (init_trail env policy deadLetters now).numbering.held
  · intro t record hget
    cases hget
  · rintro _ (hmem | hmem) <;> cases hmem
  · intro call hcall
    cases hcall
  · intro job hjob
    simp [liveJobs, AsyncTaskQueue.view, init, QueueMachine.init, AsyncTaskQueue.init,
      OrderedMap.values, OrderedMap.empty] at hjob

theorem InContext.lifeStep (h : InContext env s) {l : LifeLabel} (hl : KeepsContext env s l) :
    InContext env (lifeStep env s l) ∧
      SameContexts s.outer.taskStore (Orchestrator.lifeStep env s l).outer.taskStore := by
  cases l with
  | turn label => exact h.turn hl
  | restart startup => exact h.restart hl

theorem InContext.life (h : InContext env s) {ls : List LifeLabel}
    (hls : Transition.StepsMeet (Orchestrator.lifeStep env) (KeepsContext env) s ls) :
    InContext env (life env s ls) ∧
      SameContexts s.outer.taskStore (Orchestrator.life env s ls).outer.taskStore := by
  have hrefl : ∀ s : World, SameContexts s.outer.taskStore s.outer.taskStore := fun s => .refl _
  have hkept := @Transition.run_related World LifeLabel (Orchestrator.lifeStep env)
    (KeepsContext env) (InContext env) (fun s s' => SameContexts s.outer.taskStore s'.outer.taskStore)
    hrefl
  exact hkept (fun _ _ _ hfirst hsecond => hfirst.trans hsecond) (fun _ _ hs hl => hs.lifeStep hl) h hls

end Step

/-- Whatever a task is shown with in the one state and in the other is the same. -/
def SameShown (w w' : Runtime) : Prop := ∀ t c c', Shown w t c → Shown w' t c' → c = c'

/-- **A task keeps one context id**, between any two states of a run that keeps the contexts. -/
theorem one_context (env : OrchestratorEnv) (policy : PolicyDocument)
    (deadLetters : List DeadLetterRecord) (now : Millis) (ls ls' : List LifeLabel)
    (hls : Transition.StepsMeet (lifeStep env) (KeepsContext env)
      (init env policy deadLetters now) (ls ++ ls')) :
    SameShown (life env (init env policy deadLetters now) ls).outer
      (life env (init env policy deadLetters now) (ls ++ ls')).outer := by
  obtain ⟨hfirst, hsecond⟩ := (Transition.stepsMeet_append _ ls ls').mp hls
  obtain ⟨hmid, -⟩ := (inContext_init policy deadLetters now).life hfirst
  obtain ⟨hend, hsame⟩ := hmid.life hsecond
  intro t c c' hshown hshown'
  unfold life at hshown'
  rw [Transition.run_append] at hshown'
  -- what is shown is what the record says, and the record keeps it
  obtain ⟨record, hget, rfl⟩ := hmid.one.shown hshown
  obtain ⟨record', hget', rfl⟩ := hend.one.shown hshown'
  obtain ⟨record'', hget'', hcontext⟩ := hsame t record hget
  obtain rfl := Option.some.inj (hget'.symm.trans hget'')
  exact hcontext.symm

/-- What an adapter answers that names the context of the sample task. -/
def contextResult : ExecutionResult :=
  ⟨"10000000-0000-4000-8000-000000000000", "ops.restart", .ok, [], "done"⟩

/-- The sample task is dispatched and ends. -/
def sampleEnded (result : ExecutionResult) : List LifeLabel :=
  [.turn (sampleDispatch "ops.restart" none {}), .turn (.resume 0 (.ok result) {})]

/-- The restart over the file that `persist` writes then. -/
def sampleRestart (result : ExecutionResult) : LifeLabel :=
  .restart ⟨defaultPolicy .allow, .file (some ((life (sampleEnv "ops.restart" noCrypto)
    (sampleInit .allow) (sampleEnded result)).outer.taskStore.list.map TaskRecord.jsonCopy)),
      .empty, []⟩

theorem one_context_sample :
    SameShown
      (life (sampleEnv "ops.restart" noCrypto) (sampleInit .allow) (sampleEnded contextResult)).outer
      (life (sampleEnv "ops.restart" noCrypto) (sampleInit .allow)
        (sampleEnded contextResult ++ [sampleRestart contextResult])).outer := by
  refine one_context _ _ _ _ _ _ ⟨?_, ?_, .inl ⟨none, rfl⟩, trivial⟩
  · intro ready submitted h
    cases h
  · intro call execResult record hcall hanswer hget _
    cases hcall
    cases hanswer
    cases hget
    rfl

/-- The answer of an adapter that names the task as its intent puts the result in another context. -/
theorem context_lost : ¬ SameShown
    (life (sampleEnv "ops.restart" noCrypto) (sampleInit .allow) (sampleEnded sampleResult)).outer
    (life (sampleEnv "ops.restart" noCrypto) (sampleInit .allow)
      (sampleEnded sampleResult)).outer := by
  intro h
  have hrecord : ∃ record result,
      (life (sampleEnv "ops.restart" noCrypto) (sampleInit .allow)
        (sampleEnded sampleResult)).outer.taskStore.get "t1" = some record ∧
      record.result = some result ∧ record.contextId ≠ result.contextId := ⟨_, _, rfl, rfl, by decide⟩
  obtain ⟨record, result, hget, hresult, hne⟩ := hrecord
  exact hne (h "t1" _ _ (.record hget) (.stored hget hresult))

end Orchestrator

end MapProtocol
