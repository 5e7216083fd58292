import MapProtocol.ControlPlane.JobPlaces

/-!
# Asynchronous tasks take effect once

The adapter of an asynchronous task is run by the task's job. A job whose closure fails is run
again, and the closure also fails when the adapter has succeeded and its outcome cannot be recorded;
nor does cancelling a task take its job out of the queue. `effects_once` shows that nothing else
makes an adapter run after it has succeeded, or after its task was cancelled in the queue.
-/

namespace MapProtocol

open Js

namespace Orchestrator

variable {env : OrchestratorEnv} {g : Guard} {now : Millis} {faults : Faults}
variable {w w' : Runtime} {envelope : TaskEnvelope} {capability : String} {id : Nat}

/-! ## What a history says of a task -/

/-- The adapter of the task has succeeded. -/
def Succeeded (history : List Event) (t : String) : Prop :=
  ∃ call origin id, .returned call origin t .ok id ∈ history

def isSuccess (t : String) : Event → Bool
  | .returned _ _ t' .ok _ => t' = t
  | _                      => false

/-- **The task takes effect at most once**: its adapter succeeds at most once, and is executed
neither after a success nor after its task was cancelled in the queue. -/
structure EffectOnce (history : List Event) (t : String) : Prop where
  once  : history.countP (isSuccess t) ≤ 1
  after : ∀ call origin intent policy older,
    .executed call origin t intent policy :: older <:+ history →
      ¬ Succeeded older t ∧ ¬ CancelledQueued older t

/-- The call under which an event of an adapter happened, and its task. -/
def adapterOf : Event → Option (Origin × String)
  | .executed _ origin t _ _ => some (origin, t)
  | .returned _ origin t _ _ => some (origin, t)
  | _                        => none

def Traced (history : List Event) : Prop :=
  ∀ event ∈ history, ∀ origin t, adapterOf event = some (origin, t) →
    ∃ envelope capability, Created history (originSubmission origin) envelope capability ∧
      envelope.taskId = t

theorem traced_move (hledger : Ledger env w) (h : Traced w.history) (hm : Move env g now w w') :
    Traced w'.history := by
  intro event hevent origin t hadapter
  have hold : ∀ {k : Submission} {e : TaskEnvelope} {cap : String}, Created w.history k e cap →
      Created w'.history k e cap := fun hc => hc.mono hm.history_subset
  rcases hm.logged hevent with hbefore | hlogged
  · obtain ⟨envelope, capability, hc, htask⟩ := h event hbefore origin t hadapter
    exact ⟨envelope, capability, hold hc, htask⟩
  · cases hlogged with
    | executed _ hcreated htask =>
        cases hadapter
        exact ⟨_, _, hold hcreated, htask⟩
    | approved hchecked =>
        cases hadapter
        obtain ⟨envelope, capability, hc, htask, -⟩ := hchecked.created hledger
        exact ⟨envelope, capability, hold hc, htask⟩
    | returned hcall =>
        cases hadapter
        obtain ⟨envelope, capability, hc, htask⟩ := (hledger.calls _ hcall).1.created
        exact ⟨envelope, capability, hold hc, htask⟩
    | threw => cases hadapter
    | answered => cases hadapter
    | created => cases hadapter
    | approving => cases hadapter
    | cancelled => cases hadapter

/-- The adapter of an asynchronous task works under a job only. -/
theorem Traced.job (h : Traced w.history) (hledger : Ledger env w)
    (hc : Created w.history .async envelope capability) {event : Event} (hevent : event ∈ w.history)
    {origin : Origin} (hadapter : adapterOf event = some (origin, envelope.taskId)) :
    ∃ k, origin = .job k := by
  obtain ⟨envelope', capability', hc', htask⟩ := h event hevent origin _ hadapter
  have hsubmission := (hledger.created_unique hc' hc htask).1
  cases origin with
  | job k => exact ⟨k, rfl⟩
  | dispatch => cases hsubmission
  | approve reference => cases hsubmission

/-- **What the jobs do once, the task does once.** -/
theorem OnceByJobs.effectOnce (h : OnceByJobs w.history) (htraced : Traced w.history)
    (hledger : Ledger env w) (hc : Created w.history .async envelope capability) :
    EffectOnce w.history envelope.taskId := by
  have hjob : ∀ {call : Nat} {origin : Origin} {id : String},
      .returned call origin envelope.taskId .ok id ∈ w.history → ∃ k, origin = .job k :=
    fun hmem => htraced.job hledger hc hmem rfl
  constructor
  · refine Nat.le_trans (List.countP_mono_left fun event hevent hsuccess => ?_)
      (h.once envelope.taskId)
    unfold isSuccess at hsuccess
    split at hsuccess
    · obtain rfl := of_decide_eq_true hsuccess
      obtain ⟨k, rfl⟩ := hjob hevent
      exact isJobSuccess_iff.mpr ⟨_, _, _, rfl⟩
    · cases hsuccess
  · intro call origin intent policy older hsuffix
    obtain ⟨k, rfl⟩ := htraced.job hledger hc (hsuffix.subset List.mem_cons_self) rfl
    obtain ⟨hunspent, hkept⟩ := h.after call k _ intent policy older hsuffix
    refine ⟨?_, hkept⟩
    rintro ⟨call', origin', id, hmem⟩
    obtain ⟨k', rfl⟩ := hjob (hsuffix.subset (List.mem_cons_of_mem _ hmem))
    exact hunspent ⟨call', k', id, hmem⟩

/-! ## Turns that run no job

The events of other methods are no events of a job, and their calls are not in the places of the
jobs. -/

/-- No job's call comes or goes, and no event of a job is logged. -/
structure Unmoved (w w' : Runtime) : Prop where
  calls   : jobCalls w' = jobCalls w
  settled : w'.settledRuns = w.settledRuns
  history : ∃ events, w'.history = events ++ w.history ∧ ∀ event ∈ events, Aside event

theorem Unmoved.refl (w : Runtime) : Unmoved w w := ⟨rfl, rfl, [], rfl, by simp⟩

theorem Unmoved.trans {w w' w'' : Runtime} (h : Unmoved w w') (h' : Unmoved w' w'') :
    Unmoved w w'' := by
  obtain ⟨events, hevents, haside⟩ := h.history
  obtain ⟨events', hevents', haside'⟩ := h'.history
  refine ⟨h'.calls.trans h.calls, h'.settled.trans h.settled, events' ++ events, ?_, ?_⟩
  · rw [hevents', hevents, List.append_assoc]
  · intro event hmem
    rcases List.mem_append.mp hmem with hnew | hold
    · exact haside' event hnew
    · exact haside event hold

theorem Unmoved.of_events (events : List Event) (hcalls : w'.calls = w.calls)
    (hsettled : w'.settledRuns = w.settledRuns) (hhistory : w'.history = events ++ w.history)
    (haside : ∀ event ∈ events, Aside event) : Unmoved w w' :=
  ⟨congrArg (List.filterMap jobOf) hcalls, hsettled, events, hhistory, haside⟩

theorem Unmoved.of_writes {events : List Event} (h : Writes events w w')
    (haside : ∀ event ∈ events, Aside event) : Unmoved w w' :=
  .of_events events h.calls h.settledRuns h.history haside

theorem jobOf_eq_none {call : Call} (horigin : ∀ k, call.origin ≠ .job k) :
    jobOf call = none := by
  unfold jobOf
  split
  · rename_i k hk
    exact absurd hk (horigin k)
  · rfl

theorem unmoved_suspend {call : Call} (horigin : ∀ k, call.origin ≠ .job k) (w : Runtime) :
    Unmoved w (suspend call w) := by
  have hjob : jobOf call = none := jobOf_eq_none horigin
  refine ⟨?_, rfl, ?_⟩
  · unfold suspend jobCalls
    rw [List.filterMap_append]
    simp [hjob]
  · obtain ⟨events, hhistory, -, hevents⟩ := suspend_logs call w
    refine ⟨events, hhistory, fun event hevent => ?_⟩
    obtain ⟨intent, -, -, rfl⟩ := hevents event hevent
    cases horigin' : call.origin with
    | job k => exact absurd horigin' (horigin k)
    | dispatch => trivial
    | approve reference => trivial

theorem unmoved_approve (request : ApprovalRequest) (w : Runtime) :
    Unmoved w (approve env request w) := by
  rcases @approve_writes env request w with
    ⟨rejection, hwrites⟩ | ⟨w₁, approval, started, hwrites, horigin, -, heq⟩
  · exact .of_writes hwrites (by simp [Aside])
  · have happroving : Unmoved w w₁ := .of_writes hwrites (by simp [Aside])
    rw [heq]
    exact happroving.trans (unmoved_suspend (by simp [horigin]) w₁)

theorem unmoved_cancelTask (q : AsyncTaskQueue Ready) (taskId : String) (tenantId : Option String)
    (w : Runtime) : Unmoved w (cancelTask env now faults q taskId tenantId w) := by
  obtain ⟨event, hwrites, hevent⟩ := @cancelTask_writes env now faults q taskId tenantId w
  refine .of_writes hwrites ?_
  rcases hevent with ⟨rejection, rfl⟩ | ⟨queued, outcome, rfl⟩
  · simp [Aside]
  · simp [Aside]

theorem unmoved_poll (id : Nat) (w : Runtime) : Unmoved w (poll id w) := by
  have hpolled := poll_polled id w
  generalize poll id w = w' at hpolled
  cases hpolled with
  | absent => exact .refl w
  | timedOut => exact .of_events [_] rfl rfl rfl (by simp [Aside])
  | answered => exact .of_events [_] rfl rfl rfl (by simp [Aside])
  | waits => exact .of_events [] rfl rfl rfl (by simp)

section Submit

variable {w : Runtime} {call : Nat} {ready : Ready} {submitted : InvokeResult}

theorem aside_of_submitted {submission : Submission} {events : List Event}
    (h : Submitted call submission ready submitted events) : ∀ event ∈ events, Aside event := by
  cases h with
  | refused message => simp [Aside]
  | failed message => simp [Aside, createdEvent]
  | answered => simp [Aside, createdEvent]

theorem unmoved_submits {submission : Submission} {q : AsyncTaskQueue Ready}
    {s : AsyncTaskQueue Ready × Runtime}
    (h : Submits env now faults call ready submitted q w submission s) : Unmoved w s.2 := by
  rcases submits_writes h with ⟨events, hsubmitted, hwrites⟩ | ⟨-, w₁, hwrites, heq⟩
  · exact .of_writes hwrites (aside_of_submitted hsubmitted)
  · have hcreated : Unmoved w w₁ := .of_writes hwrites (by simp [Aside, createdEvent])
    rw [heq]
    exact hcreated.trans (unmoved_suspend (by simp [dispatchCall]) w₁)

end Submit

theorem unmoved_dispatch (request : DispatchRequest) (q : AsyncTaskQueue Ready) (w : Runtime) :
    Unmoved w (dispatch env now faults request (q, w)).2 := by
  have hturn := dispatch_cases env now faults request q w
  generalize dispatch env now faults request (q, w) = s at hturn ⊢
  cases hturn with
  | rejected | found => exact .of_events [_] rfl rfl rfl (by simp [Aside])
  | waits => exact .of_events [] rfl rfl rfl (by simp)
  | submits _ hsubmits =>
      have hnumbered : Unmoved w (numbered w) := .of_events [] rfl rfl rfl (by simp)
      exact hnumbered.trans (unmoved_submits hsubmits)

/-! ## The answer of a call

What the queue does about a job depends on what its closure settles to, not on what the adapter
answered: a success that cannot be saved is retried. -/

section Resume

theorem aside_returned {call : Call} (horigin : ∀ k, call.origin ≠ .job k) {t id : String}
    {status : ExecutionStatus} : Aside (.returned call.id call.origin t status id) := by
  cases horigin' : call.origin with
  | job k => exact absurd horigin' (horigin k)
  | dispatch => trivial
  | approve reference => trivial

theorem unmoved_finish {call : Call} (horigin : ∀ k, call.origin ≠ .job k)
    (answer : Except Rejection InvokeResult) (w : Runtime) : Unmoved w (finish call answer w) := by
  unfold finish
  split
  · rename_i hk
    exact absurd hk (horigin _)
  all_goals exact .of_events [_] rfl rfl rfl (by simp [Aside])

variable {w w₁ : Runtime} {id : Nat} {call : Call} {attempts : Nat}
  {running : List (QueueJob Ready)}

/-- The job numbered `k` has no attempt left. -/
def LastAttempt (attempts : Nat) (running : List (QueueJob Ready)) (k : Nat) : Prop :=
  ∀ job ∈ running, job.id = k → attempts ≤ job.attempt

/-- A call ends, once its answer has arrived in `w₁`. -/
theorem finish_returns {answer : Except Rejection InvokeResult}
    (hfound : w.calls.find? (·.id == id) = some call)
    (hcalls : w₁.calls = w.calls.eraseP (·.id == id)) (hsettled : w₁.settledRuns = w.settledRuns)
    (hhistory : w₁.history = w.history ∨ ∃ status rid,
      w₁.history = .returned call.id call.origin call.envelope.taskId status rid :: w.history ∧
        (status = .ok → ∀ k, call.origin = .job k → ∀ e, answer = .error e →
          LastAttempt attempts running k)) :
    Unmoved w (finish call answer w₁) ∨ ∃ k t result,
      Returns k t result attempts running w (finish call answer w₁) := by
  obtain ⟨l₁, l₂, hsplit, herase⟩ := AsyncTaskQueue.find?_split hfound
  rw [herase] at hcalls
  have hbefore : jobCalls w = l₁.filterMap jobOf ++ (call :: l₂).filterMap jobOf := by
    unfold jobCalls
    rw [hsplit, List.filterMap_append]
  have hafter : jobCalls w₁ = l₁.filterMap jobOf ++ l₂.filterMap jobOf := by
    unfold jobCalls
    rw [hcalls, List.filterMap_append]
  -- only the call of a job moves a job: its closure settles with the answer
  by_cases hjob : ∃ k, call.origin = .job k
  · obtain ⟨k, horigin⟩ := hjob
    have hcall : jobOf call = some (k, call.envelope.taskId) := by
      unfold jobOf
      rw [horigin]
    have hfinish : finish call answer w₁ =
        { w₁ with settledRuns := w₁.settledRuns ++ [(k, answer.map fun _ => ())] } := by
      unfold finish
      rw [horigin]
    rw [hfinish]
    refine .inr ⟨k, call.envelope.taskId, answer.map fun _ => (), ⟨_, _, ?_, hafter⟩, ?_, ?_⟩
    · rw [hbefore, List.filterMap_cons, hcall]
    · rw [← hsettled]
    · rw [horigin] at hhistory
      rcases hhistory with heq | ⟨status, rid, heq, hok⟩
      · exact .inl heq
      · refine .inr ⟨call.id, status, rid, heq, fun hstatus e he => ?_⟩
        cases answer with
        | error e' => exact hok hstatus k rfl e' rfl
        | ok result => cases he
  · rw [not_exists] at hjob
    -- the call of anything else was none of `jobCalls`
    have harrived : Unmoved w w₁ := by
      refine ⟨?_, hsettled, ?_⟩
      · rw [hafter, hbefore, List.filterMap_cons, jobOf_eq_none hjob]
      · rcases hhistory with heq | ⟨status, rid, heq, -⟩
        · exact ⟨[], heq, by simp⟩
        · refine ⟨[_], heq, fun event hevent => ?_⟩
          obtain rfl := List.mem_singleton.mp hevent
          exact aside_returned hjob
    exact .inl (harrived.trans (unmoved_finish hjob answer w₁))

/-- **What resuming a call does to the jobs.** A success under a job fails the job's closure only
where it cannot be recorded. -/
theorem resume_jobs {outcome : Except Rejection ExecutionResult} (hledger : Ledger env w)
    (hnumbering : Numbering env w)
    (hrecords : ∀ call k execResult, w.calls.find? (·.id == id) = some call →
      call.origin = .job k → settledAnswer call.invocation outcome = .ok (.result execResult) →
        execResult.status = .ok →
          (faults.update = none ∧ faults.append = none ∧
            ∀ record, w.taskStore.get call.envelope.taskId = some record →
              isTerminal record.status = false) ∨ LastAttempt attempts running k) :
    Unmoved w (resume env now faults id outcome w) ∨ ∃ k t result,
      Returns k t result attempts running w (resume env now faults id outcome w) := by
  have hresumed : Resumed env now faults w id outcome (resume env now faults id outcome w) :=
    resume_cases hledger id outcome
  generalize resume env now faults id outcome w = w' at hresumed
  -- the history with the event of the adapter, if it was reached
  have harrived : ∀ {call coreResult normalized record} {answer : Except Rejection InvokeResult},
      Arrives env now w id outcome call coreResult normalized record →
        (∀ execResult, coreResult = .result execResult → faults.update = none →
          faults.append = none → isTerminal record.status = false → ∀ e, answer ≠ .error e) →
        (arrived env now call coreResult w).history = w.history ∨ ∃ status rid,
          (arrived env now call coreResult w).history =
            .returned call.id call.origin call.envelope.taskId status rid :: w.history ∧
            (status = .ok → ∀ k, call.origin = .job k → ∀ e, answer = .error e →
              LastAttempt attempts running k) := by
    intro call coreResult normalized record answer harrives hsaves
    cases coreResult with
    | receipt receipt => exact .inl rfl
    | result execResult =>
        refine .inr ⟨_, _, rfl, fun hstatus k horigin e he => ?_⟩
        rcases hrecords call k execResult harrives.found horigin harrives.answer hstatus with
          ⟨hupdate, happend, hlive⟩ | hlast
        · exact absurd he (hsaves _ rfl hupdate happend (hlive _ harrives.record) e)
        · exact hlast
  cases hresumed with
  | absent => exact .inl (.refl w)
  | rejected hfound => exact finish_returns hfound rfl rfl (.inl rfl)
  | refused harrives hrefuses =>
      have hcalls := harrives.call_mem.2
      refine finish_returns harrives.found (by rw [← hcalls]; rfl) rfl (harrived harrives ?_)
      rintro execResult rfl - - hlive
      exact absurd (hledger.accepts_result harrives.record hlive harrives.normalized) hrefuses
  | unsaved harrives _ hfault =>
      have hcalls := harrives.call_mem.2
      refine finish_returns harrives.found (by rw [← hcalls]; rfl) rfl (harrived harrives ?_)
      rintro execResult rfl hnone
      rw [hfault] at hnone
      cases hnone
  | @saved call coreResult normalized record harrives =>
      have hcalls := harrives.call_mem.2
      refine finish_returns harrives.found (by rw [← hcalls]; rfl) rfl (harrived harrives ?_)
      rintro execResult rfl - happend - e
      have hunused : w.receiptStore.receipts.get
          (Origin.stamp call.origin normalized).receipt.receiptId = none :=
        hnumbering.unused (endsIn_normalized harrives.normalized) (Nat.le_refl _)
      rw [ReceiptStore.append_of_new faults.append hunused, happend]
      simp [persist, Except.mapError, Except.map]

end Resume

/-! ## Steps

The places of the jobs change in two ways: by the moves of the queue, which are general, and by the
return of a call. -/

/-- The queue makes a scheduling pass in the turn. -/
def MakesPass (s : World) : Label → Prop
  | .queue .microtask _ => s.queue.microtasks ≠ 0
  | .jobSettles id _    => id ∈ s.outer.settledRuns.map Prod.fst
  | _                   => False

/-- An adapter that succeeds under a job finds the record of its task live, and neither write
throws; else the job has no attempt left. -/
def RecordsSuccess (env : OrchestratorEnv) (s : World) : Label → Prop
  | .resume id outcome faults => ∀ call k execResult,
      s.outer.calls.find? (·.id == id) = some call → call.origin = .job k →
        settledAnswer call.invocation outcome = .ok (.result execResult) →
          execResult.status = .ok →
            (faults.update = none ∧ faults.append = none ∧
              ∀ record, s.outer.taskStore.get call.envelope.taskId = some record →
                isTerminal record.status = false) ∨
              LastAttempt env.queueOptions.attempts s.queue.runningJobs k
  | _ => True

/-- **The condition on a turn.** A success under a job is recorded, or the job is not retried; and a
scheduling pass finds no revoked task in the queue. -/
structure TakesOnce (env : OrchestratorEnv) (s : World) (l : Label) : Prop where
  records : RecordsSuccess env s l
  passes  : MakesPass s l → ∀ job ∈ s.queue.queue, ∀ record,
    s.outer.taskStore.get job.taskId = some record → record.status ≠ .revoked

abbrev JobsPlaced (env : OrchestratorEnv) (s : World) : Prop :=
  OneRun env.queueOptions.attempts s.queue.accepted.length (AsyncTaskQueue.view (s.queue, s.outer))

/-- What a run keeps: the ledger, the numbers of the ids, and the places of the jobs. -/
structure Placed (env : OrchestratorEnv) (s : World) : Prop where
  ledger    : WorldLedger env s
  numbering : Numbering env s.outer
  traced    : Traced s.outer.history
  revoked   : CancelledRevoked s.outer
  jobs      : JobsPlaced env s

variable {s : World}

theorem OneRun.unmoved {a n : Nat} {v : QueueView Ready Runtime} (h : OneRun a n v)
    (hu : Unmoved v.outer w') : OneRun a n { v with outer := w' } := by
  obtain ⟨events, hhistory, haside⟩ := hu.history
  exact h.fewer (List.Sublist.refl _) (List.Sublist.refl _) (List.Sublist.refl _) hu.calls
    (hu.settled ▸ List.Sublist.refl _) hhistory haside

theorem Placed.queueKept (h : Placed env s)
    (hl : ∀ job ∈ s.queue.queue, ∀ record,
      s.outer.taskStore.get job.taskId = some record → record.status ≠ .revoked) :
    QueueKept (AsyncTaskQueue.view (s.queue, s.outer)) := by
  rintro job hjob ⟨outcome, hmem⟩
  obtain ⟨record, hget, hrevoked⟩ := h.revoked _ _ _ hmem
  exact hl job hjob record hget hrevoked

/-- A task that is created now was known to nobody. -/
theorem fresh_task (hledger : Ledger env w) (hledger' : Ledger env w')
    (hsub : w.history ⊆ w'.history) {k k' : Submission} {ready : Ready}
    (hnew : createdEvent w.nextCall k ready ∈ w'.history)
    (hold : Created w.history k' envelope capability) :
    envelope.taskId ≠ ready.envelope.taskId := by
  intro htask
  obtain ⟨call, hmem⟩ := hold
  have heq := hledger'.unique _ (hsub hmem) _ hnew _ _ _ _ _ _ _ _ rfl rfl htask
  have hcall : call = w.nextCall := (Event.created.inj heq).1
  have hlt : call < w.nextCall := hledger.numbered _ hmem call rfl
  omega

theorem dispatch_jobs (h : Placed env s) (request : DispatchRequest) :
    JobsPlaced env (step env s (.dispatch request faults)) := by
  have hunmoved := @unmoved_dispatch env s.now faults request s.queue s.outer
  have hledger' := (step_moves h.ledger (allowed_any env s (.dispatch request faults))).2.ledger
  have hsub := moves_history_subset
    (step_moves h.ledger (allowed_any env s (.dispatch request faults))).1
  obtain ⟨-, hqueue⟩ := @dispatch_queue env s.now faults request s.queue s.outer
  have hsame : OneRun env.queueOptions.attempts s.queue.accepted.length
      (AsyncTaskQueue.view (s.queue, (dispatch env s.now faults request (s.queue, s.outer)).2)) :=
    h.jobs.unmoved hunmoved
  unfold JobsPlaced step at *
  dsimp only at *
  generalize dispatch env s.now faults request (s.queue, s.outer) = s' at *
  obtain ⟨q', w'⟩ := s'
  rcases hqueue with rfl | ⟨ready, henqueued⟩
  · exact hsame
  · obtain rfl : q' = _ := henqueued.queue
    rcases s.queue.enqueue_cases (enqueueParams ready) with heq | heq
    · rw [heq]
      exact hsame
    · rw [heq, AsyncTaskQueue.view_kickoff]
      have haccepted : ∀ q : AsyncTaskQueue Ready,
          (AsyncTaskQueue.kickoff q).accepted = q.accepted := by
        intro q
        obtain ⟨_, _, hkick⟩ := AsyncTaskQueue.kickoff_eq q
        rw [hkick]
      rw [haccepted, List.length_append]
      have hfresh : ∀ {k : Submission} {envelope : TaskEnvelope} {capability : String},
          Created s.outer.history k envelope capability →
            envelope.taskId ≠ ready.envelope.taskId :=
        fun hold => fresh_task h.ledger.ledger hledger' hsub henqueued.created hold
      -- the new task is of no job, of no call and of no success
      refine hsame.joins rfl rfl ?_ ?_ ?_
      · intro job hjob
        have hlive : job ∈ liveJobs (AsyncTaskQueue.view (s.queue, s.outer)) :=
          List.mem_append_left _ hjob
        obtain ⟨hcreated, htask⟩ := h.ledger.jobs job hlive
        rw [htask]
        exact hfresh hcreated
      · intro c hc
        rw [hunmoved.calls] at hc
        obtain ⟨call, hcall, hjob⟩ := List.mem_filterMap.mp hc
        obtain ⟨envelope, capability, hcreated, htask⟩ :=
          (h.ledger.ledger.calls call hcall).1.created
        have htaskId : c.2 = call.envelope.taskId := by
          unfold jobOf at hjob
          split at hjob
          · cases hjob
            rfl
          · cases hjob
        rw [htaskId, ← htask]
        exact hfresh hcreated
      · obtain ⟨events, hhistory, haside⟩ := hunmoved.history
        rw [hhistory, jobSucceeded_append haside]
        rintro ⟨call, k, id, hmem⟩
        obtain ⟨envelope, capability, hcreated, htask⟩ := h.traced _ hmem _ _ rfl
        exact hfresh hcreated htask

theorem resume_jobsPlaced (h : Placed env s) {outcome : Except Rejection ExecutionResult}
    (hl : RecordsSuccess env s (.resume id outcome faults)) :
    JobsPlaced env (step env s (.resume id outcome faults)) := by
  rcases resume_jobs h.ledger.ledger h.numbering hl with hunmoved | ⟨k, t, result, hreturns⟩
  · exact h.jobs.unmoved hunmoved
  · exact h.jobs.returns hreturns

/-- What a scheduling pass from `s` keeps. -/
def KeptInPlace (env : OrchestratorEnv) (s : World) (v : QueueView Ready Runtime) : Prop :=
  OneRun env.queueOptions.attempts s.queue.accepted.length v ∧ QueueKept v

theorem pass_keeps {v v' : QueueView Ready Runtime} (h : KeptInPlace env s v)
    (hm : AsyncTaskQueue.ViewMove (hooks env now faults) (fun _ => False) v v')
    (hwaiting : v'.waiting = v.waiting) : KeptInPlace env s v' :=
  ⟨oneRun_viewMove h.1 hm (.inr h.2), queueKept_viewMove h.2 hm hwaiting⟩

theorem queueTurn_jobs (h : Placed env s) {turn : QueueTurn}
    (hl : TakesOnce env s (.queue turn faults)) :
    JobsPlaced env (step env s (.queue turn faults)) := by
  have haccepted : (step env s (.queue turn faults)).queue.accepted = s.queue.accepted :=
    QueueMachine.step_accepted (QueueTurn.internal faults.deadLetter turn)
  unfold JobsPlaced
  rw [haccepted]
  cases turn with
  | microtask =>
      by_cases hnone : s.queue.microtasks = 0
      · have hidle : AsyncTaskQueue.runMicrotask env.queueOptions (hooks env s.now faults) s.now
            (s.queue, s.outer) = (s.queue, s.outer) := by
          unfold AsyncTaskQueue.runMicrotask
          rw [if_pos hnone]
        show OneRun _ _ (AsyncTaskQueue.view (AsyncTaskQueue.runMicrotask env.queueOptions
          (hooks env s.now faults) s.now (s.queue, s.outer)))
        rw [hidle]
        exact h.jobs
      · have hpass : KeptInPlace env s (AsyncTaskQueue.view (AsyncTaskQueue.runMicrotask
            env.queueOptions (hooks env s.now faults) s.now (s.queue, s.outer))) :=
          AsyncTaskQueue.runMicrotask_view (fun _ _ => pass_keeps)
            ⟨h.jobs, h.queueKept (hl.passes hnone)⟩
        exact hpass.1
  | retryTimer id =>
      exact AsyncTaskQueue.fireTimer_view (P := OneRun _ _)
        (fun v v' hv hm hrunning => oneRun_viewMove hv hm (.inl hrunning)) h.jobs
  | processOutbox =>
      exact AsyncTaskQueue.processOutbox_view (P := OneRun _ _)
        (fun v v' hv hm hrunning => oneRun_viewMove hv hm (.inl hrunning)) h.jobs
  | setTenantQuota tenantId quota => exact h.jobs
  | stop => exact h.jobs

theorem taken_off {outcome : Except Rejection Unit} (hruns : (underWay w).Nodup)
    (hfound : w.settledRuns.find? (·.1 == id) = some (id, outcome)) :
    id ∉ underWay { w with settledRuns := w.settledRuns.eraseP (·.1 == id) } := by
  obtain ⟨l₁, l₂, hsplit, herase⟩ := AsyncTaskQueue.find?_split hfound
  unfold underWay at hruns ⊢
  dsimp only
  rw [herase]
  rw [hsplit, List.nodup_append] at hruns
  obtain ⟨-, hsettled, hapart⟩ := hruns
  have hother := ne_of_nodup_map List.perm_middle hsettled
  intro hmem
  rcases List.mem_append.mp hmem with hcall | hrest
  · exact hapart id hcall id (by simp) rfl
  · obtain ⟨run, hrun, hid⟩ := List.mem_map.mp hrest
    exact hother run hrun hid

theorem jobSettles_jobs (h : Placed env s) (hl : TakesOnce env s (.jobSettles id faults)) :
    JobsPlaced env (step env s (.jobSettles id faults)) := by
  show JobsPlaced env (jobSettles env faults id s)
  unfold jobSettles
  split
  · exact h.jobs
  · rename_i id' outcome hfind
    have hid : id' = id := by simpa using List.find?_some hfind
    subst hid
    have hmem : (id', outcome) ∈ s.outer.settledRuns := List.mem_of_find?_eq_some hfind
    have haccepted : (queueStep env faults { s with outer := { s.outer with
        settledRuns := s.outer.settledRuns.eraseP (·.1 == id') } }
          (.settle id' outcome faults.deadLetter)).queue.accepted = s.queue.accepted :=
      QueueMachine.step_accepted trivial
    unfold JobsPlaced
    rw [haccepted]
    have hover : OneRun env.queueOptions.attempts s.queue.accepted.length
        (AsyncTaskQueue.view (s.queue, { s.outer with
          settledRuns := s.outer.settledRuns.eraseP (·.1 == id') })) :=
      h.jobs.fewer_silent (List.Sublist.refl _) (List.Sublist.refl _) (List.Sublist.refl _) rfl
        List.eraseP_sublist rfl
    have hkept := h.queueKept (hl.passes (List.mem_map_of_mem hmem))
    have hsettled : KeptInPlace env s (AsyncTaskQueue.view (AsyncTaskQueue.settle env.queueOptions
        (hooks env s.now faults) s.now id' outcome faults.deadLetter (s.queue, { s.outer with
          settledRuns := s.outer.settledRuns.eraseP (·.1 == id') }))) := by
      refine AsyncTaskQueue.settle_view_of (fun _ _ => pass_keeps) ?_ ⟨hover, hkept⟩
      -- the job is retried: its closure has failed, and it has an attempt left
      rintro job l₁ l₂ e hsplit rfl rfl hatt
      have hjob : job ∈ s.queue.runningJobs := by
        rw [hsplit]
        simp
      have hunspent := h.jobs.retries job hjob e hmem hatt
      unfold AsyncTaskQueue.view at hover
      dsimp only at hover hsplit
      rw [hsplit] at hover
      exact ⟨hover.waitsAgain (taken_off h.jobs.runs hfind) hunspent, hkept⟩
    exact hsettled.1

/-- **One turn under the condition keeps every job in one place.** -/
theorem placed_step (h : Placed env s) {l : Label} (hl : TakesOnce env s l) :
    Placed env (step env s l) where
  ledger := (step_moves h.ledger (allowed_any env s l)).2
  numbering := numbering_step h.ledger h.numbering l
  traced := moves_invariant (I := fun w => Traced w.history)
    (fun _ _ _ hw ht hm => traced_move hw ht hm) h.ledger.ledger h.traced
    (step_moves h.ledger (allowed_any env s l)).1
  revoked := moves_invariant (fun _ _ _ hw hr hm => cancelledRevoked_move hw hr hm)
    h.ledger.ledger h.revoked (step_moves h.ledger (allowed_any env s l)).1
  jobs := by
    cases l with
    | dispatch request faults => exact dispatch_jobs h request
    | approve request => exact h.jobs.unmoved (unmoved_approve request s.outer)
    | cancelTask taskId tenantId faults =>
        exact h.jobs.unmoved (unmoved_cancelTask s.queue taskId tenantId s.outer)
    | setPolicy policy => exact h.jobs.unmoved (.of_events [] rfl rfl rfl (by simp))
    | resume id outcome faults => exact resume_jobsPlaced h hl.records
    | poll id => exact h.jobs.unmoved (unmoved_poll id s.outer)
    | jobSettles id faults => exact jobSettles_jobs h hl
    | queue turn faults => exact queueTurn_jobs h hl
    | tick ms => exact h.jobs

theorem init_placed (env : OrchestratorEnv) (policy : PolicyDocument)
    (deadLetters : List DeadLetterRecord) (now : Millis) :
    Placed env (init env policy deadLetters now) where
  ledger := init_worldLedger env policy deadLetters now
  numbering := (init_trail env policy deadLetters now).numbering
  traced := by simp [Traced]
  revoked := by simp [CancelledRevoked]
  jobs := by
    constructor <;> simp [standing, underWay, jobCalls, AsyncTaskQueue.view, init,
      QueueMachine.init, AsyncTaskQueue.init, freshRuntime]
    exact ⟨by simp, by simp⟩

/-- **Asynchronous tasks take effect at most once**, in every run in which a success under a job is
recorded or the job's last, and no scheduling pass finds a revoked task in the queue. -/
theorem effects_once (env : OrchestratorEnv) (policy : PolicyDocument)
    (deadLetters : List DeadLetterRecord) (now : Millis) (ls : List Label)
    (h : Transition.StepsMeet (step env) (TakesOnce env) (init env policy deadLetters now) ls)
    (envelope : TaskEnvelope) (capability : String)
    (hc : Created (run env (init env policy deadLetters now) ls).outer.history .async envelope
      capability) :
    EffectOnce (run env (init env policy deadLetters now) ls).outer.history envelope.taskId := by
  have hplaced : Placed env (run env (init env policy deadLetters now) ls) :=
    Transition.run_invariant (I := Placed env) (fun _ _ hs hl => placed_step hs hl)
      (init_placed env policy deadLetters now) h
  exact hplaced.jobs.history.effectOnce hplaced.traced hplaced.ledger.ledger hc

/-! ## Samples -/

/-- The sample task is dispatched asynchronously, and its job starts. -/
def sampleJob : List Label :=
  [sampleDispatch "ops.restart" (some [("async", .bool true)]) {}, .queue .microtask {}]

def noneRevoked (s : World) : Bool :=
  s.queue.queue.all fun job =>
    (s.outer.taskStore.get job.taskId).all fun record => decide (record.status ≠ .revoked)

theorem takesOnce_of_noneRevoked {l : Label} (hrecords : RecordsSuccess env s l)
    (hnone : noneRevoked s = true) : TakesOnce env s l := by
  refine ⟨hrecords, fun _ job hjob record hget => ?_⟩
  have hall := List.all_eq_true.mp hnone job hjob
  rw [hget] at hall
  simpa using hall

/-- An asynchronous task `t` was created. -/
def createsAsync (history : List Event) (t : String) : Bool :=
  history.any fun
    | .created _ .async envelope _ => envelope.taskId == t
    | _                            => false

theorem created_of_createsAsync {history : List Event} {t : String}
    (h : createsAsync history t = true) :
    ∃ envelope capability, Created history .async envelope capability ∧ envelope.taskId = t := by
  obtain ⟨event, hevent, hcreation⟩ := List.any_eq_true.mp h
  split at hcreation
  · rename_i call envelope capability
    exact ⟨envelope, capability, ⟨call, hevent⟩, by simpa using hcreation⟩
  · cases hcreation

/-- The adapter of the sample task throws, and the queue runs the job again. -/
def sampleRetry : List Label :=
  sampleJob ++ [.resume 1 (.error (some "boom")) {}, .jobSettles 0 {}, .queue (.retryTimer 0) {},
    .queue .microtask {}]

/-- The adapter of the sample task succeeds when the job is run again. -/
theorem effects_once_sample :
    EffectOnce (run (sampleEnv "ops.restart" noCrypto) (sampleInit .allow)
      (sampleRetry ++ [.resume 2 (.ok sampleResult) {}, .jobSettles 0 {}])).outer.history "t1" := by
  have hcreates : createsAsync (run (sampleEnv "ops.restart" noCrypto) (sampleInit .allow)
      (sampleRetry ++ [.resume 2 (.ok sampleResult) {}, .jobSettles 0 {}])).outer.history "t1" =
        true := by decide +kernel
  obtain ⟨envelope, capability, hc, htask⟩ := created_of_createsAsync hcreates
  rw [← htask]
  refine effects_once _ _ _ _ _ ?_ envelope capability hc
  refine ⟨?_, ?_, ?_, ?_, ?_, ?_, ?_, ?_, trivial⟩
  · exact takesOnce_of_noneRevoked trivial (by decide +kernel)
  · exact takesOnce_of_noneRevoked trivial (by decide +kernel)
  · refine takesOnce_of_noneRevoked ?_ (by decide +kernel)
    intro call k execResult _ _ hanswer
    obtain ⟨intent, context, hadapter⟩ := settledAnswer_result hanswer
    rw [hadapter] at hanswer
    cases hanswer
  · exact takesOnce_of_noneRevoked trivial (by decide +kernel)
  · exact takesOnce_of_noneRevoked trivial (by decide +kernel)
  · exact takesOnce_of_noneRevoked trivial (by decide +kernel)
  · refine takesOnce_of_noneRevoked ?_ (by decide +kernel)
    intro call k execResult hfind _ _ _
    refine .inl ⟨rfl, rfl, fun record hget => ?_⟩
    have hlive : (run (sampleEnv "ops.restart" noCrypto) (sampleInit .allow)
        sampleRetry).outer.calls.all (fun call => call.envelope.taskId == "t1") = true ∧
        ((run (sampleEnv "ops.restart" noCrypto) (sampleInit .allow)
          sampleRetry).outer.taskStore.get "t1").map (fun record => isTerminal record.status) =
            some false := by decide +kernel
    have htask : call.envelope.taskId = "t1" := by
      simpa using List.all_eq_true.mp hlive.1 call (find_call hfind).1
    rw [htask] at hget
    have hstatus : some (isTerminal record.status) = some false :=
      (congrArg (Option.map fun r : TaskRecord => isTerminal r.status) hget).symm.trans hlive.2
    exact Option.some.inj hstatus
  · exact takesOnce_of_noneRevoked trivial (by decide +kernel)

/-- The sample task is cancelled while it is queued, and its job starts. -/
def cancelledJob : List Label :=
  [sampleDispatch "ops.restart" (some [("async", .bool true)]) {}, .cancelTask "t1" none {},
    .queue .microtask {}]

/-- The adapter of the sample task succeeds, its record cannot be written, and the adapter succeeds
again when the job is run again. -/
def unsavedJob : List Label :=
  sampleJob ++ [.resume 1 (.ok sampleResult) { update := some "disk full" }, .jobSettles 0 {},
    .queue (.retryTimer 0) {}, .queue .microtask {}, .resume 2 (.ok sampleResult) {}]

/-- An execution right after the cancellation of a queued task. -/
theorem not_effectOnce_of_cancelled {call : Nat} {origin : Origin} {t : String} {intent : Intent}
    {policy : PolicyDocument} {outcome : InvokeResult} {history older : List Event}
    (h : history =
      .executed call origin t intent policy :: .cancelled t true outcome :: older) :
    ¬ EffectOnce history t := by
  intro honce
  rw [h] at honce
  exact (honce.after call origin intent policy _ (List.suffix_refl _)).2
    ⟨outcome, List.mem_cons_self⟩

/-- A task is executed after it was cancelled in the queue, and another one succeeds twice. -/
theorem effects_repeated :
    (∃ envelope capability,
      Created (run (sampleEnv "ops.restart" noCrypto) (sampleInit .allow)
        cancelledJob).outer.history .async envelope capability ∧
      ¬ EffectOnce (run (sampleEnv "ops.restart" noCrypto) (sampleInit .allow)
        cancelledJob).outer.history envelope.taskId) ∧
    ∃ envelope capability,
      Created (run (sampleEnv "ops.restart" noCrypto) (sampleInit .allow)
        unsavedJob).outer.history .async envelope capability ∧
      ¬ EffectOnce (run (sampleEnv "ops.restart" noCrypto) (sampleInit .allow)
        unsavedJob).outer.history envelope.taskId := by
  constructor
  · have hcreates : createsAsync (run (sampleEnv "ops.restart" noCrypto) (sampleInit .allow)
        cancelledJob).outer.history "t1" = true := by decide +kernel
    obtain ⟨envelope, capability, hc, htask⟩ := created_of_createsAsync hcreates
    refine ⟨envelope, capability, hc, ?_⟩
    rw [htask]
    exact not_effectOnce_of_cancelled rfl
  · have hcreates : createsAsync (run (sampleEnv "ops.restart" noCrypto) (sampleInit .allow)
        unsavedJob).outer.history "t1" = true := by decide +kernel
    obtain ⟨envelope, capability, hc, htask⟩ := created_of_createsAsync hcreates
    refine ⟨envelope, capability, hc, fun h => ?_⟩
    have hcount : (run (sampleEnv "ops.restart" noCrypto) (sampleInit .allow)
        unsavedJob).outer.history.countP (isSuccess "t1") = 2 := by decide +kernel
    have honce := h.once
    rw [htask, hcount] at honce
    exact absurd honce (by decide)

end Orchestrator

end MapProtocol
