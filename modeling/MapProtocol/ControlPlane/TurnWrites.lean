import MapProtocol.ControlPlane.Turns

/-!
# What a turn writes

The turns that submit, cancel or give up a task write to the two stores and to the history, and draw
numbers. `Writes` says so once for all of them, with the events that they log. What an invariant of
the calls, of the waiters or of the history needs to know of such a turn is in its events.
-/

namespace MapProtocol

namespace Orchestrator

variable {env : OrchestratorEnv} {now : Millis} {faults : Faults} {w w' : Runtime}

/-- The turn logs the events, newest first, and leaves the policies, the calls, the waiters and the
jobs that are over as they were. -/
structure Writes (events : List Event) (w w' : Runtime) : Prop where
  policy         : w'.policy = w.policy
  executorPolicy : w'.executorPolicy = w.executorPolicy
  calls          : w'.calls = w.calls
  waiters        : w'.waiters = w.waiters
  settledRuns    : w'.settledRuns = w.settledRuns
  nextCall       : w.nextCall ≤ w'.nextCall
  history        : w'.history = events ++ w.history

/-- A turn that draws no number of a call. -/
theorem Writes.of_fields {events : List Event} (hpolicy : w'.policy = w.policy)
    (hexecutor : w'.executorPolicy = w.executorPolicy) (hcalls : w'.calls = w.calls)
    (hwaiters : w'.waiters = w.waiters) (hsettled : w'.settledRuns = w.settledRuns)
    (hcall : w'.nextCall = w.nextCall) (hhistory : w'.history = events ++ w.history) :
    Writes events w w' :=
  ⟨hpolicy, hexecutor, hcalls, hwaiters, hsettled, Nat.le_of_eq hcall.symm, hhistory⟩

/-! ## Submissions -/

/-- What a submission logs that does not come to wait, newest first. -/
inductive Submitted (call : Nat) (submission : Submission) (ready : Ready)
    (submitted : InvokeResult) : List Event → Prop
  | refused (message : String) :
      Submitted call submission ready submitted
        [.threw call .dispatch ready.envelope.taskId (some message)]
  | failed (message : String) :
      Submitted call submission ready submitted
        [.threw call .dispatch ready.envelope.taskId (some message),
          createdEvent call submission ready]
  | answered :
      Submitted call submission ready submitted
        [.answered call submitted, createdEvent call submission ready]

section Submit

variable {call : Nat} {submission : Submission} {ready : Ready} {submitted : InvokeResult}
  {q : AsyncTaskQueue Ready} {s : AsyncTaskQueue Ready × Runtime}

/-- A submission is over, or its call comes to wait. -/
theorem submits_writes (h : Submits env now faults call ready submitted q w submission s) :
    (∃ events, Submitted call submission ready submitted events ∧ Writes events w s.2) ∨
    submission = .sync ∧ ∃ w₁, Writes [createdEvent call .sync ready] w w₁ ∧
      s.2 = suspend (dispatchCall env call ready w) w₁ := by
  cases h with
  | unchecked => exact .inl ⟨_, .refused _, .of_fields rfl rfl rfl rfl rfl rfl rfl⟩
  | unsaved => exact .inl ⟨_, .failed _, .of_fields rfl rfl rfl rfl rfl rfl rfl⟩
  | unappended => exact .inl ⟨_, .failed _, .of_fields rfl rfl rfl rfl rfl rfl rfl⟩
  | unnotified => exact .inl ⟨_, .failed _, .of_fields rfl rfl rfl rfl rfl rfl rfl⟩
  | notified => exact .inl ⟨_, .answered, .of_fields rfl rfl rfl rfl rfl rfl rfl⟩
  | queued => exact .inl ⟨_, .answered, .of_fields rfl rfl rfl rfl rfl rfl rfl⟩
  -- the record of a job that the queue refuses is deleted, and no event tells of it
  | refused => exact .inl ⟨_, .refused _, .of_fields rfl rfl rfl rfl rfl rfl rfl⟩
  | suspends =>
      exact .inr ⟨rfl, entered now call .sync ready submitted w, .of_fields rfl rfl rfl rfl rfl rfl rfl, rfl⟩

end Submit

/-! ## Approvals, cancellations and dead letters -/

/-- An approval is refused, or its call comes to wait. -/
theorem approve_writes (request : ApprovalRequest) (w : Runtime) :
    (∃ rejection, Writes [.threw w.nextCall .approve request.taskId rejection] w
      (approve env request w)) ∨
    ∃ w₁ approval started, Writes [.approving w.nextCall approval] w w₁ ∧
      started.origin = .approve approval.reference ∧ started.id = w.nextCall ∧
      approve env request w = suspend started w₁ := by
  unfold approve
  dsimp only
  split
  · exact .inl ⟨_, ⟨rfl, rfl, rfl, rfl, rfl, Nat.le_succ _, rfl⟩⟩
  · rename_i approval _
    refine .inr ⟨_, approval, _, ?_, ?_, ?_, rfl⟩
    · exact ⟨rfl, rfl, rfl, rfl, rfl, Nat.le_succ _, rfl⟩
    · rfl
    · rfl

theorem cancelTask_writes (q : AsyncTaskQueue Ready) (taskId : String) (tenantId : Option String)
    (w : Runtime) : ∃ event, Writes [event] w (cancelTask env now faults q taskId tenantId w) ∧
      ((∃ rejection, event = .threw w.nextCall .cancelTask taskId rejection) ∨
        ∃ queued outcome, event = .cancelled taskId queued outcome) := by
  unfold cancelTask updateTask
  dsimp only
  split
  · exact ⟨_, ⟨rfl, rfl, rfl, rfl, rfl, Nat.le_succ _, rfl⟩, .inl ⟨_, rfl⟩⟩
  · split <;> rename_i heq <;> obtain ⟨-, rfl⟩ := Prod.mk.inj heq
    · exact ⟨_, ⟨rfl, rfl, rfl, rfl, rfl, Nat.le_succ _, rfl⟩, .inl ⟨_, rfl⟩⟩
    · exact ⟨_, ⟨rfl, rfl, rfl, rfl, rfl, Nat.le_succ _, rfl⟩, .inr ⟨_, _, rfl⟩⟩

theorem onDeadLetter_writes (job : QueueJob Ready) (deadLetter : DeadLetterRecord) (w : Runtime) :
    Writes [] w (onDeadLetter env now faults job deadLetter w).2 := by
  unfold onDeadLetter updateTask
  dsimp only
  split
  · exact .of_fields rfl rfl rfl rfl rfl rfl rfl
  · split <;> rename_i heq <;> obtain ⟨-, rfl⟩ := Prod.mk.inj heq
    · exact .of_fields rfl rfl rfl rfl rfl rfl rfl
    · split <;> exact .of_fields rfl rfl rfl rfl rfl rfl rfl

end Orchestrator

end MapProtocol
