import MapProtocol.ControlPlane.Lookups

/-!
# Who is answered about which task

A dispatch is answered at once, or waits for the executor or for a stored task and is answered in a
later turn. `About` says which task a call has to do with while it waits and once it is answered.
It is settled in the turn that makes the call: `about_step` shows that no other turn changes it.
-/

namespace MapProtocol

open Js

namespace Orchestrator

variable {env : OrchestratorEnv} {now : Millis} {faults : Faults}
variable {w w' : Runtime} {s : World}

/-! ## Turns that answer nobody

`Still` turns leave the callers as they are. `Silent` ones may let calls of other methods, and of
jobs, come to wait. -/

/-- The event is no answer, and no start of a dispatch's adapter. -/
def Unheard : Event → Prop
  | .answered _ _               => False
  | .executed _ .dispatch _ _ _ => False
  | _                           => True

/-- Nobody is answered and nobody comes to wait. -/
structure Still (w w' : Runtime) : Prop where
  waiters  : w'.waiters = w.waiters
  calls    : w'.calls = w.calls
  nextCall : w.nextCall ≤ w'.nextCall
  history  : ∃ events, w'.history = events ++ w.history ∧ ∀ event ∈ events, Unheard event

/-- Nobody is answered and no dispatch comes to wait. Other calls may, under new numbers. -/
structure Silent (w w' : Runtime) : Prop where
  waiters  : w'.waiters = w.waiters
  calls    : ∃ started, w'.calls = w.calls ++ started ∧
    ∀ call ∈ started, call.origin ≠ .dispatch ∧ w.nextCall ≤ call.id
  nextCall : w.nextCall ≤ w'.nextCall
  history  : ∃ events, w'.history = events ++ w.history ∧ ∀ event ∈ events, Unheard event

theorem Still.of_events (events : List Event) (hwaiters : w'.waiters = w.waiters)
    (hcalls : w'.calls = w.calls) (hcall : w.nextCall ≤ w'.nextCall)
    (hhistory : w'.history = events ++ w.history) (hunheard : ∀ event ∈ events, Unheard event) :
    Still w w' :=
  ⟨hwaiters, hcalls, hcall, events, hhistory, hunheard⟩

theorem Still.of_writes {events : List Event} (h : Writes events w w')
    (hunheard : ∀ event ∈ events, Unheard event) : Still w w' :=
  .of_events events h.waiters h.calls h.nextCall h.history hunheard

theorem Still.trans {w w' w'' : Runtime} (h : Still w w') (h' : Still w' w'') : Still w w'' := by
  obtain ⟨events, hevents, hunheard⟩ := h.history
  obtain ⟨events', hevents', hunheard'⟩ := h'.history
  refine .of_events (events' ++ events) (h'.waiters.trans h.waiters) (h'.calls.trans h.calls)
    (h.nextCall.trans h'.nextCall) ?_ fun event hevent => ?_
  · rw [hevents', hevents, List.append_assoc]
  · rcases List.mem_append.mp hevent with hlast | hold
    · exact hunheard' event hlast
    · exact hunheard event hold

theorem Still.silent (h : Still w w') : Silent w w' :=
  ⟨h.waiters, ⟨[], by simp [h.calls], by simp⟩, h.nextCall, h.history⟩

theorem Silent.refl (w : Runtime) : Silent w w :=
  ⟨rfl, ⟨[], by simp, by simp⟩, Nat.le_refl _, [], rfl, by simp⟩

theorem Silent.trans {w w' w'' : Runtime} (h : Silent w w') (h' : Silent w' w'') :
    Silent w w'' := by
  obtain ⟨started, hcalls, hnew⟩ := h.calls
  obtain ⟨started', hcalls', hnew'⟩ := h'.calls
  obtain ⟨events, hevents, hunheard⟩ := h.history
  obtain ⟨events', hevents', hunheard'⟩ := h'.history
  refine ⟨h'.waiters.trans h.waiters, ⟨started ++ started', ?_, fun call hcall => ?_⟩,
    h.nextCall.trans h'.nextCall, events' ++ events, ?_, fun event hevent => ?_⟩
  · rw [hcalls', hcalls, List.append_assoc]
  · rcases List.mem_append.mp hcall with hold | hlast
    · exact hnew call hold
    · exact ⟨(hnew' call hlast).1, h.nextCall.trans (hnew' call hlast).2⟩
  · rw [hevents', hevents, List.append_assoc]
  · rcases List.mem_append.mp hevent with hlast | hold
    · exact hunheard' event hlast
    · exact hunheard event hold

theorem Silent.of_events (events : List Event) (hwaiters : w'.waiters = w.waiters)
    (hcalls : w'.calls = w.calls) (hcall : w.nextCall ≤ w'.nextCall)
    (hhistory : w'.history = events ++ w.history) (hunheard : ∀ event ∈ events, Unheard event) :
    Silent w w' :=
  (Still.of_events events hwaiters hcalls hcall hhistory hunheard).silent

theorem Silent.suspends {w w' : Runtime} {call : Call} (h : Silent w w')
    (horigin : call.origin ≠ .dispatch) (hid : w.nextCall ≤ call.id) :
    Silent w (suspend call w') := by
  obtain ⟨started, hcalls, hnew⟩ := h.calls
  obtain ⟨events, hevents, hunheard⟩ := h.history
  obtain ⟨last, hlast, -, hexecuted⟩ := suspend_logs call w'
  refine ⟨h.waiters, ⟨started ++ [call], ?_, fun c hc => ?_⟩, h.nextCall, last ++ events, ?_,
    fun event hevent => ?_⟩
  · show w'.calls ++ [call] = _
    rw [hcalls, List.append_assoc]
  · rcases List.mem_append.mp hc with hold | hc
    · exact hnew c hold
    · rw [List.mem_singleton.mp hc]
      exact ⟨horigin, hid⟩
  · rw [hlast, hevents, List.append_assoc]
  · rcases List.mem_append.mp hevent with hnewest | hold
    · obtain ⟨intent, -, -, rfl⟩ := hexecuted event hnewest
      cases hcase : call.origin with
      | dispatch => exact absurd hcase horigin
      | approve reference => trivial
      | job id => trivial
    · exact hunheard event hold

theorem silent_approve (request : ApprovalRequest) (w : Runtime) :
    Silent w (approve env request w) := by
  rcases @approve_writes env request w with
    ⟨rejection, hwrites⟩ | ⟨w₁, approval, started, hwrites, horigin, hid, heq⟩
  · exact (Still.of_writes hwrites (by simp [Unheard])).silent
  · have happroving : Silent w w₁ := (Still.of_writes hwrites (by simp [Unheard])).silent
    rw [heq]
    exact happroving.suspends (by simp [horigin]) (Nat.le_of_eq hid.symm)

theorem silent_cancelTask (q : AsyncTaskQueue Ready) (taskId : String) (tenantId : Option String)
    (w : Runtime) : Silent w (cancelTask env now faults q taskId tenantId w) := by
  obtain ⟨event, hwrites, hevent⟩ := @cancelTask_writes env now faults q taskId tenantId w
  refine (Still.of_writes hwrites ?_).silent
  rcases hevent with ⟨rejection, rfl⟩ | ⟨queued, outcome, rfl⟩
  · simp [Unheard]
  · simp [Unheard]

theorem silent_onDeadLetter (job : QueueJob Ready) (deadLetter : DeadLetterRecord) (w : Runtime) :
    Silent w (onDeadLetter env now faults job deadLetter w).2 :=
  (Still.of_writes (onDeadLetter_writes job deadLetter w) (by simp)).silent

theorem silent_runJob (job : QueueJob Ready) (w : Runtime) : Silent w (runJob env now job w) := by
  have hnumbered : Silent w { w with nextCall := w.nextCall + 1 } :=
    .of_events [] rfl rfl (Nat.le_succ _) rfl (by simp)
  exact hnumbered.suspends (by simp) (Nat.le_refl _)

theorem silent_queueStep (s : World) {label : QueueLabel Ready} (hlabel : label.internal) :
    Silent s.outer (queueStep env faults s label).outer :=
  queueStep_keeps hlabel (.refl _) (fun job w h => h.trans (silent_runJob job w))
    fun job record w h => h.trans (silent_onDeadLetter job record w)

theorem silent_jobSettles (id : Nat) (s : World) :
    Silent s.outer (jobSettles env faults id s).outer := by
  unfold jobSettles
  split
  · exact .refl _
  · rename_i outcome _
    have hover : Silent s.outer
        { s.outer with settledRuns := s.outer.settledRuns.eraseP (·.1 == id) } :=
      .of_events [] rfl rfl (Nat.le_refl _) rfl (by simp)
    have hturn := @silent_queueStep env faults
      { s with outer := { s.outer with settledRuns := s.outer.settledRuns.eraseP (·.1 == id) } }
      (.settle id outcome faults.deadLetter) trivial
    exact hover.trans hturn

/-! ## The turn that makes a dispatch -/

section Submit

variable {w : Runtime} {call : Nat} {ready : Ready} {submitted : InvokeResult}

/-- A submission that answers at once, with what it has just stored. -/
structure AnswersAtOnce (w : Runtime) (call : Nat) (submission : Submission) (ready : Ready)
    (submitted : InvokeResult) (w' : Runtime) : Prop where
  before  : ∃ w₁, Still w w₁ ∧ w' = log (.answered call submitted) w₁
  created : createdEvent call submission ready ∈ w'.history

/-- A submission whose call comes to wait for the executor. -/
structure Executes (now : Millis) (w : Runtime) (ready : Ready) (submitted : InvokeResult)
    (call : Call) (w' : Runtime) : Prop where
  origin   : call.origin = .dispatch
  envelope : call.envelope = ready.envelope
  suspends : w' = suspend call
    (recorded now ready submitted (log (createdEvent call.id .sync ready) w))

/-- A submission answers nobody, answers its caller at once, or lets it wait. -/
theorem submits_answers {submission : Submission} {q : AsyncTaskQueue Ready}
    {s : AsyncTaskQueue Ready × Runtime}
    (h : Submits env now faults call ready submitted q w submission s) :
    Still w s.2 ∨ (submission ≠ .sync ∧ AnswersAtOnce w call submission ready submitted s.2) ∨
      (submission = .sync ∧
        Executes now w ready submitted (dispatchCall env call ready w) s.2) := by
  have hcreated : Still w
      (withReceipt faults submitted.receipt (entered now call submission ready submitted w)) :=
    .of_events [createdEvent call submission ready] rfl rfl (Nat.le_refl _) rfl
      (by simp [Unheard, createdEvent])
  cases h with
  | unchecked => exact .inl (.of_events [_] rfl rfl (Nat.le_refl _) rfl (by simp [Unheard]))
  | refused => exact .inl (.of_events [_] rfl rfl (Nat.le_refl _) rfl (by simp [Unheard]))
  | unsaved | unappended | unnotified =>
      exact .inl (.of_events [_, _] rfl rfl (Nat.le_refl _) rfl (by simp [Unheard, createdEvent]))
  | notified | queued =>
      exact .inr (.inl ⟨by simp, ⟨_, hcreated, rfl⟩, List.mem_cons_of_mem _ List.mem_cons_self⟩)
  | suspends => exact .inr (.inr ⟨rfl, rfl, rfl, rfl⟩)

end Submit

/-- **What the turn that makes a dispatch does to the callers**, by the plan. -/
inductive Made (now : Millis) (plan : Except String DispatchPlan) (w w' : Runtime) : Prop
  | still (h : Still w w')
  | found {outcome : InvokeResult} (hplan : plan = .ok (.stored (.answer outcome)))
      (h : w' = log (.answered w.nextCall outcome) { w with nextCall := w.nextCall + 1 })
  | waits {t : String} (hplan : plan = .ok (.stored (.wait t)))
      (h : w' = { w with
        nextCall := w.nextCall + 1
        waiters := w.waiters ++ [⟨w.nextCall, t, 1⟩] })
  | submitted {submission : Submission} {ready : Ready} {outcome : InvokeResult}
      (hplan : plan = .ok (.submit submission ready outcome)) (hlater : submission ≠ .sync)
      (h : AnswersAtOnce w w.nextCall submission ready outcome w')
  | executes {ready : Ready} {submitted : InvokeResult} {waiting : Call} {w₁ : Runtime}
      (hplan : plan = .ok (.submit .sync ready submitted)) (hid : waiting.id = w.nextCall)
      (hnumbered : w₁ = { w with nextCall := w.nextCall + 1, nextUuid := w.nextUuid + 2 })
      (h : Executes now w₁ ready submitted waiting w')

theorem dispatch_made (request : DispatchRequest) (q : AsyncTaskQueue Ready) (w : Runtime) :
    Made now (planDispatch env w.policy w.taskStore now (q.hasCapacity env.queueOptions) w.nextUuid
      request) w (dispatch env now faults request (q, w)).2 := by
  have hturn := dispatch_cases env now faults request q w
  generalize dispatch env now faults request (q, w) = s at hturn ⊢
  cases hturn with
  | rejected => exact .still (.of_events [_] rfl rfl (Nat.le_succ _) rfl (by simp [Unheard]))
  | found hplan => exact .found hplan rfl
  | waits hplan => exact .waits hplan rfl
  | submits hplan hsubmits =>
      have hnumbered : Still w (numbered w) :=
        .of_events [] rfl rfl (Nat.le_succ _) rfl (by simp)
      rcases submits_answers hsubmits with
        hstill | ⟨hlater, ⟨w₁, hbefore, heq⟩, hcreated⟩ | ⟨rfl, hexecutes⟩
      · exact .still (hnumbered.trans hstill)
      · exact .submitted hplan hlater ⟨⟨w₁, hnumbered.trans hbefore, heq⟩, hcreated⟩
      · exact .executes hplan rfl rfl hexecutes

/-- A dispatch uses up its number. -/
theorem nextCall_dispatch (request : DispatchRequest) (q : AsyncTaskQueue Ready) (w : Runtime) :
    w.nextCall < (dispatch env now faults request (q, w)).2.nextCall := by
  have hturn := dispatch_cases env now faults request q w
  generalize dispatch env now faults request (q, w) = s at hturn ⊢
  cases hturn with
  | rejected | found | waits => exact Nat.lt_succ_self _
  | submits _ hsubmits =>
      rcases submits_writes hsubmits with ⟨events, -, hwrites⟩ | ⟨-, w₁, hwrites, heq⟩
      · exact hwrites.nextCall
      · rw [heq]
        exact hwrites.nextCall

/-! ## The later turns

Resuming a call or looking at the store ends at most the caller with that number. -/

theorem find_waiter {id : Nat} {waiter : Waiter} (h : w.waiters.find? (·.id == id) = some waiter) :
    waiter ∈ w.waiters ∧ waiter.id = id :=
  ⟨List.mem_of_find?_eq_some h, by simpa using List.find?_some h⟩

section Resume

variable {w w' : Runtime} {id : Nat} {outcome : Except Rejection ExecutionResult}

/-- The call numbered `id` is over, and its end tells the callers nothing but what `events` say. -/
structure Over (w w' : Runtime) (id : Nat) (call : Call) (events : List Event) : Prop where
  found    : w.calls.find? (·.id == id) = some call
  calls    : w'.calls = w.calls.eraseP (·.id == id)
  waiters  : w'.waiters = w.waiters
  nextCall : w'.nextCall = w.nextCall
  history  : w'.history = events ++ w.history

/-- **What the end of a call tells the callers**: nothing, or the call's own outcome, which is on
record then. -/
inductive Ended (env : OrchestratorEnv) (now : Millis) (w : Runtime) (id : Nat)
    (outcome : Except Rejection ExecutionResult) (w' : Runtime) : Prop
  | absent (h : w' = w)
  | silent {call : Call} {events : List Event} (hover : Over w w' id call events)
      (hunheard : ∀ event ∈ events, Unheard event)
  | answered {call : Call} {coreResult : CoreResult} {normalized : InvokeResult}
      {record : TaskRecord} {events : List Event}
      (hover : Over w w' id call
        (.answered id (Origin.stamp call.origin normalized) :: events))
      (hunheard : ∀ event ∈ events, Unheard event)
      (harrives : Arrives env now w id outcome call coreResult normalized record)
      (hget : w'.taskStore.get call.envelope.taskId =
        some (revised record (Origin.stamp call.origin normalized) now))

/-- Whoever waits, waits on, and the records stay. -/
structure SameCallers (w w' : Runtime) : Prop where
  calls     : w'.calls = w.calls
  waiters   : w'.waiters = w.waiters
  nextCall  : w'.nextCall = w.nextCall
  taskStore : w'.taskStore = w.taskStore

theorem finish_cases (call : Call) (answer : Except Rejection InvokeResult) (w : Runtime) :
    SameCallers w (finish call answer w) ∧
      ∃ events, (finish call answer w).history = events ++ w.history ∧
        ((∀ event ∈ events, Unheard event) ∨
          ∃ result, answer = .ok result ∧ events = [.answered call.id result]) := by
  unfold finish
  split
  · exact ⟨⟨rfl, rfl, rfl, rfl⟩, [], rfl, .inl (by simp)⟩
  · exact ⟨⟨rfl, rfl, rfl, rfl⟩, [_], rfl, .inr ⟨_, rfl, rfl⟩⟩
  · exact ⟨⟨rfl, rfl, rfl, rfl⟩, [_], rfl, .inl (by simp [Unheard])⟩
  · exact ⟨⟨rfl, rfl, rfl, rfl⟩, [_], rfl, .inr ⟨_, rfl, rfl⟩⟩
  · exact ⟨⟨rfl, rfl, rfl, rfl⟩, [_], rfl, .inl (by simp [Unheard])⟩

/-- A call ends, after the events of its return. -/
theorem Over.of_finish {call : Call} {w₁ : Runtime} {events : List Event}
    (answer : Except Rejection InvokeResult) (hfound : w.calls.find? (·.id == id) = some call)
    (hcalls : w₁.calls = w.calls.eraseP (·.id == call.id)) (hwaiters : w₁.waiters = w.waiters)
    (hnext : w₁.nextCall = w.nextCall) (hhistory : w₁.history = events ++ w.history) :
    ∃ last, Over w (finish call answer w₁) id call (last ++ events) ∧
      ((∀ event ∈ last, Unheard event) ∨
        ∃ result, answer = .ok result ∧ last = [.answered id result]) := by
  obtain ⟨-, rfl⟩ := find_call hfound
  obtain ⟨hsame, last, hlast, hcases⟩ := finish_cases call answer w₁
  refine ⟨last, ⟨hfound, hsame.calls.trans hcalls, hsame.waiters.trans hwaiters,
    hsame.nextCall.trans hnext, ?_⟩, hcases⟩
  rw [hlast, hhistory, List.append_assoc]

theorem returned_unheard (env : OrchestratorEnv) (now : Millis) (uuid : Nat) (call : Call)
    (coreResult : CoreResult) :
    ∀ event ∈ returnedEvents env now uuid call coreResult, Unheard event := by
  cases coreResult <;> simp [returnedEvents, Unheard]

/-- A call that ends with a rejection. -/
theorem Ended.of_error {call : Call} {w₁ : Runtime} {e : Rejection} (events : List Event)
    (hfound : w.calls.find? (·.id == id) = some call)
    (hcalls : w₁.calls = w.calls.eraseP (·.id == call.id)) (hwaiters : w₁.waiters = w.waiters)
    (hnext : w₁.nextCall = w.nextCall) (hhistory : w₁.history = events ++ w.history)
    (hunheard : ∀ event ∈ events, Unheard event) :
    Ended env now w id outcome (finish call (.error e) w₁) := by
  obtain ⟨last, hover, hcases⟩ :=
    Over.of_finish (.error e) hfound hcalls hwaiters hnext hhistory
  refine .silent hover fun event hevent => ?_
  rcases List.mem_append.mp hevent with hlast | hold
  · rcases hcases with hquiet | ⟨result, hresult, -⟩
    · exact hquiet event hlast
    · cases hresult
  · exact hunheard event hold

theorem resume_ended (h : Ledger env w) (id : Nat) (outcome : Except Rejection ExecutionResult) :
    Ended env now w id outcome (resume env now faults id outcome w) := by
  have hresumed : Resumed env now faults w id outcome (resume env now faults id outcome w) :=
    resume_cases h id outcome
  generalize resume env now faults id outcome w = w' at hresumed
  cases hresumed with
  | absent => exact .absent rfl
  | rejected hfound =>
      obtain ⟨-, rfl⟩ := find_call hfound
      exact .of_error [] hfound rfl rfl rfl rfl (by simp)
  | refused harrives =>
      exact .of_error _ harrives.found rfl rfl rfl rfl (returned_unheard _ _ _ _ _)
  | unsaved harrives =>
      exact .of_error _ harrives.found rfl rfl rfl rfl (returned_unheard _ _ _ _ _)
  | @saved call coreResult normalized record harrives haccepts =>
      obtain ⟨last, hover, hcases⟩ := @Over.of_finish w id call
        (withReceipt faults (Origin.stamp call.origin normalized).receipt
          (offered env now faults call coreResult normalized w)) _
        (((w.receiptStore.append faults.append
          (Origin.stamp call.origin normalized).receipt).1.mapError some).map
            fun _ => Origin.stamp call.origin normalized) harrives.found rfl rfl rfl rfl
      have hreturned := returned_unheard env now w.nextUuid call coreResult
      rcases hcases with hquiet | ⟨result, hresult, rfl⟩
      · refine .silent hover fun event hevent => ?_
        rcases List.mem_append.mp hevent with hlast | hold
        · exact hquiet event hlast
        · exact hreturned event hold
      · obtain ⟨_, -, rfl⟩ := map_eq_ok.mp hresult
        -- the receipt was appended, so the answer is the one on record
        refine .answered hover hreturned harrives ?_
        rw [(finish_cases _ _ _).1.taskStore]
        exact get_offered harrives haccepts

end Resume

/-- **What a turn does to the callers.** -/
inductive Turn (env : OrchestratorEnv) (s : World) (l : Label) : Prop
  | silent (hlabel : ∀ id outcome faults, l ≠ .resume id outcome faults)
      (h : Silent s.outer (step env s l).outer)
  | made {request : DispatchRequest} {faults : Faults} (hlabel : l = .dispatch request faults)
      (h : Made s.now (planDispatch env s.outer.policy s.outer.taskStore s.now
        (s.queue.hasCapacity env.queueOptions) s.outer.nextUuid request) s.outer
          (step env s l).outer)
  | polled {id : Nat} (hlabel : l = .poll id) (h : Polled s.outer id (step env s l).outer)
  | ended {id : Nat} {outcome : Except Rejection ExecutionResult} {faults : Faults}
      (hlabel : l = .resume id outcome faults)
      (h : Ended env s.now s.outer id outcome (step env s l).outer)

theorem step_turn (h : WorldLedger env s) (l : Label) : Turn env s l := by
  cases l with
  | dispatch request faults => exact .made rfl (dispatch_made request s.queue s.outer)
  | approve request => exact .silent (by simp) (silent_approve request s.outer)
  | cancelTask taskId tenantId faults =>
      exact .silent (by simp) (silent_cancelTask s.queue taskId tenantId s.outer)
  | setPolicy policy =>
      exact .silent (by simp) (.of_events [] rfl rfl (Nat.le_refl _) rfl (by simp))
  | resume id outcome faults => exact .ended rfl (resume_ended h.ledger id outcome)
  | poll id => exact .polled rfl (poll_polled id s.outer)
  | jobSettles id faults => exact .silent (by simp) (silent_jobSettles id s)
  | queue turn faults =>
      exact .silent (by simp) (silent_queueStep s (QueueTurn.internal faults.deadLetter turn))
  | tick ms => exact .silent (by simp) (@silent_queueStep env {} s (.tick ms) trivial)

/-! ## The records' results

Answers are read off the records, so they name the task that the record is about. -/

/-- The result of a record names its task. -/
def ResultsNamed (w : Runtime) : Prop :=
  ∀ t record, w.taskStore.get t = some record → ∀ result, record.result = some result →
    result.taskId = t

theorem ResultsNamed.writes (hledger : Ledger env w) (h : ResultsNamed w) {fault : Option String}
    {t : String} {outcome : InvokeResult}
    (hstore : w'.taskStore = (w.taskStore.update now fault t (outcomeUpdate outcome)).2) :
    ResultsNamed w' := by
  intro t' record hget result hresult
  rw [hstore] at hget
  rcases get_update_outcome hget with hold | ⟨old, rfl, hold, haccepts, rfl⟩
  · exact h t' record hold result hresult
  · cases hresult
    rw [haccepts.result, (hledger.records _ _ hold).taskId]

theorem resultsNamed_move {g : Guard} (hledger : Ledger env w) (h : ResultsNamed w)
    (hm : Move env g now w w') : ResultsNamed w' := by
  cases hm with
  | bookkeeping _ _ htasks =>
      unfold ResultsNamed
      rw [htasks]
      exact h
  | @created _ _ _ _ ready _ hplanned =>
      intro t record hget result hresult
      have hget' : (w.taskStore.insert _).get t = some record := hget
      rw [TaskStore.get_insert] at hget'
      split at hget'
      · rename_i ht
        cases hget'
        cases hresult
        exact hplanned.taskId.trans ht
      · exact h t record hget' result hresult
  | withdrawn _ _ _ htasks =>
      intro t record hget
      -- the store is the one before the task
      unfold TaskStore.get at hget
      dsimp only at hget
      rw [htasks] at hget
      exact h t record hget
  | settled => exact h.writes hledger rfl
  | deadLettered => exact h.writes hledger rfl
  | cancelled => exact h.writes hledger rfl
  | threw => exact h
  | answered => exact h
  | appended => exact h
  | suspended => exact h
  | approved => exact h
  | policySet => exact h

theorem resultsNamed_step (hledger : WorldLedger env s) (h : ResultsNamed s.outer) (l : Label) :
    ResultsNamed (step env s l).outer :=
  moves_invariant (fun _ _ _ hw hn hm => resultsNamed_move hw hn hm) hledger.ledger h
    (step_moves hledger (allowed_any env s l)).1

theorem init_resultsNamed (env : OrchestratorEnv) (policy : PolicyDocument)
    (deadLetters : List DeadLetterRecord) (now : Millis) :
    ResultsNamed (init env policy deadLetters now).outer := by
  intro t record hget
  rw [init_get] at hget
  cases hget

theorem run_resultsNamed {s : World} (hledger : WorldLedger env s) (h : ResultsNamed s.outer)
    (ls : List Label) : ResultsNamed (run env s ls).outer :=
  (run_of_moves (g := .any) (fun _ _ _ hw hn hm => resultsNamed_move hw hn hm) hledger h
    (Transition.stepsMeet_of_forall (allowed_any env) s ls)).2

/-! ## What a call is about

A number is drawn by one call, and the turn that draws it settles its task. What follows only
repeats it. -/

/-- The call numbered `k` has to do with the task `t`: it waits for it, executes it, or was answered
with its result. -/
inductive About (w : Runtime) (k : Nat) (t : String) : Prop
  | waits {waiter : Waiter} (hwaiter : waiter ∈ w.waiters) (hid : waiter.id = k)
      (htask : waiter.taskId = t)
  | runs {call : Call} (hcall : call ∈ w.calls) (hid : call.id = k)
      (htask : call.envelope.taskId = t)
  | answered {outcome : InvokeResult} (hanswered : .answered k outcome ∈ w.history)
      (htask : outcome.result.taskId = t)

section About

variable {w w' : Runtime} {k : Nat} {t : String}
variable {s : World} {id : Nat}

theorem About.of_subset (hwaiters : w'.waiters ⊆ w.waiters) (hcalls : w'.calls ⊆ w.calls)
    (hanswers : ∀ outcome, .answered k outcome ∈ w'.history → .answered k outcome ∈ w.history)
    (h : About w' k t) : About w k t := by
  cases h with
  | waits hwaiter hid htask => exact .waits (hwaiters hwaiter) hid htask
  | runs hcall hid htask => exact .runs (hcalls hcall) hid htask
  | answered hanswered htask => exact .answered (hanswers _ hanswered) htask

theorem answered_of_unheard {events : List Event} (h : ∀ event ∈ events, Unheard event)
    {outcome : InvokeResult} (hmem : .answered k outcome ∈ events ++ w.history) :
    .answered k outcome ∈ w.history := by
  rcases List.mem_append.mp hmem with hnew | hold
  · exact absurd (h _ hnew) id
  · exact hold

theorem Silent.about (hs : Silent w w') (hk : k < w.nextCall) (h : About w' k t) :
    About w k t := by
  obtain ⟨started, hcalls, hnew⟩ := hs.calls
  obtain ⟨events, hevents, hunheard⟩ := hs.history
  cases h with
  | waits hwaiter hid htask => exact .waits (hs.waiters ▸ hwaiter) hid htask
  | @runs call hcall hid htask =>
      rw [hcalls] at hcall
      rcases List.mem_append.mp hcall with hold | hstarted
      · exact .runs hold hid htask
      · have hlater := (hnew call hstarted).2
        omega
  | answered hanswered htask =>
      rw [hevents] at hanswered
      exact .answered (answered_of_unheard hunheard hanswered) htask

theorem About.of_log {j : Nat} {outcome : InvokeResult}
    (h : About (log (.answered j outcome) w) k t) :
    About w k t ∨ k = j ∧ outcome.result.taskId = t := by
  cases h with
  | waits hwaiter hid htask => exact .inl (.waits hwaiter hid htask)
  | runs hcall hid htask => exact .inl (.runs hcall hid htask)
  | answered hanswered htask =>
      rcases List.mem_cons.mp hanswered with hnew | hold
      · cases hnew
        exact .inr ⟨rfl, htask⟩
      · exact .inl (.answered hold htask)

theorem About.of_suspend {call : Call} (h : About (suspend call w) k t) :
    About w k t ∨ k = call.id ∧ call.envelope.taskId = t := by
  cases h with
  | waits hwaiter hid htask => exact .inl (.waits hwaiter hid htask)
  | runs hcall hid htask =>
      rcases List.mem_append.mp hcall with hold | hnew
      · exact .inl (.runs hold hid htask)
      · rw [List.mem_singleton.mp hnew] at hid htask
        exact .inr ⟨hid.symm, htask⟩
  | answered hanswered htask =>
      rcases suspend_logged hanswered with hold | ⟨_, _, heq⟩
      · exact .inl (.answered hold htask)
      · cases heq

theorem not_about_next (h : WorldLedger env s) : ¬ About s.outer s.outer.nextCall t := by
  rintro (⟨hwaiter, hid, -⟩ | ⟨hcall, hid, -⟩ | ⟨hanswered, -⟩)
  · have hlt := h.waiters _ hwaiter
    omega
  · have hlt := (h.ledger.calls _ hcall).2
    omega
  · have hlt := h.ledger.numbered _ hanswered _ rfl
    omega

def Stored.taskId : Stored → String
  | .answer outcome => outcome.result.taskId
  | .wait taskId    => taskId

theorem stored_taskId (h : Ledger env w) (hnamed : ResultsNamed w) {t : String}
    {record : TaskRecord} {stored : Stored} (hget : w.taskStore.get t = some record)
    (hstored : storedAnswer record = some stored) : stored.taskId = record.taskId := by
  have hid := (h.records t record hget).taskId
  cases stored with
  | answer outcome =>
      rw [hid]
      exact hnamed t record hget _ (storedAnswer_answer hstored).1
  | wait taskId =>
      unfold storedAnswer at hstored
      split at hstored
      · split at hstored
        · cases hstored
          rfl
        · cases hstored
      · cases hstored

/-- **What a dispatch is about when it is made**: the stored task that answers it, or the task that
it creates. -/
inductive Starts (plan : Except String DispatchPlan) (w w' : Runtime) (t : String) : Prop
  | found {stored : Stored} (hplan : plan = .ok (.stored stored)) (htask : stored.taskId = t)
  | creates {submission : Submission} {ready : Ready} {submitted : InvokeResult}
      (hplan : plan = .ok (.submit submission ready submitted)) (htask : ready.envelope.taskId = t)
      (hcreated : createdEvent w.nextCall submission ready ∈ w'.history)

theorem Still.about (hs : Still w w') (h : About w' k t) : About w k t := by
  obtain ⟨events, hevents, hunheard⟩ := hs.history
  refine h.of_subset (fun _ hmem => hs.waiters ▸ hmem) (fun _ hmem => hs.calls ▸ hmem) ?_
  intro outcome hanswered
  rw [hevents] at hanswered
  exact answered_of_unheard hunheard hanswered

/-- The turn of a dispatch settles what it is about, and nothing else. -/
theorem Made.about {plan : Except String DispatchPlan} (hm : Made now plan w w')
    (hnamed : ∀ submission ready submitted, plan = .ok (.submit submission ready submitted) →
      submitted.result.taskId = ready.envelope.taskId) (h : About w' k t) :
    About w k t ∨ k = w.nextCall ∧ Starts plan w w' t := by
  cases hm with
  | still hstill => exact .inl (hstill.about h)
  | @found outcome hplan heq =>
      rw [heq] at h
      rcases h.of_log with hold | ⟨hk, htask⟩
      · refine .inl (About.of_subset ?_ ?_ ?_ hold)
        · exact fun _ hmem => hmem
        · exact fun _ hmem => hmem
        · exact fun _ hmem => hmem
      · exact .inr ⟨hk, .found hplan htask⟩
  | @waits t' hplan heq =>
      rw [heq] at h
      cases h with
      | waits hwaiter hid htask =>
          rcases List.mem_append.mp hwaiter with hold | hnew
          · exact .inl (.waits hold hid htask)
          · rw [List.mem_singleton.mp hnew] at hid htask
            exact .inr ⟨hid.symm, .found hplan htask⟩
      | runs hcall hid htask => exact .inl (.runs hcall hid htask)
      | answered hanswered htask => exact .inl (.answered hanswered htask)
  | submitted hplan _ hanswers =>
      obtain ⟨w₁, hstill, heq⟩ := hanswers.before
      rw [heq] at h
      rcases h.of_log with hold | ⟨hk, htask⟩
      · exact .inl (hstill.about hold)
      · exact .inr ⟨hk, .creates hplan ((hnamed _ _ _ hplan).symm.trans htask) hanswers.created⟩
  | @executes ready submitted waiting w₁ hplan hid hnumbered hexecutes =>
      -- the task is created before its adapter is called
      have hcreated : createdEvent w.nextCall .sync ready ∈ w'.history := by
        obtain ⟨last, hlast, -, -⟩ := suspend_logs waiting
          (recorded now ready submitted (log (createdEvent waiting.id .sync ready) w₁))
        rw [hexecutes.suspends, hlast, ← hid]
        exact List.mem_append_right _ List.mem_cons_self
      rw [hexecutes.suspends] at h
      rcases h.of_suspend with hold | ⟨hk, htask⟩
      · subst hnumbered
        refine .inl (About.of_subset ?_ ?_ ?_ hold)
        · exact fun _ hmem => hmem
        · exact fun _ hmem => hmem
        · exact fun outcome hmem => List.mem_of_ne_of_mem (by simp [createdEvent]) hmem
      · rw [hexecutes.envelope] at htask
        exact .inr ⟨hk.trans hid, .creates hplan htask hcreated⟩

/-- A look at the store settles nothing new. -/
theorem Polled.about (hnamed : ResultsNamed w) (hp : Polled w id w') (h : About w' k t) :
    About w k t := by
  have hover : ∀ {w'' : Runtime}, w'' = { w with waiters := w.waiters.eraseP (·.id == id) } →
      About w'' k t → About w k t := by
    rintro w'' rfl habout
    refine About.of_subset ?_ ?_ ?_ habout
    · exact List.eraseP_subset
    · exact fun _ hmem => hmem
    · exact fun _ hmem => hmem
  cases hp with
  | absent => exact h
  | timedOut hfound =>
      refine About.of_subset ?_ ?_ ?_ h
      · exact List.eraseP_subset
      · exact fun _ hmem => hmem
      · exact fun outcome hmem => List.mem_of_ne_of_mem (by simp) hmem
  | @answered waiter record outcome hfound hget hstored =>
      rcases h.of_log with hold | ⟨rfl, htask⟩
      · exact hover rfl hold
      · obtain ⟨hwaiter, hid⟩ := find_waiter hfound
        refine .waits hwaiter hid ?_
        -- a stored result names its task
        rw [← htask]
        exact (hnamed _ _ hget _ (storedAnswer_answer hstored).1).symm
  | waits hfound =>
      obtain ⟨hwaiter, hid⟩ := find_waiter hfound
      cases h with
      | waits hwaiter' hid' htask =>
          rcases List.mem_append.mp hwaiter' with hold | hnew
          · exact .waits (List.eraseP_subset hold) hid' htask
          · rw [List.mem_singleton.mp hnew] at hid' htask
            exact .waits hwaiter hid' htask
      | runs hcall hid htask => exact .runs hcall hid htask
      | answered hanswered htask => exact .answered hanswered htask

theorem Arrives.result_taskId {outcome : Except Rejection ExecutionResult} {call : Call}
    {coreResult : CoreResult} {normalized : InvokeResult} {record : TaskRecord}
    (h : Arrives env now w id outcome call coreResult normalized record) :
    (Origin.stamp call.origin normalized).result.taskId = call.envelope.taskId := by
  rw [Origin.stamp_result, (normalizeCoreResult_eq_ok.mp h.normalized).1]
  cases coreResult <;> rfl

/-- Nor does the end of a call: its outcome is about its own task. -/
theorem Ended.about {outcome : Except Rejection ExecutionResult}
    (he : Ended env now w id outcome w') (h : About w' k t) : About w k t := by
  have hover : ∀ {call : Call} {events : List Event}, Over w w' id call events →
      (∀ outcome, .answered k outcome ∈ events ++ w.history → outcome.result.taskId = t →
        About w k t) → About w k t := by
    intro call events hend hanswers
    cases h with
    | waits hwaiter hid htask => exact .waits (hend.waiters ▸ hwaiter) hid htask
    | runs hcall hid htask =>
        rw [hend.calls] at hcall
        exact .runs (List.mem_of_mem_eraseP hcall) hid htask
    | answered hanswered htask =>
        rw [hend.history] at hanswered
        exact hanswers _ hanswered htask
  cases he with
  | absent heq => exact heq ▸ h
  | silent hend hunheard =>
      exact hover hend fun outcome hmem htask => .answered (answered_of_unheard hunheard hmem) htask
  | @answered call coreResult normalized record events hend hunheard harrives hget =>
      obtain ⟨hcall, hid⟩ := find_call hend.found
      refine hover hend fun outcome hmem htask => ?_
      rcases List.mem_cons.mp hmem with hnew | hold
      · cases hnew
        exact .runs hcall hid (harrives.result_taskId.symm.trans htask)
      · exact .answered (answered_of_unheard hunheard hold) htask

/-- **A later turn changes nothing** about what a call is about. -/
theorem about_step (hledger : WorldLedger env s) (hnamed : ResultsNamed s.outer) {l : Label}
    (hk : k < s.outer.nextCall) (h : About (step env s l).outer k t) :
    About s.outer k t := by
  cases step_turn hledger l with
  | silent _ hsilent => exact hsilent.about hk h
  | made hlabel hmade =>
      rcases hmade.about (fun _ _ _ hplan => (planDispatch_submit hplan).taskId) h with
        hold | ⟨hnext, -⟩
      · exact hold
      · omega
  | polled hlabel hpolled => exact hpolled.about hnamed h
  | ended hlabel hended => exact hended.about h

theorem about_run (hledger : WorldLedger env s) (hnamed : ResultsNamed s.outer) (ls : List Label)
    (hk : k < s.outer.nextCall) (h : About (run env s ls).outer k t) :
    About s.outer k t := by
  induction ls generalizing s with
  | nil => exact h
  | cons l ls ih =>
      obtain ⟨hmoves, hledger'⟩ := step_moves hledger (allowed_any env s l)
      refine about_step hledger hnamed hk (ih hledger' (resultsNamed_step hledger hnamed l) ?_ h)
      exact Nat.lt_of_lt_of_le hk (moves_nextCall_le hmoves)

/-- **What a dispatch is about**, at any later moment of a run. -/
theorem about_dispatch (hledger : WorldLedger env s) (hnamed : ResultsNamed s.outer)
    {request : DispatchRequest} (ls : List Label)
    (h : About (run env s (.dispatch request faults :: ls)).outer s.outer.nextCall t) :
    Starts (planDispatch env s.outer.policy s.outer.taskStore s.now
      (s.queue.hasCapacity env.queueOptions) s.outer.nextUuid request) s.outer
        (step env s (.dispatch request faults)).outer t := by
  have hledger' := (step_moves hledger (allowed_any env s (.dispatch request faults))).2
  have hfirst : About (step env s (.dispatch request faults)).outer s.outer.nextCall t :=
    about_run hledger' (resultsNamed_step hledger hnamed _) ls (nextCall_dispatch _ _ _) h
  rcases (dispatch_made request s.queue s.outer).about
      (fun _ _ _ hplan => (planDispatch_submit hplan).taskId) hfirst with hold | ⟨-, hstarts⟩
  · exact absurd hold (not_about_next hledger)
  · exact hstarts

end About

end Orchestrator

end MapProtocol
