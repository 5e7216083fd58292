import MapProtocol.ControlPlane.Answers

/-!
# Every caller is answered once

A caller of `dispatch` or `approve` holds a number. What the runtime keeps under that number is its
`Ticket`: the suspended call, the wait for a stored task, the verdict that was given. A ticket that
`Stands` is in one of these three places and in no other. The turn that makes the call issues a
standing ticket (`Takes`); a later turn either does not concern the ticket or moves it on, and a
ticket never leaves its verdict.

The executor's answer settles a suspended call at once. A wait for a stored task ends after 200
looks, whatever the store holds by then.
-/

namespace MapProtocol

open Js

namespace Orchestrator

variable {env : OrchestratorEnv} {now : Millis} {faults : Faults} {w w' : Runtime} {k : Nat}
variable {notes events : List Event} {verdict : Event} {n : Nat} {call : Call} {s : World}
  {l : Label} {t : Ticket}

/-! ## Tickets

All that a runtime knows of a caller, by its number: its calls, its looks and its verdicts. -/

/-- The caller numbered `k` gets its answer or its rejection. -/
def isVerdictOn (k : Nat) : Event → Bool
  | .answered call _  => call == k
  | .threw call _ _ _ => call == k
  | _                 => false

/-- What the runtime keeps under one number. -/
structure Ticket where
  calls    : List Call
  waiters  : List Waiter
  verdicts : List Event

def ticket (w : Runtime) (k : Nat) : Ticket where
  calls := w.calls.filter (·.id == k)
  waiters := w.waiters.filter (·.id == k)
  verdicts := w.history.filter (isVerdictOn k)

/-- The caller is in one place. -/
inductive Ticket.Stands (k : Nat) : Ticket → Prop
  | suspended {call : Call} (hid : call.id = k) (horigin : ∀ job, call.origin ≠ .job job) :
      Stands k ⟨[call], [], []⟩
  | waiting {waiter : Waiter} (hid : waiter.id = k) (hlooked : 0 < waiter.checks)
      (hchecks : waiter.checks ≤ 200) :
      Stands k ⟨[], [waiter], []⟩
  | settled {verdict : Event} (hverdict : isVerdictOn k verdict = true) :
      Stands k ⟨[], [], [verdict]⟩

@[simp] theorem isVerdictOn_answered (n : Nat) (outcome : InvokeResult) :
    isVerdictOn n (.answered n outcome) = true :=
  beq_self_eq_true n

@[simp] theorem isVerdictOn_threw (n : Nat) (method : Method) (t : String) (rejection : Rejection) :
    isVerdictOn n (.threw n method t rejection) = true :=
  beq_self_eq_true n

theorem eventCall_of_isVerdictOn {event : Event} (h : isVerdictOn k event = true) :
    eventCall event = some k := by
  cases event with
  | answered call outcome => exact congrArg some (beq_iff_eq.mp h)
  | threw call method taskId rejection => exact congrArg some (beq_iff_eq.mp h)
  | created call submission envelope capability => cases h
  | approving call approval => cases h
  | executed call origin taskId intent policy => cases h
  | returned call origin taskId status receiptId => cases h
  | cancelled taskId queued outcome => cases h

theorem isVerdictOn_unique {j : Nat} {event : Event} (hj : isVerdictOn j event = true)
    (hk : isVerdictOn k event = true) : j = k :=
  Option.some.inj ((eventCall_of_isVerdictOn hj).symm.trans (eventCall_of_isVerdictOn hk))

def Note (event : Event) : Prop := ∀ k, isVerdictOn k event = false

theorem note_nil : ∀ event ∈ ([] : List Event), Note event := by simp

theorem filter_notes (h : ∀ event ∈ notes, Note event) (k : Nat) :
    notes.filter (isVerdictOn k) = [] := by
  rw [List.filter_eq_nil_iff]
  intro event hevent
  rw [h event hevent k]
  exact Bool.false_ne_true

/-! ## What a turn tells -/

/-- The turn logs the events and moves no caller. -/
structure Tells (events : List Event) (w w' : Runtime) : Prop where
  calls   : w'.calls = w.calls
  waiters : w'.waiters = w.waiters
  history : w'.history = events ++ w.history

theorem Writes.tells (h : Writes events w w') : Tells events w w' :=
  ⟨h.calls, h.waiters, h.history⟩

theorem Tells.ticket_eq (h : Tells events w w') (k : Nat) :
    ticket w' k =
      { ticket w k with verdicts := events.filter (isVerdictOn k) ++ (ticket w k).verdicts } := by
  unfold ticket
  rw [h.calls, h.waiters, h.history, List.filter_append]

theorem Tells.leaves (h : Tells notes w w') (hnotes : ∀ event ∈ notes, Note event) (k : Nat) :
    ticket w' k = ticket w k := by
  rw [h.ticket_eq, filter_notes hnotes]
  rfl

theorem Tells.leaves_of_ne (h : Tells (verdict :: notes) w w')
    (hverdict : isVerdictOn n verdict = true) (hnotes : ∀ event ∈ notes, Note event) (hk : n ≠ k) :
    ticket w' k = ticket w k := by
  have hother : ¬ isVerdictOn k verdict = true := fun h => hk (isVerdictOn_unique hverdict h)
  rw [h.ticket_eq, List.filter_cons_of_neg hother, filter_notes hnotes]
  rfl

theorem Tells.settles (h : Tells (verdict :: notes) w w') (hverdict : isVerdictOn n verdict = true)
    (hnotes : ∀ event ∈ notes, Note event) :
    ticket w' n =
      { ticket w n with verdicts := verdict :: (ticket w n).verdicts } := by
  rw [h.ticket_eq, List.filter_cons_of_pos hverdict, filter_notes hnotes]
  rfl

theorem ticket_suspend (call : Call) (w : Runtime) (k : Nat) :
    ticket (suspend call w) k =
      { ticket w k with calls := (ticket w k).calls ++ [call].filter (·.id == k) } := by
  obtain ⟨events, hhistory, -, hevents⟩ := suspend_logs call w
  have hnotes : ∀ event ∈ events, Note event := by
    intro event hevent
    obtain ⟨intent, context, -, rfl⟩ := hevents event hevent
    exact fun _ => rfl
  have hcalls : (suspend call w).calls = w.calls ++ [call] := rfl
  have hwaiters : (suspend call w).waiters = w.waiters := rfl
  unfold ticket
  rw [hcalls, hwaiters, hhistory, List.filter_append, List.filter_append, filter_notes hnotes]
  rfl

/-! ## The turn that makes a call

A method that answers at once has a verdict in the turn in which its number is drawn. -/

/-- **What a call numbered `n` does up to its first wait.** -/
inductive Takes (n : Nat) (w w' : Runtime) : Prop
  | told {verdict : Event} {notes : List Event} (hverdict : isVerdictOn n verdict = true)
      (hnotes : ∀ event ∈ notes, Note event) (h : Tells (verdict :: notes) w w')
  | suspends {call : Call} {w₁ : Runtime} {notes : List Event} (hid : call.id = n)
      (horigin : ∀ job, call.origin ≠ .job job) (hnotes : ∀ event ∈ notes, Note event)
      (hbefore : Tells notes w w₁) (h : w' = suspend call w₁)
  | waits {t : String} (hcalls : w'.calls = w.calls) (hhistory : w'.history = w.history)
      (h : w'.waiters = w.waiters ++ [⟨n, t, 1⟩])

theorem Takes.leaves (h : Takes n w w') (hk : n ≠ k) : ticket w' k = ticket w k := by
  cases h with
  | told hverdict hnotes htells => exact htells.leaves_of_ne hverdict hnotes hk
  | @suspends call w₁ notes hid _ hnotes hbefore heq =>
      have hother : [call].filter (·.id == k) = [] := by
        rw [List.filter_cons_of_neg (by simp [hid, hk]), List.filter_nil]
      rw [heq, ticket_suspend, hbefore.leaves hnotes, hother, List.append_nil]
  | waits hcalls hhistory hwaiters =>
      unfold ticket
      rw [hcalls, hhistory, hwaiters, List.filter_append,
        List.filter_cons_of_neg (by simp [hk]), List.filter_nil, List.append_nil]

theorem Takes.stands (h : Takes n w w') (hfresh : ticket w n = ⟨[], [], []⟩) :
    (ticket w' n).Stands n := by
  cases h with
  | told hverdict hnotes htells =>
      rw [htells.settles hverdict hnotes, hfresh]
      exact .settled hverdict
  | @suspends call w₁ notes hid horigin hnotes hbefore heq =>
      rw [heq, ticket_suspend, hbefore.leaves hnotes, hfresh,
        List.filter_cons_of_pos (by simp [hid]), List.filter_nil]
      exact .suspended hid horigin
  | @waits t hcalls hhistory hwaiters =>
      have hticket : ticket w' n = ⟨[], [⟨n, t, 1⟩], []⟩ := by
        unfold ticket at hfresh ⊢
        obtain ⟨hcalls', hwaiters', hverdicts'⟩ := Ticket.mk.inj hfresh
        rw [hcalls, hhistory, hwaiters, List.filter_append, hcalls', hwaiters', hverdicts',
          List.filter_cons_of_pos (by simp), List.filter_nil, List.nil_append]
      rw [hticket]
      exact .waiting rfl Nat.one_pos (Nat.le_of_ble_eq_true rfl)

theorem Takes.of_same {w₀ : Runtime} (h : Takes n w w') (hsame : Tells [] w₀ w) :
    Takes n w₀ w' := by
  have hbefore : ∀ {events : List Event} {w₁ : Runtime}, Tells events w w₁ → Tells events w₀ w₁ :=
    fun htells => ⟨htells.calls.trans hsame.calls, htells.waiters.trans hsame.waiters,
      by rw [htells.history, hsame.history, List.nil_append]⟩
  cases h with
  | told hverdict hnotes htells => exact .told hverdict hnotes (hbefore htells)
  | suspends hid horigin hnotes htells heq =>
      exact .suspends hid horigin hnotes (hbefore htells) heq
  | waits hcalls hhistory hwaiters =>
      exact .waits (hcalls.trans hsame.calls) (hhistory.trans hsame.history)
        (hwaiters.trans (by rw [hsame.waiters]))

theorem Takes.answers {outcome : InvokeResult} (hnotes : ∀ event ∈ notes, Note event)
    (h : Tells (.answered n outcome :: notes) w w') :
    Takes n w w' :=
  .told (isVerdictOn_answered n outcome) hnotes h

theorem Takes.throws {method : Method} {t : String} {rejection : Rejection}
    (hnotes : ∀ event ∈ notes, Note event) (h : Tells (.threw n method t rejection :: notes) w w') :
    Takes n w w' :=
  .told (isVerdictOn_threw n method t rejection) hnotes h

section Submit

variable {call : Nat} {ready : Ready} {submitted : InvokeResult}

theorem note_created (call : Nat) (submission : Submission) (ready : Ready) :
    ∀ event ∈ [createdEvent call submission ready], Note event := by
  intro event hevent
  rw [List.mem_singleton.mp hevent]
  exact fun _ => rfl

theorem takes_of_writes {submission : Submission} {events : List Event}
    (hsubmitted : Submitted call submission ready submitted events) (h : Writes events w w') :
    Takes call w w' := by
  cases hsubmitted with
  | refused message => exact .throws note_nil h.tells
  | failed message => exact .throws (note_created call submission ready) h.tells
  | answered => exact .answers (note_created call submission ready) h.tells

theorem submits_takes {submission : Submission} {q : AsyncTaskQueue Ready}
    {s : AsyncTaskQueue Ready × Runtime}
    (h : Submits env now faults call ready submitted q w submission s) : Takes call w s.2 := by
  rcases submits_writes h with ⟨events, hsubmitted, hwrites⟩ | ⟨-, w₁, hwrites, heq⟩
  · exact takes_of_writes hsubmitted hwrites
  · exact .suspends rfl (by simp [dispatchCall]) (note_created call .sync ready) hwrites.tells heq

end Submit

theorem dispatch_takes (request : DispatchRequest) (q : AsyncTaskQueue Ready) (w : Runtime) :
    Takes w.nextCall w (dispatch env now faults request (q, w)).2 := by
  have hturn := dispatch_cases env now faults request q w
  generalize dispatch env now faults request (q, w) = s at hturn ⊢
  cases hturn with
  | rejected => exact .throws note_nil ⟨rfl, rfl, rfl⟩
  | found => exact .answers note_nil ⟨rfl, rfl, rfl⟩
  | waits => exact .waits rfl rfl rfl
  | submits _ hsubmits =>
      have hnumbered : Tells [] w (numbered w) := ⟨rfl, rfl, rfl⟩
      exact (submits_takes hsubmits).of_same hnumbered

theorem approve_takes (request : ApprovalRequest) (w : Runtime) :
    Takes w.nextCall w (approve env request w) := by
  rcases @approve_writes env request w with
    ⟨rejection, hwrites⟩ | ⟨w₁, approval, started, hwrites, horigin, hid, heq⟩
  · exact .throws note_nil hwrites.tells
  · exact .suspends hid (by simp [horigin]) (by simp [Note, isVerdictOn]) hwrites.tells heq

/-! ## The later turns

A caller that waits is in no other place, so what ends one call leaves the other tickets alone. -/

theorem filter_eraseP {α : Type*} (p : α → Bool) (l : List α) :
    (l.eraseP p).filter p = (l.filter p).tail := by
  induction l with
  | nil => rfl
  | cons a l ih =>
      by_cases ha : p a = true
      · rw [List.eraseP_cons_of_pos ha, List.filter_cons_of_pos ha, List.tail_cons]
      · rw [List.eraseP_cons_of_neg ha, List.filter_cons_of_neg ha, List.filter_cons_of_neg ha, ih]

theorem filter_eraseP_of_disjoint {α : Type*} {p q : α → Bool} (l : List α)
    (h : ∀ a, q a = true → ¬ p a = true) : (l.eraseP q).filter p = l.filter p := by
  induction l with
  | nil => rfl
  | cons a l ih =>
      by_cases ha : q a = true
      · rw [List.eraseP_cons_of_pos ha, List.filter_cons_of_neg (h a ha)]
      · rw [List.eraseP_cons_of_neg ha, List.filter_cons, List.filter_cons, ih]

/-- The end of a caller's call: the verdict is the one event that is no note. -/
theorem finish_tells (horigin : ∀ job, call.origin ≠ .job job)
    (outcome : Except Rejection InvokeResult) (w : Runtime) :
    ∃ verdict, isVerdictOn call.id verdict = true ∧ Tells [verdict] w (finish call outcome w) := by
  unfold finish
  split
  · rename_i job hjob
    exact absurd hjob (horigin _)
  · exact ⟨_, isVerdictOn_answered _ _, rfl, rfl, rfl⟩
  · exact ⟨_, isVerdictOn_threw _ _ _ _, rfl, rfl, rfl⟩
  · exact ⟨_, isVerdictOn_answered _ _, rfl, rfl, rfl⟩
  · exact ⟨_, isVerdictOn_threw _ _ _ _, rfl, rfl, rfl⟩

theorem Tells.trans {events events' : List Event} {w'' : Runtime} (h : Tells events w w')
    (h' : Tells events' w' w'') : Tells (events' ++ events) w w'' :=
  ⟨h'.calls.trans h.calls, h'.waiters.trans h.waiters,
    by rw [h'.history, h.history, List.append_assoc]⟩

theorem recordOutcome_tells (taskId : String) (outcome : InvokeResult) (w : Runtime) :
    Tells [] w (recordOutcome now faults taskId outcome w).2 := by
  unfold recordOutcome updateTask appendReceipt
  dsimp only
  split <;> rename_i heq <;> obtain ⟨-, rfl⟩ := Prod.mk.inj heq
  · exact ⟨rfl, rfl, rfl⟩
  · exact ⟨rfl, rfl, rfl⟩

theorem note_returned (uuid : Nat) (call : Call) (coreResult : CoreResult) :
    ∀ event ∈ returnedEvents env now uuid call coreResult, Note event := by
  cases coreResult <;> simp [returnedEvents, Note, isVerdictOn]

/-- However the writes go, a call whose executor has answered comes to its end, after notes. -/
theorem complete_finishes (call : Call) (coreResult : CoreResult) (w : Runtime) :
    ∃ notes outcome w₁, (∀ event ∈ notes, Note event) ∧ Tells notes w w₁ ∧
      complete env now faults call coreResult w = finish call outcome w₁ := by
  have hnotes := @note_returned env now w.nextUuid call coreResult
  have hreturned : Tells (returnedEvents env now w.nextUuid call coreResult) w
      { w with
        nextUuid := w.nextUuid + 1
        history := returnedEvents env now w.nextUuid call coreResult ++ w.history } :=
    ⟨rfl, rfl, rfl⟩
  unfold complete
  dsimp only
  split
  · exact ⟨_, _, _, hnotes, hreturned, rfl⟩
  · rename_i normalized _
    have hrecorded := hreturned.trans (@recordOutcome_tells now faults call.envelope.taskId
      (Origin.stamp call.origin normalized) _)
    split <;> rename_i heq <;> rw [heq] at hrecorded
    · exact ⟨_, _, _, hnotes, hrecorded, rfl⟩
    · exact ⟨_, _, _, hnotes, hrecorded, rfl⟩

theorem complete_tells {call : Call} (horigin : ∀ job, call.origin ≠ .job job)
    (coreResult : CoreResult) (w : Runtime) :
    ∃ verdict notes, isVerdictOn call.id verdict = true ∧ (∀ event ∈ notes, Note event) ∧
      Tells (verdict :: notes) w (complete env now faults call coreResult w) := by
  obtain ⟨notes, outcome, w₁, hnotes, hbefore, heq⟩ :=
    @complete_finishes env now faults call coreResult w
  obtain ⟨verdict, hverdict, htells⟩ := finish_tells horigin outcome w₁
  rw [heq]
  exact ⟨verdict, notes, hverdict, hnotes, hbefore.trans htells⟩

/-- The executor's answer to a caller's call settles it. -/
theorem resume_settles {call : Call} (hticket : ticket w k = ⟨[call], [], []⟩)
    (horigin : ∀ job, call.origin ≠ .job job) (outcome : Except Rejection ExecutionResult) :
    ∃ verdict, isVerdictOn k verdict = true ∧
      ticket (resume env now faults k outcome w) k = ⟨[], [], [verdict]⟩ := by
  have hcalls : w.calls.filter (·.id == k) = [call] := congrArg Ticket.calls hticket
  have hfound : w.calls.find? (·.id == k) = some call := by
    rw [← List.head?_filter, hcalls]
    rfl
  have hid : call.id = k := by simpa using List.find?_some hfound
  -- the call is taken off, and its number holds nothing else
  have herased : ticket { w with calls := w.calls.eraseP (·.id == k) } k = ⟨[], [], []⟩ := by
    have hwaiters : w.waiters.filter (·.id == k) = [] := congrArg Ticket.waiters hticket
    have hverdicts : w.history.filter (isVerdictOn k) = [] := congrArg Ticket.verdicts hticket
    unfold ticket
    dsimp only
    rw [filter_eraseP, hcalls, hwaiters, hverdicts, List.tail_cons]
  have hsettled : ∀ {verdict : Event} {notes : List Event} {w₁ : Runtime},
      isVerdictOn k verdict = true → (∀ event ∈ notes, Note event) →
      Tells (verdict :: notes) { w with calls := w.calls.eraseP (·.id == k) } w₁ →
      ∃ verdict, isVerdictOn k verdict = true ∧ ticket w₁ k = ⟨[], [], [verdict]⟩ := by
    intro verdict notes w₁ hverdict hnotes htells
    refine ⟨verdict, hverdict, ?_⟩
    rw [htells.settles hverdict hnotes, herased]
  unfold resume
  rw [hfound]
  dsimp only
  split
  · obtain ⟨verdict, hverdict, htells⟩ := finish_tells horigin (.error _)
      { w with calls := w.calls.eraseP (·.id == k) }
    rw [hid] at hverdict
    exact hsettled hverdict note_nil htells
  · obtain ⟨verdict, notes, hverdict, hnotes, htells⟩ := @complete_tells env now faults call
      horigin _ { w with calls := w.calls.eraseP (·.id == k) }
    rw [hid] at hverdict
    exact hsettled hverdict hnotes htells

theorem finish_leaves (hk : call.id ≠ k) (outcome : Except Rejection InvokeResult) (w : Runtime) :
    ticket (finish call outcome w) k = ticket w k := by
  by_cases horigin : ∃ job, call.origin = .job job
  · obtain ⟨job, hjob⟩ := horigin
    unfold finish
    rw [hjob]
    rfl
  · obtain ⟨verdict, hverdict, htells⟩ := finish_tells (not_exists.mp horigin) outcome w
    exact htells.leaves_of_ne hverdict note_nil hk

theorem complete_leaves (hk : call.id ≠ k) (coreResult : CoreResult) (w : Runtime) :
    ticket (complete env now faults call coreResult w) k = ticket w k := by
  obtain ⟨notes, outcome, w₁, hnotes, hbefore, heq⟩ :=
    @complete_finishes env now faults call coreResult w
  rw [heq, finish_leaves hk, hbefore.leaves hnotes]

theorem resume_leaves {id : Nat} (hk : id ≠ k) (outcome : Except Rejection ExecutionResult)
    (w : Runtime) : ticket (resume env now faults id outcome w) k = ticket w k := by
  have herased : ticket { w with calls := w.calls.eraseP (·.id == id) } k = ticket w k := by
    unfold ticket
    dsimp only
    rw [filter_eraseP_of_disjoint]
    intro call hid hcall
    exact hk ((beq_iff_eq.mp hid).symm.trans (beq_iff_eq.mp hcall))
  unfold resume
  split
  · rfl
  · rename_i call hfound
    have hid : call.id ≠ k := by
      have heq : call.id = id := by simpa using List.find?_some hfound
      rwa [heq]
    dsimp only
    split
    · rw [finish_leaves hid, herased]
    · rw [complete_leaves hid, herased]

theorem resume_absent (hcalls : (ticket w k).calls = [])
    (outcome : Except Rejection ExecutionResult) : resume env now faults k outcome w = w := by
  have hnone : w.calls.find? (·.id == k) = none := by
    rw [← List.head?_filter]
    exact (congrArg List.head? hcalls)
  unfold resume
  rw [hnone]

/-! ## Looks at the store

The waiting loop ends after 200 looks, with an error. -/

theorem poll_leaves {id : Nat} (hk : id ≠ k) (w : Runtime) :
    ticket (poll id w) k = ticket w k := by
  have herased : ticket { w with waiters := w.waiters.eraseP (·.id == id) } k = ticket w k := by
    unfold ticket
    dsimp only
    rw [filter_eraseP_of_disjoint]
    intro waiter hid hwaiter
    exact hk ((beq_iff_eq.mp hid).symm.trans (beq_iff_eq.mp hwaiter))
  have hpolled := poll_polled id w
  generalize poll id w = w' at hpolled
  cases hpolled with
  | absent h => rfl
  | timedOut hfound =>
      rw [← herased]
      exact Tells.leaves_of_ne ⟨rfl, rfl, rfl⟩ (isVerdictOn_threw id _ _ _) note_nil hk
  | answered hfound hget hstored =>
      rw [← herased]
      exact Tells.leaves_of_ne ⟨rfl, rfl, rfl⟩ (isVerdictOn_answered id _) note_nil hk
  | @waits waiter hfound =>
      obtain ⟨-, hid⟩ := find_waiter hfound
      have hother : [{ waiter with checks := waiter.checks + 1 }].filter (·.id == k) = [] := by
        rw [List.filter_cons_of_neg (by simp [hid, hk]), List.filter_nil]
      rw [← herased]
      unfold ticket
      dsimp only
      rw [List.filter_append, hother, List.append_nil]

theorem poll_absent (hwaiters : (ticket w k).waiters = []) : poll k w = w := by
  have hnone : w.waiters.find? (·.id == k) = none := by
    rw [← List.head?_filter]
    exact (congrArg List.head? hwaiters)
  unfold poll
  rw [hnone]

/-- **A look at the store** settles the caller, or is counted; the 200th settles it. -/
theorem poll_ticket {waiter : Waiter} (hticket : ticket w k = ⟨[], [waiter], []⟩) :
    (∃ verdict, isVerdictOn k verdict = true ∧ ticket (poll k w) k = ⟨[], [], [verdict]⟩) ∨
      (waiter.checks < 200 ∧
        ticket (poll k w) k = ⟨[], [{ waiter with checks := waiter.checks + 1 }], []⟩) := by
  have hwaiters : w.waiters.filter (·.id == k) = [waiter] := congrArg Ticket.waiters hticket
  have hcalls : w.calls.filter (·.id == k) = [] := congrArg Ticket.calls hticket
  have hverdicts : w.history.filter (isVerdictOn k) = [] := congrArg Ticket.verdicts hticket
  have hfound : w.waiters.find? (·.id == k) = some waiter := by
    rw [← List.head?_filter, hwaiters]
    rfl
  have herased : ticket { w with waiters := w.waiters.eraseP (·.id == k) } k = ⟨[], [], []⟩ := by
    unfold ticket
    dsimp only
    rw [filter_eraseP, hcalls, hwaiters, hverdicts, List.tail_cons]
  have hsettled : ∀ {verdict : Event} {w₁ : Runtime}, isVerdictOn k verdict = true →
      Tells [verdict] { w with waiters := w.waiters.eraseP (·.id == k) } w₁ →
      ∃ verdict, isVerdictOn k verdict = true ∧ ticket w₁ k = ⟨[], [], [verdict]⟩ := by
    intro verdict w₁ hverdict htells
    refine ⟨verdict, hverdict, ?_⟩
    rw [htells.settles hverdict note_nil, herased]
  unfold poll
  rw [hfound]
  dsimp only
  split
  · exact .inl (hsettled (isVerdictOn_threw k _ _ _) ⟨rfl, rfl, rfl⟩)
  · rename_i hchecks
    split
    · exact .inl (hsettled (isVerdictOn_answered k _) ⟨rfl, rfl, rfl⟩)
    · refine .inr ⟨Nat.lt_of_not_le hchecks, ?_⟩
      have hid : waiter.id = k := by simpa using List.find?_some hfound
      unfold ticket at herased ⊢
      obtain ⟨hcalls', hwaiters', hverdicts'⟩ := Ticket.mk.inj herased
      rw [List.filter_append, hcalls', hwaiters', hverdicts',
        List.filter_cons_of_pos (by simp [hid]), List.filter_nil, List.nil_append]

/-! ## The queue's turns

The queue starts calls of its own and leaves those of the callers alone. -/

theorem leaves_queueStep (s : World) {label : QueueLabel Ready} (hlabel : label.internal)
    (hk : k < s.outer.nextCall) : ticket (queueStep env faults s label).outer k = ticket s.outer k := by
  have hkept : s.outer.nextCall ≤ (queueStep env faults s label).outer.nextCall ∧
      ticket (queueStep env faults s label).outer k = ticket s.outer k := by
    refine queueStep_keeps
      (P := fun w => s.outer.nextCall ≤ w.nextCall ∧ ticket w k = ticket s.outer k) hlabel
      ⟨Nat.le_refl _, rfl⟩ (fun job w hw => ?_) fun job record w hw => ?_
    · refine ⟨Nat.le_succ_of_le hw.1, ?_⟩
      have hother : w.nextCall ≠ k := Nat.ne_of_gt (Nat.lt_of_lt_of_le hk hw.1)
      unfold runJob
      rw [ticket_suspend, List.filter_cons_of_neg (by simp [hother]), List.filter_nil,
        List.append_nil]
      exact hw.2
    · have hwrites := @onDeadLetter_writes env s.now faults job record w
      exact ⟨hw.1.trans hwrites.nextCall, (hwrites.tells.leaves note_nil k).trans hw.2⟩
  exact hkept.2

theorem leaves_jobSettles (id : Nat) (s : World) (hk : k < s.outer.nextCall) :
    ticket (jobSettles env faults id s).outer k = ticket s.outer k := by
  unfold jobSettles
  split
  · rfl
  · rename_i outcome _
    exact @leaves_queueStep env faults k { s with
      outer := { s.outer with settledRuns := s.outer.settledRuns.eraseP (·.1 == id) } }
      (.settle id outcome faults.deadLetter) trivial hk

/-! ## Steps

Only the labels of a call move its ticket. -/

theorem fresh_ticket (h : WorldLedger env s) (hk : s.outer.nextCall ≤ k) :
    ticket s.outer k = ⟨[], [], []⟩ := by
  have hcalls : s.outer.calls.filter (·.id == k) = [] := by
    rw [List.filter_eq_nil_iff]
    intro call hcall hid
    have hdrawn := (h.ledger.calls call hcall).2
    rw [beq_iff_eq.mp hid] at hdrawn
    exact absurd hdrawn (Nat.not_lt.mpr hk)
  have hwaiters : s.outer.waiters.filter (·.id == k) = [] := by
    rw [List.filter_eq_nil_iff]
    intro waiter hwaiter hid
    have hdrawn := h.waiters waiter hwaiter
    rw [beq_iff_eq.mp hid] at hdrawn
    exact absurd hdrawn (Nat.not_lt.mpr hk)
  have hverdicts : s.outer.history.filter (isVerdictOn k) = [] := by
    rw [List.filter_eq_nil_iff]
    intro event hevent hverdict
    exact absurd (h.ledger.numbered event hevent k (eventCall_of_isVerdictOn hverdict))
      (Nat.not_lt.mpr hk)
  unfold ticket
  rw [hcalls, hwaiters, hverdicts]

/-- The executor answers the call numbered `k`. -/
def isResumeOf (k : Nat) : Label → Bool
  | .resume id _ _ => id == k
  | _              => false

/-- The dispatch numbered `k` looks at the store. -/
def isLookOf (k : Nat) : Label → Bool
  | .poll id => id == k
  | _        => false

/-- **A turn that does not resume or look for a caller leaves its ticket.** -/
theorem step_leaves (hk : k < s.outer.nextCall) (hresume : isResumeOf k l = false)
    (hlook : isLookOf k l = false) :
    ticket (step env s l).outer k = ticket s.outer k := by
  have hother : s.outer.nextCall ≠ k := Nat.ne_of_gt hk
  cases l with
  | dispatch request faults => exact (dispatch_takes request s.queue s.outer).leaves hother
  | approve request => exact (approve_takes request s.outer).leaves hother
  | cancelTask taskId tenantId faults =>
      obtain ⟨event, hwrites, hevent⟩ :=
        @cancelTask_writes env s.now faults s.queue taskId tenantId s.outer
      rcases hevent with ⟨rejection, rfl⟩ | ⟨queued, outcome, rfl⟩
      · exact hwrites.tells.leaves_of_ne (isVerdictOn_threw _ _ _ _) note_nil hother
      · exact hwrites.tells.leaves (by simp [Note, isVerdictOn]) k
  | setPolicy policy => rfl
  | resume id outcome faults => exact resume_leaves (by simpa [isResumeOf] using hresume) _ _
  | poll id => exact poll_leaves (by simpa [isLookOf] using hlook) _
  | jobSettles id faults => exact leaves_jobSettles id s hk
  | queue turn faults =>
      exact leaves_queueStep s (QueueTurn.internal faults.deadLetter turn) hk
  | tick ms => exact leaves_queueStep s trivial hk

/-- The looks that the caller has left. -/
def Ticket.patience (t : Ticket) : Nat :=
  match t.waiters with
  | []          => 0
  | waiter :: _ => 201 - waiter.checks

/-- **How a turn moves a standing ticket on.** -/
structure Ticket.Onward (k : Nat) (l : Label) (t t' : Ticket) : Prop where
  stands   : t'.Stands k
  /-- A verdict is the end. -/
  verdict  : t.verdicts ≠ [] → t' = t
  /-- Nobody comes to wait for the executor later, and its answer ends the wait. -/
  calls    : t.calls = [] ∨ isResumeOf k l = true → t'.calls = []
  patience : t'.patience + (if isLookOf k l = true then 1 else 0) ≤ t.patience ∨ t'.patience = 0

theorem Ticket.Stands.patience_le (h : t.Stands k) : t.patience ≤ 200 := by
  cases h with
  | suspended => exact Nat.zero_le _
  | @waiting waiter _ hlooked _ =>
      have hleft : (⟨[], [waiter], []⟩ : Ticket).patience = 201 - waiter.checks := rfl
      omega
  | settled => exact Nat.zero_le _

theorem Ticket.Onward.kept (h : t.Stands k) (hresume : isResumeOf k l = true → t.calls = [])
    (hlook : isLookOf k l = true → t.waiters = []) :
    t.Onward k l t where
  stands := h
  verdict _ := rfl
  calls hcalls := hcalls.elim id hresume
  patience := by
    by_cases hl : isLookOf k l = true
    · right
      unfold Ticket.patience
      rw [hlook hl]
    · left
      rw [if_neg hl, Nat.add_zero]

theorem Ticket.Onward.ends (h : t.verdicts = []) (hverdict : isVerdictOn k verdict = true) :
    t.Onward k l ⟨[], [], [verdict]⟩ where
  stands := .settled hverdict
  verdict hsettled := absurd h hsettled
  calls _ := rfl
  patience := .inr rfl

theorem onward_resume (h : (ticket w k).Stands k) (outcome : Except Rejection ExecutionResult) :
    (ticket w k).Onward k (.resume k outcome faults)
      (ticket (resume env now faults k outcome w) k) := by
  generalize hticket : ticket w k = t at h
  cases h with
  | suspended hid horigin =>
      obtain ⟨verdict, hverdict, heq⟩ := @resume_settles env now faults w k _ hticket horigin outcome
      rw [heq]
      exact .ends rfl hverdict
  | waiting hid hlooked hchecks =>
      rw [resume_absent (by rw [hticket]), hticket]
      exact .kept (.waiting hid hlooked hchecks) (fun _ => rfl) (fun hl => by cases hl)
  | settled hverdict =>
      rw [resume_absent (by rw [hticket]), hticket]
      exact .kept (.settled hverdict) (fun _ => rfl) (fun _ => rfl)

theorem onward_poll (h : (ticket w k).Stands k) :
    (ticket w k).Onward k (.poll k) (ticket (poll k w) k) := by
  have hlook : isLookOf k (.poll k) = true := beq_self_eq_true k
  generalize hticket : ticket w k = t at h
  cases h with
  | suspended hid horigin =>
      rw [poll_absent (by rw [hticket]), hticket]
      exact .kept (.suspended hid horigin) (fun hl => by cases hl) (fun _ => rfl)
  | @waiting waiter hid hlooked hchecks =>
      rcases poll_ticket hticket with ⟨verdict, hverdict, heq⟩ | ⟨hmore, heq⟩
      · rw [heq]
        exact .ends rfl hverdict
      · rw [heq]
        refine ⟨.waiting hid (Nat.succ_pos _) hmore, fun hsettled => absurd rfl hsettled, fun _ => rfl,
          .inl ?_⟩
        rw [if_pos hlook]
        unfold Ticket.patience
        dsimp only
        omega
  | settled hverdict =>
      rw [poll_absent (by rw [hticket]), hticket]
      exact .kept (.settled hverdict) (fun _ => rfl) (fun _ => rfl)

/-- **Every turn moves every standing ticket on.** -/
theorem step_onward {s : World} (hstands : (ticket s.outer k).Stands k)
    (hk : k < s.outer.nextCall) (l : Label) :
    (ticket s.outer k).Onward k l (ticket (step env s l).outer k) := by
  by_cases hresume : isResumeOf k l = true
  · cases l with
    | resume id outcome faults =>
        obtain rfl : id = k := beq_iff_eq.mp hresume
        exact onward_resume hstands outcome
    | _ => cases hresume
  · by_cases hlook : isLookOf k l = true
    · cases l with
      | poll id =>
          obtain rfl : id = k := beq_iff_eq.mp hlook
          exact onward_poll hstands
      | _ => cases hlook
    · rw [step_leaves hk (Bool.eq_false_iff.mpr hresume) (Bool.eq_false_iff.mpr hlook)]
      exact .kept hstands (fun hl => absurd hl hresume) (fun hl => absurd hl hlook)

/-! ## Runs

`RunsOn` composes: what two runs do to a ticket one after the other is what the joint run does. -/

/-- **What a run does to a standing ticket.** -/
structure Ticket.RunsOn (k : Nat) (ks : List Label) (t t' : Ticket) : Prop where
  stands   : t'.Stands k
  verdict  : t.verdicts ≠ [] → t' = t
  calls    : t.calls = [] ∨ ks.any (isResumeOf k) = true → t'.calls = []
  patience : t'.patience + ks.countP (isLookOf k) ≤ t.patience ∨ t'.patience = 0

theorem Ticket.Onward.then {ks : List Label} {t t' t'' : Ticket} (h : t.Onward k l t')
    (h' : t'.RunsOn k ks t'') : t.RunsOn k (l :: ks) t'' where
  stands := h'.stands
  verdict hsettled := by
    have hsame := h.verdict hsettled
    rw [← hsame] at hsettled
    exact (h'.verdict hsettled).trans hsame
  calls hcalls := by
    rw [List.any_cons, Bool.or_eq_true] at hcalls
    apply h'.calls
    rcases hcalls with hbefore | hnow | hlater
    · exact .inl (h.calls (.inl hbefore))
    · exact .inl (h.calls (.inr hnow))
    · exact .inr hlater
  patience := by
    rw [List.countP_cons]
    have hfirst := h.patience
    have hrest := h'.patience
    omega

theorem step_nextCall_le (h : WorldLedger env s) (l : Label) :
    s.outer.nextCall ≤ (step env s l).outer.nextCall ∧ WorldLedger env (step env s l) := by
  obtain ⟨hmoves, hledger⟩ := step_moves (g := .any) h (allowed_any env s l)
  exact ⟨moves_nextCall_le hmoves, hledger⟩

theorem run_nextCall_le (h : WorldLedger env s) (ks : List Label) :
    s.outer.nextCall ≤ (run env s ks).outer.nextCall := by
  induction ks generalizing s with
  | nil => exact Nat.le_refl _
  | cons l ks ih =>
      obtain ⟨hnext, hledger⟩ := step_nextCall_le h l
      exact hnext.trans (ih hledger)

theorem run_onward (h : WorldLedger env s) (hstands : (ticket s.outer k).Stands k)
    (hk : k < s.outer.nextCall) (ks : List Label) :
    (ticket s.outer k).RunsOn k ks (ticket (run env s ks).outer k) := by
  induction ks generalizing s with
  | nil =>
      refine ⟨hstands, fun _ => rfl, fun hcalls => ?_, .inl (Nat.le_refl _)⟩
      exact hcalls.elim id (fun hnone => absurd hnone Bool.false_ne_true)
  | cons l ks ih =>
      have hturn := @step_onward env k s hstands hk l
      obtain ⟨hnext, hledger⟩ := step_nextCall_le h l
      exact hturn.then (ih hledger hturn.stands (Nat.lt_of_lt_of_le hk hnext))

/-- A call that a caller awaits. -/
inductive Awaited where
  | dispatch (request : DispatchRequest) (faults : Faults)
  | approve (request : ApprovalRequest)

def Awaited.label : Awaited → Label
  | .dispatch request faults => .dispatch request faults
  | .approve request         => .approve request

theorem awaited_stands (h : WorldLedger env s) (awaited : Awaited) :
    (ticket (step env s awaited.label).outer s.outer.nextCall).Stands s.outer.nextCall ∧
      s.outer.nextCall < (step env s awaited.label).outer.nextCall := by
  have hfresh := fresh_ticket h (Nat.le_refl s.outer.nextCall)
  cases awaited with
  | dispatch request faults =>
      exact ⟨(dispatch_takes request s.queue s.outer).stands hfresh,
        nextCall_dispatch request s.queue s.outer⟩
  | approve request =>
      refine ⟨(approve_takes request s.outer).stands hfresh, ?_⟩
      show s.outer.nextCall < (approve env request s.outer).nextCall
      unfold approve
      dsimp only
      split
      · exact Nat.lt_succ_self _
      · exact Nat.lt_succ_self _

section Callers

variable (env : OrchestratorEnv) (policy : PolicyDocument) (deadLetters : List DeadLetterRecord)
  (now : Millis) (ls : List Label) (awaited : Awaited)

/-- What the runtime keeps of a call that was made after `ls`, after the turns `ks`. -/
def ticketAfter (ks : List Label) : Ticket :=
  let s := run env (init env policy deadLetters now) ls
  ticket (run env (step env s awaited.label) ks).outer s.outer.nextCall

theorem ticketAfter_append (ks js : List Label) :
    (ticketAfter env policy deadLetters now ls awaited ks).RunsOn
      (run env (init env policy deadLetters now) ls).outer.nextCall js
      (ticketAfter env policy deadLetters now ls awaited (ks ++ js)) := by
  have hledger := run_worldLedger (init_worldLedger env policy deadLetters now) ls
  obtain ⟨hstands, hk⟩ := awaited_stands hledger awaited
  obtain ⟨-, hmade⟩ := step_nextCall_le hledger awaited.label
  have hbefore := run_onward hmade hstands hk ks
  have hjoined : run env (step env (run env (init env policy deadLetters now) ls) awaited.label)
      (ks ++ js) = run env (run env (step env (run env (init env policy deadLetters now) ls)
        awaited.label) ks) js := Transition.run_append _ ks js
  unfold ticketAfter
  dsimp only
  rw [hjoined]
  exact run_onward (run_worldLedger hmade ks) hbefore.stands
    (Nat.lt_of_lt_of_le hk (run_nextCall_le hmade ks)) js

/-- **Every caller is answered at most once, and is never lost**: whatever happens before and after
its call, it waits in one place or has one verdict, and a verdict is never taken back or repeated. -/
theorem caller_in_one_place (ks js : List Label) :
    (ticketAfter env policy deadLetters now ls awaited ks).Stands
        (run env (init env policy deadLetters now) ls).outer.nextCall ∧
      ((ticketAfter env policy deadLetters now ls awaited ks).verdicts ≠ [] →
        ticketAfter env policy deadLetters now ls awaited (ks ++ js) =
          ticketAfter env policy deadLetters now ls awaited ks) := by
  have hbefore := ticketAfter_append env policy deadLetters now ls awaited [] ks
  rw [List.nil_append] at hbefore
  exact ⟨hbefore.stands, (ticketAfter_append env policy deadLetters now ls awaited ks js).verdict⟩

/-- **Every caller is answered in the end**: once the executor has answered, if the call went to it,
and after 200 looks at the store, if it waits for a stored task. -/
theorem caller_is_answered (ks : List Label)
    (hresumed : (ticketAfter env policy deadLetters now ls awaited []).calls ≠ [] →
      ks.any (isResumeOf (run env (init env policy deadLetters now) ls).outer.nextCall) = true)
    (hlooked : (ticketAfter env policy deadLetters now ls awaited []).waiters ≠ [] →
      200 ≤ ks.countP (isLookOf
        (run env (init env policy deadLetters now) ls).outer.nextCall)) :
    ∃ verdict, isVerdictOn (run env (init env policy deadLetters now) ls).outer.nextCall verdict =
        true ∧
      ticketAfter env policy deadLetters now ls awaited ks = ⟨[], [], [verdict]⟩ := by
  have hfirst := (ticketAfter_append env policy deadLetters now ls awaited [] []).stands
  have hruns := ticketAfter_append env policy deadLetters now ls awaited [] ks
  rw [List.nil_append] at hfirst hruns
  have hstands := hruns.stands
  have hcalls := hruns.calls ((Decidable.em _).imp_right hresumed)
  have hpatience := hruns.patience
  have hlimit := hfirst.patience_le
  have hnone : (ticketAfter env policy deadLetters now ls awaited []).waiters = [] →
      (ticketAfter env policy deadLetters now ls awaited []).patience = 0 := by
    intro h
    unfold Ticket.patience
    rw [h]
  generalize ticketAfter env policy deadLetters now ls awaited ks = t at hstands hcalls hpatience ⊢
  cases hstands with
  | suspended => cases hcalls
  | @waiting waiter _ _ hchecks =>
      exfalso
      have hleft : (⟨[], [waiter], []⟩ : Ticket).patience = 201 - waiter.checks := rfl
      -- who did not wait at first never does
      rcases Decidable.em ((ticketAfter env policy deadLetters now ls awaited []).waiters = []) with
        h | h
      · have hzero := hnone h
        omega
      · have hlooks := hlooked h
        omega
  | settled hverdict => exact ⟨_, hverdict, rfl⟩

end Callers

def keyedRequest : DispatchRequest :=
  ⟨sampleEnvelope "alice" "restart web" (some [("idempotency_key", .str "k")]), "ops.restart", none,
    none⟩

/-- A dispatch that the executor answers, and another with the same key, which looks in vain for the
result of the first. -/
theorem caller_is_answered_sample :
    (∃ verdict, isVerdictOn 0 verdict = true ∧
      ticketAfter (sampleEnv "ops.restart" noCrypto) (defaultPolicy .allow) [] 0 []
        (.dispatch keyedRequest {}) [.resume 0 (.ok sampleResult) {}] = ⟨[], [], [verdict]⟩) ∧
    ∃ verdict, isVerdictOn 1 verdict = true ∧
      ticketAfter (sampleEnv "ops.restart" noCrypto) (defaultPolicy .allow) [] 0
        [.dispatch keyedRequest {}] (.dispatch keyedRequest {}) (List.replicate 200 (.poll 1)) =
          ⟨[], [], [verdict]⟩ :=
  ⟨caller_is_answered (sampleEnv "ops.restart" noCrypto) (defaultPolicy .allow) [] 0 []
      (.dispatch keyedRequest {}) [.resume 0 (.ok sampleResult) {}] (fun _ => rfl)
      (fun h => absurd rfl h),
    caller_is_answered (sampleEnv "ops.restart" noCrypto) (defaultPolicy .allow) [] 0
      [.dispatch keyedRequest {}] (.dispatch keyedRequest {}) (List.replicate 200 (.poll 1))
      (fun h => absurd rfl h) (fun _ => by rw [List.countP_replicate]; exact Nat.le_refl _)⟩

end Orchestrator

end MapProtocol
