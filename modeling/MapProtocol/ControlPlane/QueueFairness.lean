import MapProtocol.Lib.Scheduling
import MapProtocol.ControlPlane.QueueAccounting
import MapProtocol.ControlPlane.QueueView

/-!
# The fairness of the queue

The queue is a scheduler by class: the classes are the tenant keys, the count of a class is
`inflightByTenant` and its limit the quota in force. `QueueBoard` is what the queue looks like as a
scheduler, with its dead letters, and `step_board` shows that every step of the queue machine is a
sequence of a scheduler's moves and of dead letters recorded. So the job that starts next is always
the earliest whose tenant is below its limit, whatever passes run inside one another.

Fairness within a tenant, the bound on the queue and the bound on the dead letters are then read off
the moves.
-/

namespace MapProtocol

open Scheduling Relation

/-- A job that waits for its first attempt. A job that comes back from its retry timer does not. -/
def QueueJob.fresh {ρ : Type} (job : QueueJob ρ) : Bool := job.attempt == 1

def QueueEvent.takenJob {ρ : Type} : QueueEvent ρ → Option (QueueJob ρ)
  | .started job _ _ _ => some job
  | .skipped job       => some job
  | _                  => none

def QueueEvent.startedJob {ρ : Type} : QueueEvent ρ → Option (QueueJob ρ)
  | .started job _ _ _ => some job
  | _                  => none

def QueueEvent.letter {ρ : Type} : QueueEvent ρ → Option DeadLetterRecord
  | .deadLettered _ record => some record
  | _                      => none

/-- The queue as a scheduler by class, with the dead letters it keeps and those it recorded. -/
structure QueueBoard (ρ : Type) where
  scheduler   : Scheduler (QueueJob ρ) String
  deadLetters : List DeadLetterRecord
  recorded    : List DeadLetterRecord

/-- **The moves of the queue**: a move of the scheduler, or a dead letter. -/
inductive BoardMove {ρ : Type} (opts : AsyncTaskQueueOptions) :
    QueueBoard ρ → QueueBoard ρ → Prop
  | schedule {s s' : Scheduler (QueueJob ρ) String} {kept recorded : List DeadLetterRecord}
      (h : Scheduler.Move QueueJob.tenantKey QueueJob.fresh opts.concurrent opts.queueDepth s s') :
      BoardMove opts ⟨s, kept, recorded⟩ ⟨s', kept, recorded⟩
  | bury {s : Scheduler (QueueJob ρ) String} {kept recorded : List DeadLetterRecord}
      {record : DeadLetterRecord} :
      BoardMove opts ⟨s, kept, recorded⟩
        ⟨s, AsyncTaskQueue.trimDeadLetters opts (kept ++ [record]), recorded ++ [record]⟩

namespace AsyncTaskQueue

variable {ρ ω : Type} {opts : AsyncTaskQueueOptions} {hooks : Hooks ρ ω} {now : Millis}
variable {q q' : AsyncTaskQueue ρ} {job : QueueJob ρ} {w : ω} {fault : Option String}

/-- The jobs taken out of the queue, in order. -/
def takenJobs (log : List (QueueEvent ρ)) : List (QueueJob ρ) :=
  (log.filterMap QueueEvent.takenJob).reverse

def startedJobs (log : List (QueueEvent ρ)) : List (QueueJob ρ) :=
  (log.filterMap QueueEvent.startedJob).reverse

def recordedLetters (log : List (QueueEvent ρ)) : List DeadLetterRecord :=
  (log.filterMap QueueEvent.letter).reverse

@[simp] theorem takenJobs_cons (event : QueueEvent ρ) (log : List (QueueEvent ρ)) :
    takenJobs (event :: log) = takenJobs log ++ event.takenJob.toList := by
  unfold takenJobs
  rw [List.filterMap_cons]
  cases event.takenJob <;> simp

@[simp] theorem recordedLetters_cons (event : QueueEvent ρ) (log : List (QueueEvent ρ)) :
    recordedLetters (event :: log) = recordedLetters log ++ event.letter.toList := by
  unfold recordedLetters
  rw [List.filterMap_cons]
  cases event.letter <;> simp

def scheduler (opts : AsyncTaskQueueOptions) (q : AsyncTaskQueue ρ) :
    Scheduler (QueueJob ρ) String where
  queue := q.queue
  running := q.runningJobs
  slots := q.inflight
  counted := q.tenantInflight
  limit := q.tenantMax opts
  accepted := q.accepted
  taken := takenJobs q.log

def board (opts : AsyncTaskQueueOptions) (q : AsyncTaskQueue ρ) : QueueBoard ρ :=
  ⟨scheduler opts q, q.deadLetters, recordedLetters q.log⟩

/-! ## Taking the next job

`takeRunnable` scans from the front and passes over tenants at their limit, so it is the scheduler
of the library with the tenant as class. -/

/-- **The next job.** `takeRunnable` takes the earliest job whose tenant is below its limit. -/
theorem takeRunnable_earliest (h : takeRunnable opts q = some (job, q')) :
    ∃ ahead behind, q' = { q with queue := ahead ++ behind } ∧
      Earliest (Scheduler.Ready QueueJob.tenantKey (scheduler opts q)) q.queue ahead job behind := by
  unfold takeRunnable at h
  cases hf : q.findRunnableJobIndex opts with
  | none => simp [hf] at h
  | some index =>
      -- the search refused every job ahead of the index
      obtain ⟨hlt, hrun, hbefore⟩ := List.findIdx?_eq_some_iff_getElem.mp hf
      rw [hf] at h
      simp only [List.getElem?_eq_getElem hlt, Option.some.injEq, Prod.mk.injEq] at h
      obtain ⟨rfl, rfl⟩ := h
      refine ⟨q.queue.take index, q.queue.drop (index + 1), ?_, by simp, ?_, ?_⟩
      · rw [List.eraseIdx_eq_take_drop_succ]
      · have hready := of_decide_eq_true hrun
        exact hready
      · intro other hother hready
        obtain ⟨i, hi, rfl⟩ := List.mem_take_iff_getElem.mp hother
        have hi' : i < index := by omega
        have hblocked : q.tenantMax opts q.queue[i].tenantKey ≤
            q.tenantInflight q.queue[i].tenantKey := by simpa using hbefore i hi'
        exact Nat.not_lt.mpr hblocked hready

theorem scheduler_release (q : AsyncTaskQueue ρ) (job : QueueJob ρ) (taskId : String) :
    scheduler opts (release job.tenantKey taskId q) =
      (scheduler opts q).freed job.tenantKey := by
  have hcounted : (release job.tenantKey taskId q).tenantInflight = fun key =>
      if job.tenantKey = key then q.tenantInflight key - 1 else q.tenantInflight key :=
    funext fun key => tenantInflight_release
  unfold scheduler Scheduler.freed
  rw [hcounted]
  rfl

theorem board_release (q : AsyncTaskQueue ρ) (job : QueueJob ρ) :
    BoardMove opts (board opts q) (board opts (release job.tenantKey job.taskId q)) := by
  unfold board
  rw [scheduler_release]
  exact .schedule .free

theorem board_enter (hslot : q.inflight < opts.concurrent)
    (ht : takeRunnable opts q = some (job, q')) :
    BoardMove opts (board opts q) (board opts (enter opts hooks now job (q', w)).1) := by
  obtain ⟨ahead, behind, rfl, hearliest⟩ := takeRunnable_earliest ht
  have hstart : scheduler opts (enter opts hooks now job ({ q with queue := ahead ++ behind }, w)).1 =
      (scheduler opts q).start QueueJob.tenantKey ahead job behind :=
    Scheduler.ext rfl rfl rfl (tenantInflight_occupy now q job) rfl rfl (takenJobs_cons _ _)
  unfold board
  rw [hstart]
  exact .schedule (.start hslot hearliest)

/-- Skipping the job that was taken is three moves: it is counted, it leaves, its slot is given
back. -/
theorem board_skip (hslot : q.inflight < opts.concurrent)
    (ht : takeRunnable opts q = some (job, q')) :
    ReflTransGen (BoardMove opts) (board opts q) (board opts (skip now job (q', w)).1) := by
  obtain ⟨ahead, behind, rfl, hearliest⟩ := takeRunnable_earliest ht
  have hstart : scheduler opts { occupy now job { q with queue := ahead ++ behind } with
        runningJobs := q.runningJobs ++ [job], log := .skipped job :: q.log } =
      (scheduler opts q).start QueueJob.tenantKey ahead job behind :=
    Scheduler.ext rfl rfl rfl (tenantInflight_occupy now q job) rfl rfl (takenJobs_cons _ _)
  refine .trans (.single (.schedule (.start hslot hearliest))) ?_
  rw [← hstart]
  refine .trans (.single (.schedule (.leave rfl))) ?_
  rw [List.append_nil]
  exact .single (board_release { occupy now job { q with queue := ahead ++ behind } with
    log := .skipped job :: q.log } job)

theorem board_reap (q : AsyncTaskQueue ρ) :
    BoardMove opts (board opts q) (board opts (reapExpiredLeases now q)) := by
  have hle := reapExpiredLeases_inflight_le now q
  obtain ⟨leasedJobs, inflight, processing, heq⟩ := reapExpiredLeases_eq now q
  rw [heq] at hle ⊢
  exact .schedule (.reclaim hle)

/-- **A pass makes moves only.** -/
theorem passRules_board (b : QueueBoard ρ) :
    PassRules opts hooks now fun s => ReflTransGen (BoardMove opts) b (board opts s.1) where
  reap s h := h.tail (board_reap s.1)
  settle s h := by
    obtain ⟨processing, heq⟩ := settleProcessing_eq s.1
    dsimp only
    rw [heq]
    exact h
  start s job q' h hslot ht _ := h.tail (board_enter hslot ht)
  skip s job q' h hslot ht _ :=
    ⟨h.trans (board_skip hslot ht), fun s' hs' => hs'.tail (board_release s'.1 job)⟩

/-! ## The steps

Each step is a sequence of moves of the board. A retried job is queued anew, behind the jobs that
wait. -/

theorem finishJob_board {b : QueueBoard ρ} {s : AsyncTaskQueue ρ × ω}
    (h : ReflTransGen (BoardMove opts) b (board opts s.1)) :
    ReflTransGen (BoardMove opts) b
      (board opts (finishJob opts hooks now job.tenantKey job.taskId s).1) :=
  finishJob_preserves (passRules_board b) (h.tail (board_release s.1 job))

theorem Buried.board {record : DeadLetterRecord} {s s' : AsyncTaskQueue ρ × ω}
    (h : Buried opts hooks fault job record s s')
    (hletters : s'.1.deadLetters = trimDeadLetters opts (s.1.deadLetters ++ [record])) :
    BoardMove opts (board opts s.1) (board opts s'.1) := by
  obtain ⟨deadLetters, _, _, _, log, hs', _, _, hlog⟩ := h
  rw [hs'] at hletters ⊢
  obtain rfl : deadLetters = _ := hletters
  rcases hlog with ⟨_, rfl, _⟩ | ⟨_, rfl, _⟩
  · unfold AsyncTaskQueue.board scheduler
    simp only [takenJobs_cons, recordedLetters_cons, QueueEvent.takenJob, QueueEvent.letter,
      Option.toList_none, Option.toList_some, List.append_nil]
    exact .bury
  · unfold AsyncTaskQueue.board scheduler
    simp only [takenJobs_cons, recordedLetters_cons, QueueEvent.takenJob, QueueEvent.letter,
      Option.toList_none, Option.toList_some, List.append_nil]
    exact .bury

theorem settle_board {id : Nat} {outcome : Except (Option String) Unit} :
    ReflTransGen (BoardMove opts) (board opts q)
      (board opts (settle opts hooks now id outcome fault (q, w)).1) := by
  have hcases := settle_cases opts hooks now id fault q w outcome
  generalize settle opts hooks now id outcome fault (q, w) = s at hcases ⊢
  have hleave : ∀ {job : QueueJob ρ} {l₁ l₂ : List (QueueJob ρ)}, q.runningJobs = l₁ ++ job :: l₂ →
      BoardMove opts (board opts q) (board opts { q with runningJobs := l₁ ++ l₂ }) :=
    fun hq => .schedule (.leave hq)
  cases hcases with
  | absent => exact .refl
  | succeeded _ hq => exact finishJob_board (.single (hleave hq))
  | @retried job l₁ l₂ _ _ _ hq _ hs =>
      rw [hs]
      exact finishJob_board (s := ({ q with
        runningJobs := l₁ ++ l₂
        completedEffects := q.completedEffects.filter (· ≠ job.effectId) }, w))
        (.single (hleave hq))
  | buried _ hq _ _ hburied hletters =>
      exact finishJob_board (.tail (.single (hleave hq)) (hburied.board hletters))

theorem fireTimer_board {q : AsyncTaskQueue ρ} {w : ω} {id : Nat} {fault : Option String}
    (hattempt : ∀ job ∈ q.retryTimers.map Prod.fst, 1 ≤ job.attempt) :
    ReflTransGen (BoardMove opts) (board opts q)
      (board opts (fireTimer opts hooks now id fault (q, w)).1) := by
  have hcases := fireTimer_cases opts hooks now id fault q w
  generalize fireTimer opts hooks now id fault (q, w) = s at hcases ⊢
  cases hcases with
  | absent => exact .refl
  | stopped => exact .refl
  | buried _ _ _ _ hburied hletters => exact .single (hburied.board hletters)
  | @requeued job message l₁ l₂ hfind _ _ hroom =>
      have hfirst : 1 ≤ job.attempt :=
        hattempt job (List.mem_map_of_mem (f := Prod.fst) (List.mem_of_find?_eq_some hfind))
      obtain ⟨processing, microtasks, heq⟩ := kickoff_eq { q with
        retryTimers := l₁ ++ l₂
        pendingRetry := q.pendingRetry - 1
        queue := q.queue ++ [{ job with attempt := job.attempt + 1 }] }
      dsimp only
      rw [heq]
      -- the attempt grows, so the job that comes back is no fresh one
      have hstale : QueueJob.fresh { job with attempt := job.attempt + 1 } = false := by
        simp [QueueJob.fresh]
        omega
      exact .single (.schedule (.requeue hroom hstale))

theorem enqueue_board {params : EnqueueParams ρ} :
    ReflTransGen (BoardMove opts) (board opts q) (board opts (q.enqueue opts params).2) := by
  unfold enqueue
  split
  · exact .refl
  · rename_i hroom
    obtain ⟨processing, microtasks, heq⟩ := kickoff_eq { q with
      queue := q.queue ++ [newJob q params], accepted := q.accepted ++ [newJob q params] }
    show ReflTransGen _ _ (board opts (kickoff { q with
      queue := q.queue ++ [newJob q params], accepted := q.accepted ++ [newJob q params] }))
    rw [heq]
    exact .single (.schedule (.accept (Nat.lt_of_not_le hroom) rfl))

theorem processOutbox_board :
    board opts (processOutbox hooks (q, w)).1 = board opts q := by
  have hall : board opts (deliverAll hooks (q, w) q.outbox).2.1 = board opts q := by
    refine deliverAll_preserves (P := fun s => board opts s.1 = board opts q) ?_ q.outbox rfl
    intro s message hs
    rw [← hs]
    unfold deliver
    split
    · rfl
    · dsimp only
      split
      · split <;> rfl
      · rfl
  exact hall

end AsyncTaskQueue

/-- Every job was queued for the first time before it was queued again. -/
def QueueView.Attempted {ρ ω : Type} (v : QueueView ρ ω) : Prop :=
  ∀ job ∈ v.queued ++ v.running ++ v.waiting, 1 ≤ job.attempt

namespace QueueMachine

open AsyncTaskQueue

variable {ρ ω : Type} {opts : AsyncTaskQueueOptions} {hooks : Hooks ρ ω}

theorem attempted_of_move {v v' : QueueView ρ ω}
    (hv : v.Attempted) (h : ViewMove hooks (fun _ => True) v v') : v'.Attempted := by
  unfold QueueView.Attempted at hv ⊢
  intro job hjob
  cases h with
  | requeued =>
      -- only the job that comes back is new, and its attempt is a successor
      dsimp only at hv hjob
      rcases List.mem_append.mp hjob with hjob | hjob
      · rcases List.mem_append.mp hjob with hjob | hjob
        · rcases List.mem_append.mp hjob with hjob | hjob
          · exact hv job (by simp [hjob])
          · obtain rfl := List.mem_singleton.mp hjob
            exact Nat.succ_le_succ (Nat.zero_le _)
        · exact hv job (by simp [hjob])
      · refine hv job ?_
        rcases List.mem_append.mp hjob with hjob | hjob <;> simp [hjob]
  | _ =>
      refine hv job ?_
      simp only [List.mem_append, List.mem_cons] at hjob ⊢
      tauto

theorem step_attempted {m : QueueMachine ρ ω} {l : QueueLabel ρ}
    (h : (view (m.queue, m.outer)).Attempted) :
    (view ((step opts hooks m l).queue, (step opts hooks m l).outer)).Attempted := by
  by_cases hl : l.internal
  · exact step_view (fun v v' hv hmove => attempted_of_move hv hmove) hl
      (fun _ _ _ _ _ _ _ _ => trivial) h
  · cases l with
    | enqueue params =>
        show (view ((m.queue.enqueue opts params).2, m.outer)).Attempted
        rcases @enqueue_cases _ opts m.queue params with heq | heq
        · rw [heq]
          exact h
        · rw [heq]
          dsimp only
          rw [view_kickoff]
          intro job hjob
          simp only [view, List.mem_append, List.mem_singleton] at hjob
          rcases hjob with ((hjob | rfl) | hjob) | hjob
          · exact h job (by simp [view, hjob])
          · exact Nat.le_refl 1
          · exact h job (by simp [view, hjob])
          · exact h job (List.mem_append_right _ hjob)
    | _ => exact absurd trivial hl

/-- **Every step is a sequence of moves.** -/
theorem step_board {m : QueueMachine ρ ω} (h : (view (m.queue, m.outer)).Attempted)
    (l : QueueLabel ρ) :
    ReflTransGen (BoardMove opts) (board opts m.queue) (board opts (step opts hooks m l).queue) := by
  cases l with
  | enqueue params => exact enqueue_board
  | microtask =>
      show ReflTransGen (BoardMove opts) (board opts m.queue)
        (board opts (runMicrotask opts hooks m.now (m.queue, m.outer)).1)
      unfold runMicrotask
      split
      · exact .refl
      · exact maybeRunJobs_preserves (passRules_board _) .refl
  | settle id outcome fault => exact settle_board
  | retryTimer id fault =>
      refine fireTimer_board fun job hjob => h job ?_
      exact List.mem_append_right _ hjob
  | setTenantQuota tenantId quota => exact .single (.schedule .limit)
  | stop => exact .refl
  | processOutbox =>
      show ReflTransGen (BoardMove opts) (board opts m.queue)
        (board opts (processOutbox hooks (m.queue, m.outer)).1)
      rw [processOutbox_board]
  | tick ms => exact .refl

/-! ## What the moves keep -/

theorem trimDeadLetters_eq (records : List DeadLetterRecord) :
    trimDeadLetters opts records = records.rtake opts.deadLetterLimit := by
  unfold trimDeadLetters List.rtake
  split
  · rename_i hle
    rw [Nat.sub_eq_zero_of_le hle]
    rfl
  · rfl

/-- What holds of the queue as a scheduler. `stored` are the dead letters its file held. -/
structure Served (opts : AsyncTaskQueueOptions) (stored : List DeadLetterRecord)
    (b : QueueBoard ρ) : Prop where
  inOrder     : Scheduler.InOrder QueueJob.tenantKey QueueJob.fresh b.scheduler
  depth       : b.scheduler.queue.length ≤ opts.queueDepth
  deadLetters : b.deadLetters = (stored ++ b.recorded).rtake opts.deadLetterLimit

theorem served_of_move {stored : List DeadLetterRecord} {b b' : QueueBoard ρ}
    (h : BoardMove opts b b') (hb : Served opts stored b) : Served opts stored b' := by
  cases h with
  | schedule hmove =>
      exact ⟨hmove.inOrder hb.inOrder, hmove.queue_length_le hb.depth, hb.deadLetters⟩
  | bury =>
      refine ⟨hb.inOrder, hb.depth, ?_⟩
      have hkept := hb.deadLetters
      dsimp only at hkept ⊢
      rw [trimDeadLetters_eq, hkept, rtake_append_singleton, List.append_assoc]

theorem served_of_moves {stored : List DeadLetterRecord} {b b' : QueueBoard ρ}
    (h : ReflTransGen (BoardMove opts) b b') (hb : Served opts stored b) :
    Served opts stored b' := by
  induction h with
  | refl => exact hb
  | tail _ hmove ih => exact served_of_move hmove ih

theorem init_served (stored : List DeadLetterRecord) (outer : ω) (now : Millis) :
    Served opts stored (board opts (init opts stored outer now : QueueMachine ρ ω).queue) where
  inOrder _ := rfl
  depth := Nat.zero_le _
  deadLetters := by
    show trimDeadLetters opts stored = (stored ++ []).rtake opts.deadLetterLimit
    rw [trimDeadLetters_eq, List.append_nil]

/-- **Fairness and bounds.** The started fresh jobs of a tenant are its first accepted jobs, in the
order they were accepted; the pass takes the earliest job whose tenant is below its limit, and every
step is a sequence of such takes and of moves that take no job; and both lists keep their bounds. -/
structure Fair (opts : AsyncTaskQueueOptions) (hooks : Hooks ρ ω) (stored : List DeadLetterRecord)
    (m : QueueMachine ρ ω) : Prop where
  started     : ∀ key,
    (Scheduler.freshOf QueueJob.tenantKey QueueJob.fresh key (startedJobs m.queue.log)).Sublist
      (Scheduler.freshOf QueueJob.tenantKey QueueJob.fresh key m.queue.accepted)
  inOrder     : Scheduler.InOrder QueueJob.tenantKey QueueJob.fresh (scheduler opts m.queue)
  next        : ∀ job q', takeRunnable opts m.queue = some (job, q') →
    ∃ ahead behind, q' = { m.queue with queue := ahead ++ behind } ∧
      Earliest (Scheduler.Ready QueueJob.tenantKey (scheduler opts m.queue)) m.queue.queue
        ahead job behind
  moves       : ∀ l,
    ReflTransGen (BoardMove opts) (board opts m.queue) (board opts (step opts hooks m l).queue)
  depth       : m.queue.queue.length ≤ opts.queueDepth
  deadLetters : m.queue.deadLetters =
    (stored ++ recordedLetters m.queue.log).rtake opts.deadLetterLimit

theorem startedJobs_sublist (log : List (QueueEvent ρ)) :
    (startedJobs log).Sublist (takenJobs log) := by
  unfold startedJobs takenJobs
  refine List.Sublist.reverse ?_
  induction log with
  | nil => exact List.Sublist.slnil
  | cons event log ih =>
      rw [List.filterMap_cons, List.filterMap_cons]
      cases event with
      | started job total ofTenant limit => exact ih.cons_cons job
      | skipped job => exact ih.cons job
      | _ => exact ih

theorem started_sublist {q : AsyncTaskQueue ρ}
    (h : Scheduler.InOrder QueueJob.tenantKey QueueJob.fresh (scheduler opts q)) (key : String) :
    (Scheduler.freshOf QueueJob.tenantKey QueueJob.fresh key (startedJobs q.log)).Sublist
      (Scheduler.freshOf QueueJob.tenantKey QueueJob.fresh key q.accepted) := by
  have hkey : Scheduler.freshOf QueueJob.tenantKey QueueJob.fresh key (takenJobs q.log) ++
      Scheduler.freshOf QueueJob.tenantKey QueueJob.fresh key q.queue =
        Scheduler.freshOf QueueJob.tenantKey QueueJob.fresh key q.accepted := h key
  rw [← hkey]
  have htaken : (Scheduler.freshOf QueueJob.tenantKey QueueJob.fresh key (startedJobs q.log)).Sublist
      (Scheduler.freshOf QueueJob.tenantKey QueueJob.fresh key (takenJobs q.log)) :=
    (startedJobs_sublist q.log).filter _
  exact htaken.trans (List.sublist_append_left _ _)

theorem init_attempted (stored : List DeadLetterRecord) (outer : ω) (now : Millis) :
    (view ((init opts stored outer now : QueueMachine ρ ω).queue, outer)).Attempted := by
  intro job hjob
  exact absurd hjob List.not_mem_nil

theorem run_fair (opts : AsyncTaskQueueOptions) (hooks : Hooks ρ ω)
    (stored : List DeadLetterRecord) (outer : ω) (now : Millis) (ls : List (QueueLabel ρ)) :
    Fair opts hooks stored (run opts hooks (init opts stored outer now) ls) := by
  have hstep : ∀ (m : QueueMachine ρ ω) (l : QueueLabel ρ),
      (view (m.queue, m.outer)).Attempted ∧ Served opts stored (board opts m.queue) →
      (view ((step opts hooks m l).queue, (step opts hooks m l).outer)).Attempted ∧
        Served opts stored (board opts (step opts hooks m l).queue) :=
    fun m l hm => ⟨step_attempted hm.1, served_of_moves (step_board hm.1 l) hm.2⟩
  obtain ⟨hattempted, hserved⟩ := Transition.run_preserves hstep ls
    ⟨init_attempted stored outer now, init_served stored outer now⟩
  exact ⟨started_sublist hserved.inOrder, hserved.inOrder, fun job q' ht => takeRunnable_earliest ht,
    fun l => step_board hattempted l, hserved.depth, hserved.deadLetters⟩

end QueueMachine

end MapProtocol
