import MapProtocol.ControlPlane.AsyncQueue

/-!
# What a scheduling pass does

A pass (`maybeRunJobs`) is a loop whose body may start further passes: a job that the exactly-once
guard skips is finished inside the loop, and `finishJob` runs the pass again. `PassRules` names the
five things a pass can do to the queue, and `maybeRunJobs_preserves` is the one induction: what the
five preserve, a pass preserves. No later proof unfolds the loop.

`maybeRunJobs_eq` shows that the fuel of the model's loop never runs out: the pass satisfies the
equation of the source's `while` loop.
-/

namespace MapProtocol

namespace AsyncTaskQueue

variable {ρ ω : Type} {opts : AsyncTaskQueueOptions} {hooks : Hooks ρ ω} {now : Millis}
variable {q q' : AsyncTaskQueue ρ} {job : QueueJob ρ}
  {pass : AsyncTaskQueue ρ × ω → AsyncTaskQueue ρ × ω} {s : AsyncTaskQueue ρ × ω} {k : Nat}

/-! ## Taking a job out of the queue -/

/-- **What `takeRunnable` takes.** A queued job below its tenant's limit; the rest of the queue
keeps its order. -/
theorem takeRunnable_eq_some (h : takeRunnable opts q = some (job, q')) :
    ∃ l₁ l₂, q.queue = l₁ ++ job :: l₂ ∧ q' = { q with queue := l₁ ++ l₂ } ∧
      q.tenantInflight job.tenantKey < q.tenantMax opts job.tenantKey := by
  unfold takeRunnable at h
  cases hf : q.findRunnableJobIndex opts with
  | none => simp [hf] at h
  | some index =>
      obtain ⟨hlt, hrun, _⟩ := List.findIdx?_eq_some_iff_getElem.mp hf
      rw [hf] at h
      simp only [List.getElem?_eq_getElem hlt, Option.some.injEq, Prod.mk.injEq] at h
      obtain ⟨rfl, rfl⟩ := h
      refine ⟨q.queue.take index, q.queue.drop (index + 1), ?_, ?_, by simpa using hrun⟩
      · simp
      · rw [List.eraseIdx_eq_take_drop_succ]

theorem takeRunnable_eq_none (h : takeRunnable opts q = none) :
    ∀ job ∈ q.queue, q.tenantMax opts job.tenantKey ≤ q.tenantInflight job.tenantKey := by
  intro job hjob
  unfold takeRunnable at h
  cases hf : q.findRunnableJobIndex opts with
  | none =>
      have hall := List.findIdx?_eq_none_iff.mp hf job hjob
      simpa using hall
  | some index =>
      obtain ⟨hlt, _, _⟩ := List.findIdx?_eq_some_iff_getElem.mp hf
      simp [hf, List.getElem?_eq_getElem hlt] at h

/-! ## The rules

A pass nests: finishing a skipped job runs a pass of its own. The rules are stated for one turn of
the loop, and the induction over the fuel is made here once. -/

/-- The job starts: it was counted, its effect id was new and is marked, and it is inside
`await job.run()`. `s` is the state with the job already out of the queue. -/
def enter (opts : AsyncTaskQueueOptions) (hooks : Hooks ρ ω) (now : Millis) (job : QueueJob ρ)
    (s : AsyncTaskQueue ρ × ω) : AsyncTaskQueue ρ × ω :=
  (suspend job s.1.runningJobs.length (s.1.runningOfTenant job.tenantKey)
      (s.1.tenantMax opts job.tenantKey)
      { occupy now job s.1 with completedEffects := job.effectId :: s.1.completedEffects },
    hooks.run job s.2)

/-- The job is skipped and finished for the first time, up to the pass that follows. -/
def skip (now : Millis) (job : QueueJob ρ) (s : AsyncTaskQueue ρ × ω) : AsyncTaskQueue ρ × ω :=
  let q := occupy now job s.1
  (release job.tenantKey job.taskId { q with log := .skipped job :: q.log }, s.2)

/-- **The rules of a pass.** What must be shown for `P` to survive a scheduling pass. -/
structure PassRules (opts : AsyncTaskQueueOptions) (hooks : Hooks ρ ω) (now : Millis)
    (P : AsyncTaskQueue ρ × ω → Prop) : Prop where
  reap   : ∀ s, P s → P (reapExpiredLeases now s.1, s.2)
  settle : ∀ s, P s → P (settleProcessing s.1, s.2)
  start  : ∀ s job q', P s → s.1.inflight < opts.concurrent →
    takeRunnable opts s.1 = some (job, q') → job.effectId ∉ q'.completedEffects →
    P (enter opts hooks now job (q', s.2))
  skip   : ∀ s job q', P s → s.1.inflight < opts.concurrent →
    takeRunnable opts s.1 = some (job, q') → job.effectId ∈ q'.completedEffects →
    P (skip now job (q', s.2)) ∧ ∀ s', P s' → P (release job.tenantKey job.taskId s'.1, s'.2)

theorem startJobWith_start (h : job.effectId ∉ s.1.completedEffects) :
    startJobWith opts hooks pass now job s = enter opts hooks now job s := by
  simp [startJobWith, markEffectComplete, occupy, enter, h]

/-- Starting a job, when its effect id is marked already. -/
theorem startJobWith_skip (h : job.effectId ∈ s.1.completedEffects) :
    startJobWith opts hooks pass now job s =
      pass (release job.tenantKey job.taskId (pass (skip now job s)).1,
        (pass (skip now job s)).2) := by
  simp [startJobWith, markEffectComplete, occupy, finishJobWith, skip, h]

variable {P : AsyncTaskQueue ρ × ω → Prop}

theorem PassRules.maybeRunJobsWith (rules : PassRules opts hooks now P)
    {loop : AsyncTaskQueue ρ × ω → AsyncTaskQueue ρ × ω} (hloop : ∀ s, P s → P (loop s)) (h : P s) :
    P (maybeRunJobsWith loop now s) := by
  have hreap := rules.reap s h
  exact rules.settle _ (hloop _ hreap)

/-- One turn of the loop, given that the passes inside it preserve `P`. -/
theorem PassRules.startJobWith (rules : PassRules opts hooks now P)
    {pass : AsyncTaskQueue ρ × ω → AsyncTaskQueue ρ × ω} (hpass : ∀ s, P s → P (pass s))
    {s : AsyncTaskQueue ρ × ω} {job : QueueJob ρ} {q' : AsyncTaskQueue ρ} (h : P s)
    (hcap : s.1.inflight < opts.concurrent) (ht : takeRunnable opts s.1 = some (job, q')) :
    P (startJobWith opts hooks pass now job (q', s.2)) := by
  by_cases he : job.effectId ∈ q'.completedEffects
  · obtain ⟨hskip, hrel⟩ := rules.skip s job q' h hcap ht he
    rw [startJobWith_skip he]
    exact hpass _ (hrel _ (hpass _ hskip))
  · rw [startJobWith_start he]
    exact rules.start s job q' h hcap ht he

theorem PassRules.runLoop (rules : PassRules opts hooks now P) (fuel : Nat) :
    ∀ s, P s → P (runLoop opts hooks now fuel s) := by
  induction fuel with
  | zero => exact fun s h => h
  | succ fuel ih =>
      intro s h
      simp only [AsyncTaskQueue.runLoop]
      split
      · rename_i hcap
        split
        · exact h
        · rename_i job q' ht
          refine ih _ (rules.startJobWith (fun s hs => ?_) h hcap ht)
          exact rules.maybeRunJobsWith ih hs
      · exact h

/-- **The invariant rule of a pass.** -/
theorem maybeRunJobs_preserves (rules : PassRules opts hooks now P) (h : P s) :
    P (maybeRunJobs opts hooks now s) :=
  rules.maybeRunJobsWith (rules.runLoop s.1.queue.length) h

theorem finishJob_preserves (rules : PassRules opts hooks now P) {tenantKey taskId : String}
    (h : P (release tenantKey taskId s.1, s.2)) :
    P (finishJob opts hooks now tenantKey taskId s) :=
  maybeRunJobs_preserves rules h

/-! ## The loop is the source's

The fuel is the number of queued jobs. Every turn takes one job out of the queue, so more fuel
changes nothing and the recursion is the `while` of the source. -/

@[simp] theorem reapExpiredLeases_queue (q : AsyncTaskQueue ρ) :
    (reapExpiredLeases now q).queue = q.queue := by
  have hfold : ∀ (ls : List (String × Millis)) (q : AsyncTaskQueue ρ),
      (ls.foldl reapLease q).queue = q.queue := by
    intro ls
    induction ls with
    | nil => intro q; rfl
    | cons l ls ih => intro q; rw [List.foldl_cons, ih]; rfl
  unfold reapExpiredLeases
  dsimp only
  split <;> exact hfold _ q

@[simp] theorem settleProcessing_queue (q : AsyncTaskQueue ρ) :
    (settleProcessing q).queue = q.queue := by
  unfold settleProcessing
  split <;> rfl

theorem takeRunnable_length (h : takeRunnable opts q = some (job, q')) :
    q'.queue.length + 1 = q.queue.length := by
  obtain ⟨l₁, l₂, hq, rfl, _⟩ := takeRunnable_eq_some h
  simp [hq]
  omega

theorem takeRunnable_nil (h : q.queue = []) :
    takeRunnable opts q = none := by
  simp [takeRunnable, findRunnableJobIndex, h]

theorem passRules_length (k : Nat) :
    PassRules opts hooks now fun s => s.1.queue.length ≤ k where
  reap s h := by simpa using h
  settle s h := by simpa using h
  start s job q' h _ ht _ := by
    have hlen := takeRunnable_length ht
    show q'.queue.length ≤ k
    omega
  skip s job q' h _ ht _ := by
    have hlen := takeRunnable_length ht
    refine ⟨?_, fun s' hs' => hs'⟩
    show q'.queue.length ≤ k
    omega

theorem pass_length {k n : Nat} {t : AsyncTaskQueue ρ × ω} (h : t.1.queue.length ≤ n) :
    (maybeRunJobsWith (runLoop opts hooks now k) now t).1.queue.length ≤ n :=
  have rules : PassRules opts hooks now fun s => s.1.queue.length ≤ n := passRules_length n
  rules.maybeRunJobsWith (rules.runLoop k) h

theorem startJobWith_length :
    (startJobWith opts hooks (maybeRunJobsWith (runLoop opts hooks now k) now) now job
      s).1.queue.length ≤ s.1.queue.length := by
  by_cases he : job.effectId ∈ s.1.completedEffects
  · rw [startJobWith_skip he]
    exact pass_length (pass_length (Nat.le_refl _))
  · rw [startJobWith_start he]
    exact Nat.le_refl _

/-- `startJob` calls its pass only on states with no more queued jobs than it was given. -/
theorem startJobWith_congr {k : Nat} {pass : AsyncTaskQueue ρ × ω → AsyncTaskQueue ρ × ω}
    {job : QueueJob ρ} {s : AsyncTaskQueue ρ × ω}
    (heq : ∀ t, t.1.queue.length ≤ s.1.queue.length →
      maybeRunJobsWith (runLoop opts hooks now k) now t = pass t) :
    startJobWith opts hooks (maybeRunJobsWith (runLoop opts hooks now k) now) now job s =
      startJobWith opts hooks pass now job s := by
  by_cases he : job.effectId ∈ s.1.completedEffects
  · have hfirst := heq (skip now job s) (Nat.le_refl _)
    have hle : (maybeRunJobsWith (runLoop opts hooks now k) now
        (skip now job s)).1.queue.length ≤ s.1.queue.length := pass_length (Nat.le_refl _)
    rw [startJobWith_skip he, startJobWith_skip he, ← hfirst]
    exact heq _ hle
  · rw [startJobWith_start he, startJobWith_start he]

/-- Fuel beyond the number of queued jobs changes nothing. -/
theorem runLoop_fuel (n : Nat) : ∀ (m : Nat) (s : AsyncTaskQueue ρ × ω),
    s.1.queue.length ≤ n → s.1.queue.length ≤ m →
      runLoop opts hooks now n s = runLoop opts hooks now m s := by
  induction n with
  | zero =>
      intro m s hn _
      have hnil : s.1.queue = [] := List.eq_nil_of_length_eq_zero (by omega)
      cases m with
      | zero => rfl
      | succ m => simp [runLoop, takeRunnable_nil hnil]
  | succ n ih =>
      intro m s hn hm
      cases m with
      | zero =>
          have hnil : s.1.queue = [] := List.eq_nil_of_length_eq_zero (by omega)
          simp [runLoop, takeRunnable_nil hnil]
      | succ m =>
          simp only [runLoop]
          split
          · split
            · rfl
            · rename_i job q' ht
              have hlen := takeRunnable_length ht
              -- a skipped job runs the loop again, on a queue that is shorter by the job taken
              have hstart : startJobWith opts hooks
                    (maybeRunJobsWith (runLoop opts hooks now n) now) now job (q', s.2) =
                  startJobWith opts hooks
                    (maybeRunJobsWith (runLoop opts hooks now m) now) now job (q', s.2) := by
                refine startJobWith_congr fun t ht' => ?_
                have hle : t.1.queue.length ≤ q'.queue.length := ht'
                simp only [maybeRunJobsWith]
                rw [ih m (reapExpiredLeases now t.1, t.2) (by simp; omega) (by simp; omega)]
              have hafter : (startJobWith opts hooks
                  (maybeRunJobsWith (runLoop opts hooks now m) now) now job
                    (q', s.2)).1.queue.length ≤ q'.queue.length := startJobWith_length
              rw [hstart, ih m _ (by omega) (by omega)]
          · rfl

/-- The loop of a pass with as much fuel as there are queued jobs. -/
def whileLoop (opts : AsyncTaskQueueOptions) (hooks : Hooks ρ ω) (now : Millis)
    (s : AsyncTaskQueue ρ × ω) : AsyncTaskQueue ρ × ω :=
  runLoop opts hooks now s.1.queue.length s

/-- **The pass is the source's.** Reap, loop, settle; -/
theorem maybeRunJobs_eq (s : AsyncTaskQueue ρ × ω) :
    maybeRunJobs opts hooks now s =
      (settleProcessing (whileLoop opts hooks now (reapExpiredLeases now s.1, s.2)).1,
        (whileLoop opts hooks now (reapExpiredLeases now s.1, s.2)).2) := by
  simp [maybeRunJobs, maybeRunJobsWith, whileLoop]

/-- and the loop satisfies the equation of `while (this.inflight < this.maxConcurrent)`. -/
theorem whileLoop_eq (s : AsyncTaskQueue ρ × ω) :
    whileLoop opts hooks now s =
      if s.1.inflight < opts.concurrent then
        match takeRunnable opts s.1 with
        | none          => s
        | some (job, q) => whileLoop opts hooks now (startJob opts hooks now job (q, s.2))
      else s := by
  cases hlen : s.1.queue.length with
  | zero =>
      have hnil : s.1.queue = [] := List.eq_nil_of_length_eq_zero hlen
      simp [whileLoop, hlen, runLoop, takeRunnable_nil hnil]
  | succ n =>
      rw [whileLoop, hlen]
      simp only [runLoop]
      split
      · cases ht : takeRunnable opts s.1 with
        | none => rfl
        | some taken =>
          obtain ⟨job, q'⟩ := taken
          have htaken := takeRunnable_length ht
          -- the nested pass has all its fuel, one less than the queue had jobs
          have hstart : startJobWith opts hooks
                (maybeRunJobsWith (runLoop opts hooks now n) now) now job (q', s.2) =
              startJob opts hooks now job (q', s.2) := by
            refine startJobWith_congr fun t ht' => ?_
            have hle : t.1.queue.length ≤ q'.queue.length := ht'
            simp only [maybeRunJobs, maybeRunJobsWith]
            rw [runLoop_fuel n t.1.queue.length (reapExpiredLeases now t.1, t.2)
              (by simp; omega) (by simp)]
          have hafter : (startJob opts hooks now job (q', s.2)).1.queue.length
              ≤ q'.queue.length := by
            rw [← hstart]
            exact startJobWith_length
          have hn : (startJob opts hooks now job (q', s.2)).1.queue.length ≤ n := by omega
          show runLoop opts hooks now n _ = _
          rw [hstart, runLoop_fuel n _ _ hn (Nat.le_refl _)]
          rfl
      · rfl

/-! ## The other operations -/

theorem find?_split {α : Type} {p : α → Bool} {a : α} {l : List α} (h : l.find? p = some a) :
    ∃ l₁ l₂, l = l₁ ++ a :: l₂ ∧ l.eraseP p = l₁ ++ l₂ := by
  obtain ⟨hp, l₁, l₂, rfl, hbefore⟩ := List.find?_eq_some_iff_append.mp h
  refine ⟨l₁, l₂, rfl, ?_⟩
  rw [List.eraseP_append_right _ (fun b hb => by simpa using hbefore b hb),
    List.eraseP_cons_of_pos hp]

theorem reapExpiredLeases_eq (now : Millis) (q : AsyncTaskQueue ρ) : ∃ leasedJobs inflight processing,
    reapExpiredLeases now q =
      { q with leasedJobs := leasedJobs, inflight := inflight, processing := processing } := by
  have hfold : ∀ (ls : List (String × Millis)) (q : AsyncTaskQueue ρ), ∃ leasedJobs inflight,
      ls.foldl reapLease q = { q with leasedJobs := leasedJobs, inflight := inflight } := by
    intro ls
    induction ls with
    | nil => exact fun q => ⟨_, _, rfl⟩
    | cons l ls ih => exact fun q => ih (reapLease q l)
  obtain ⟨leasedJobs, inflight, heq⟩ := hfold (q.expiredLeases now) q
  unfold reapExpiredLeases
  dsimp only
  rw [heq]
  split
  · exact ⟨_, _, _, rfl⟩
  · exact ⟨_, _, _, rfl⟩

theorem reapExpiredLeases_inflight_le (now : Millis) (q : AsyncTaskQueue ρ) :
    (reapExpiredLeases now q).inflight ≤ q.inflight := by
  have hfold : ∀ (ls : List (String × Millis)) (q : AsyncTaskQueue ρ),
      (ls.foldl reapLease q).inflight ≤ q.inflight := by
    intro ls
    induction ls with
    | nil => exact fun q => Nat.le_refl _
    | cons l ls ih => exact fun q => (ih (reapLease q l)).trans (Nat.sub_le _ _)
  unfold reapExpiredLeases
  dsimp only
  split
  · exact hfold _ q
  · exact hfold _ q

theorem settleProcessing_eq (q : AsyncTaskQueue ρ) : ∃ processing,
    settleProcessing q = { q with processing := processing } := by
  unfold settleProcessing
  split
  · exact ⟨_, rfl⟩
  · exact ⟨_, rfl⟩

theorem kickoff_eq (q : AsyncTaskQueue ρ) : ∃ processing microtasks,
    kickoff q = { q with processing := processing, microtasks := microtasks } := by
  unfold kickoff
  split
  · exact ⟨_, _, rfl⟩
  · exact ⟨_, _, rfl⟩

/-- **The invariant rule of the outbox loop.** -/
theorem deliverAll_preserves {P : AsyncTaskQueue ρ × ω → Prop}
    (hdeliver : ∀ s message, P s → P (deliver hooks s message).2) (messages : List OutboxMessage)
    (h : P s) :
    P (deliverAll hooks s messages).2 := by
  induction messages generalizing s with
  | nil => exact h
  | cons message messages ih => exact ih (hdeliver s message h)

/-- **What recording a dead letter changes.** The dead letter is logged; where the write of the
dead-letter file does not throw, `onDeadLetter` is called once after it. Nothing that the scheduler
reads changes, no message that waits for delivery is added to the outbox, and the only callback that
may be kept for the outbox is the job's. -/
def Buried (opts : AsyncTaskQueueOptions) (hooks : Hooks ρ ω) (fault : Option String)
    (job : QueueJob ρ) (record : DeadLetterRecord) (s s' : AsyncTaskQueue ρ × ω) : Prop :=
  ∃ deadLetters quarantinedJobs outbox callbacks log,
    s'.1 = { s.1 with
      deadLetters := deadLetters
      quarantinedJobs := quarantinedJobs
      outbox := outbox
      deadLetterCallbacks := callbacks
      log := log } ∧
    (∀ message ∈ outbox, message ∈ s.1.outbox ∨ message.delivered = true) ∧
    (∀ called ∈ callbacks.values, called = job ∨ called ∈ s.1.deadLetterCallbacks.values) ∧
    ((persistDeadLetters opts fault = .ok () ∧
        log = .calledBack job :: .deadLettered job record :: s.1.log ∧
        s'.2 = (hooks.onDeadLetter job record s.2).2) ∨
      (persistDeadLetters opts fault ≠ .ok () ∧ log = .deadLettered job record :: s.1.log ∧
        s'.2 = s.2))

theorem runFailed_retry {error fault : Option String} (h : job.attempt < opts.attempts) :
    runFailed opts hooks now fault job error s =
      let t := finishJob opts hooks now job.tenantKey job.taskId
        ({ s.1 with completedEffects := s.1.completedEffects.filter (· ≠ job.effectId) }, s.2)
      ({ t.1 with
          pendingRetry := t.1.pendingRetry + 1
          retryTimers := t.1.retryTimers ++ [(job, error.getD "Async queue job failed.")] }, t.2) := by
  simp [runFailed, h]

/-- A failed job without attempts left is recorded, then finished. -/
theorem runFailed_recorded (hooks : Hooks ρ ω) (now : Millis) (error fault : Option String)
    (s : AsyncTaskQueue ρ × ω) (h : ¬ job.attempt < opts.attempts) :
    ∃ record s', Buried opts hooks fault job record s s' ∧
      record =
        ⟨job.taskId, job.tenantId, job.attempt, error.getD "Async queue job failed.", now⟩ ∧
      s'.1.deadLetters = trimDeadLetters opts (s.1.deadLetters ++ [record]) ∧
      runFailed opts hooks now fault job error s =
        finishJob opts hooks now job.tenantKey job.taskId s' := by
  unfold runFailed
  simp only [h, if_false]
  unfold recordDeadLetter
  cases hp : persistDeadLetters opts fault with
  | error e =>
      dsimp only
      -- the write throws: no callback and no message
      refine ⟨_, _, ?_, rfl, rfl, rfl⟩
      exact ⟨_, _, _, _, _, rfl, fun m hm => .inl hm, fun _ hc => .inr hc,
        .inr ⟨by simp [hp], rfl, rfl⟩⟩
  | ok u =>
      dsimp only
      split
      · rename_i w heq
        refine ⟨_, _, ?_, rfl, rfl, rfl⟩
        exact ⟨_, _, _, _, _, rfl, fun m hm => .inl hm, fun _ hc => .inr hc,
          .inl ⟨hp, rfl, (congrArg Prod.snd heq).symm⟩⟩
      · rename_i w heq
        refine ⟨_, _, ?_, rfl, rfl, rfl⟩
        refine ⟨_, _, _, _, _, rfl, ?_, ?_, .inl ⟨hp, rfl, (congrArg Prod.snd heq).symm⟩⟩
        · intro m hm
          rcases List.mem_append.mp hm with hold | hnew
          · exact .inl hold
          · rw [List.mem_singleton.mp hnew]
            exact .inr rfl
        · exact fun _ hc => OrderedMap.mem_values_set hc

theorem retryFired_stopped {job : QueueJob ρ} {message : String} {fault : Option String}
    {s : AsyncTaskQueue ρ × ω} (h : s.1.running = false) :
    retryFired opts hooks now fault job message s = s := by
  simp [retryFired, h]

/-- A retry timer that fires on a full queue records a dead letter. -/
theorem retryFired_buried (hooks : Hooks ρ ω) (now : Millis) (job : QueueJob ρ)
    (message : String) (fault : Option String) {s : AsyncTaskQueue ρ × ω} (h : s.1.running = true)
    (hfull : opts.queueDepth ≤ s.1.queue.length) :
    Buried opts hooks fault job
      ⟨job.taskId, job.tenantId, job.attempt + 1, "Queue capacity reached while retrying job.", now⟩
      ({ s.1 with pendingRetry := s.1.pendingRetry - 1 }, s.2)
      (retryFired opts hooks now fault job message s) := by
  unfold retryFired
  simp only [h, if_true, ge_iff_le, hfull]
  unfold recordDeadLetter
  cases hp : persistDeadLetters opts fault with
  | error e =>
      refine ⟨_, _, _, _, _, rfl, fun m hm => .inl hm, fun _ hc => .inr hc, .inr ⟨?_, rfl, rfl⟩⟩
      simp [hp]
  | ok u =>
      dsimp only
      split
      · rename_i w heq
        exact ⟨_, _, _, _, _, rfl, fun m hm => .inl hm, fun _ hc => .inr hc,
          .inl ⟨hp, rfl, (congrArg Prod.snd heq).symm⟩⟩
      · rename_i w heq
        exact ⟨_, _, _, _, _, rfl, fun m hm => .inl hm, fun _ hc => .inr hc,
          .inl ⟨hp, rfl, (congrArg Prod.snd heq).symm⟩⟩

/-- The dead letters after a retry timer fired on a full queue. -/
theorem retryFired_deadLetters {message : String} {fault : Option String} (h : s.1.running = true)
    (hfull : opts.queueDepth ≤ s.1.queue.length) :
    (retryFired opts hooks now fault job message s).1.deadLetters =
      trimDeadLetters opts (s.1.deadLetters ++ [⟨job.taskId, job.tenantId, job.attempt + 1,
        "Queue capacity reached while retrying job.", now⟩]) := by
  unfold retryFired
  simp only [h, if_true, ge_iff_le, hfull]
  unfold recordDeadLetter
  cases persistDeadLetters opts fault with
  | error e => rfl
  | ok u =>
      dsimp only
      split <;> rfl

/-- A retry timer that finds room queues the job again. -/
theorem retryFired_requeued {job : QueueJob ρ} {message : String} {fault : Option String}
    {s : AsyncTaskQueue ρ × ω} (h : s.1.running = true)
    (hroom : ¬ opts.queueDepth ≤ s.1.queue.length) :
    retryFired opts hooks now fault job message s =
      (kickoff { s.1 with
          pendingRetry := s.1.pendingRetry - 1
          queue := s.1.queue ++ [{ job with attempt := job.attempt + 1 }] }, s.2) := by
  simp [retryFired, h, hroom]

/-! ## What a job does that settles, and one whose timer fires

Both leave the place where they were found. A failure goes to a timer while attempts are left, and a
timer puts its job back while there is room; otherwise the job is buried. -/

section

variable (opts : AsyncTaskQueueOptions) (hooks : Hooks ρ ω) (now : Millis) (id : Nat)
  (fault : Option String) (q : AsyncTaskQueue ρ) (w : ω)

/-- **What the end of a closure can do.** -/
inductive Settles : Except (Option String) Unit → AsyncTaskQueue ρ × ω → Prop
  | absent {outcome : Except (Option String) Unit}
      (h : q.runningJobs.find? (·.id == id) = none) : Settles outcome (q, w)
  | succeeded {job : QueueJob ρ} {l₁ l₂ : List (QueueJob ρ)}
      (hfind : q.runningJobs.find? (·.id == id) = some job) (hq : q.runningJobs = l₁ ++ job :: l₂) :
      Settles (.ok ()) (runSucceeded opts hooks now job ({ q with runningJobs := l₁ ++ l₂ }, w))
  | retried {job : QueueJob ρ} {l₁ l₂ : List (QueueJob ρ)} {e : Option String}
      {s : AsyncTaskQueue ρ × ω} (hfind : q.runningJobs.find? (·.id == id) = some job)
      (hq : q.runningJobs = l₁ ++ job :: l₂) (hattempt : job.attempt < opts.attempts)
      (hs : s = finishJob opts hooks now job.tenantKey job.taskId ({ q with
        runningJobs := l₁ ++ l₂
        completedEffects := q.completedEffects.filter (· ≠ job.effectId) }, w)) :
      Settles (.error e) ({ s.1 with
        pendingRetry := s.1.pendingRetry + 1
        retryTimers := s.1.retryTimers ++ [(job, e.getD "Async queue job failed.")] }, s.2)
  | buried {job : QueueJob ρ} {l₁ l₂ : List (QueueJob ρ)} {e : Option String}
      {record : DeadLetterRecord} {s : AsyncTaskQueue ρ × ω}
      (hfind : q.runningJobs.find? (·.id == id) = some job) (hq : q.runningJobs = l₁ ++ job :: l₂)
      (hattempt : ¬ job.attempt < opts.attempts)
      (hrecord : record =
        ⟨job.taskId, job.tenantId, job.attempt, e.getD "Async queue job failed.", now⟩)
      (hburied : Buried opts hooks fault job record ({ q with runningJobs := l₁ ++ l₂ }, w) s)
      (hletters : s.1.deadLetters = trimDeadLetters opts (q.deadLetters ++ [record])) :
      Settles (.error e) (finishJob opts hooks now job.tenantKey job.taskId s)

theorem settle_cases (outcome : Except (Option String) Unit) :
    Settles opts hooks now id fault q w outcome (settle opts hooks now id outcome fault (q, w)) := by
  unfold settle
  dsimp only
  split
  · exact .absent ‹_›
  · rename_i job hfind
    obtain ⟨l₁, l₂, hq, herase⟩ := find?_split hfind
    rw [herase]
    cases outcome with
    | ok u => exact .succeeded hfind hq
    | error e =>
        dsimp only
        by_cases hattempt : job.attempt < opts.attempts
        · rw [runFailed_retry hattempt]
          exact .retried hfind hq hattempt rfl
        · obtain ⟨record, s, hburied, hrecord, hletters, heq⟩ := runFailed_recorded hooks now e fault
            ({ q with runningJobs := l₁ ++ l₂ }, w) hattempt
          rw [heq]
          exact .buried hfind hq hattempt hrecord hburied hletters

/-- **What a retry timer can do.** -/
inductive TimerFires : AsyncTaskQueue ρ × ω → Prop
  | absent (h : q.retryTimers.find? (·.1.id == id) = none) : TimerFires (q, w)
  | stopped {job : QueueJob ρ} {message : String} {l₁ l₂ : List (QueueJob ρ × String)}
      (hq : q.retryTimers = l₁ ++ (job, message) :: l₂) (hrun : q.running = false) :
      TimerFires ({ q with retryTimers := l₁ ++ l₂ }, w)
  | buried {job : QueueJob ρ} {message : String} {l₁ l₂ : List (QueueJob ρ × String)}
      {record : DeadLetterRecord} {s : AsyncTaskQueue ρ × ω}
      (hq : q.retryTimers = l₁ ++ (job, message) :: l₂) (hrun : q.running = true)
      (hfull : opts.queueDepth ≤ q.queue.length)
      (hrecord : record = ⟨job.taskId, job.tenantId, job.attempt + 1,
        "Queue capacity reached while retrying job.", now⟩)
      (hburied : Buried opts hooks fault job record
        ({ q with retryTimers := l₁ ++ l₂, pendingRetry := q.pendingRetry - 1 }, w) s)
      (hletters : s.1.deadLetters = trimDeadLetters opts (q.deadLetters ++ [record])) : TimerFires s
  | requeued {job : QueueJob ρ} {message : String} {l₁ l₂ : List (QueueJob ρ × String)}
      (hfind : q.retryTimers.find? (·.1.id == id) = some (job, message))
      (hq : q.retryTimers = l₁ ++ (job, message) :: l₂) (hrun : q.running = true)
      (hroom : q.queue.length < opts.queueDepth) :
      TimerFires (kickoff { q with
        retryTimers := l₁ ++ l₂
        pendingRetry := q.pendingRetry - 1
        queue := q.queue ++ [{ job with attempt := job.attempt + 1 }] }, w)

theorem fireTimer_cases : TimerFires opts hooks now id fault q w
    (fireTimer opts hooks now id fault (q, w)) := by
  unfold fireTimer
  dsimp only
  split
  · exact .absent ‹_›
  · rename_i job message hfind
    obtain ⟨l₁, l₂, hq, herase⟩ := find?_split hfind
    rw [herase]
    by_cases hrun : q.running = true
    · by_cases hfull : opts.queueDepth ≤ q.queue.length
      · exact .buried hq hrun hfull rfl (retryFired_buried hooks now job message fault
          (s := ({ q with retryTimers := l₁ ++ l₂ }, w)) hrun hfull) (retryFired_deadLetters hrun hfull)
      · rw [retryFired_requeued hrun hfull]
        exact .requeued hfind hq hrun (Nat.lt_of_not_le hfull)
    · rw [retryFired_stopped (by simpa using hrun)]
      exact .stopped hq (by simpa using hrun)

end

end AsyncTaskQueue

end MapProtocol
