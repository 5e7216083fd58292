import MapProtocol.ControlPlane.QueueAccounting
import MapProtocol.ControlPlane.QueueView

/-!
# Wake-ups

A queued job starts only in a scheduling pass, and a pass runs only as a microtask of `kickoff` or
at the end of a job. `Awake` says that a job that could start now has a pass coming.

Every pass leaves no job that could start (`maybeRunJobs_exhausts`), so a wake-up can only be lost
where a job becomes startable outside a pass: when it is queued, when it comes back from its retry
timer, and when its tenant's quota is raised. There `kickoff` returns early while `processing` is
set, which it is for as long as a job runs. `StepWakes` is the exact condition under which a step
keeps the queue awake.

What holds without the condition is that a queued job has a microtask or a running job to wait for
(`Backed`): it starts at the latest when a running job ends.
-/

namespace MapProtocol

namespace AsyncTaskQueue

variable {ρ ω : Type} {opts : AsyncTaskQueueOptions} {hooks : Hooks ρ ω} {now : Millis}
variable {q : AsyncTaskQueue ρ}

/-- A queued job could start now: a slot is free and its tenant is below its limit. -/
def Startable (opts : AsyncTaskQueueOptions) (q : AsyncTaskQueue ρ) : Prop :=
  q.inflight < opts.concurrent ∧
    ∃ job ∈ q.queue, q.tenantInflight job.tenantKey < q.tenantMax opts job.tenantKey

/-- **No lost wake-up.** Unless the queue is stopped, a job that could start has a pass coming. -/
def Awake (opts : AsyncTaskQueueOptions) (q : AsyncTaskQueue ρ) : Prop :=
  q.running = true → Startable opts q → q.microtasks ≠ 0

/-- The queue is not stopped and has a free slot, but no pass is coming. -/
def Asleep (opts : AsyncTaskQueueOptions) (q : AsyncTaskQueue ρ) : Prop :=
  q.running = true ∧ q.inflight < opts.concurrent ∧ q.microtasks = 0

/-! ## A pass leaves nothing to start

The loop ends only when no slot is free or every queued job is of a tenant at its limit. -/

theorem startJob_length (job : QueueJob ρ) (s : AsyncTaskQueue ρ × ω) :
    (startJob opts hooks now job s).1.queue.length ≤ s.1.queue.length := by
  by_cases he : job.effectId ∈ s.1.completedEffects
  · unfold startJob
    rw [startJobWith_skip he]
    exact pass_length (pass_length (Nat.le_refl _))
  · unfold startJob
    rw [startJobWith_start he]
    exact Nat.le_refl _

/-- By strong induction on the number of queued jobs: every turn of the loop takes one. -/
theorem whileLoop_exhausts (s : AsyncTaskQueue ρ × ω) :
    ¬ Startable opts (whileLoop opts hooks now s).1 := by
  induction hn : s.1.queue.length using Nat.strong_induction_on generalizing s with
  | _ n ih =>
    rw [whileLoop_eq]
    split
    · cases ht : takeRunnable opts s.1 with
      | none =>
          -- the loop ends because every tenant with a queued job is at its limit
          rintro ⟨_, job, hjob, hbelow⟩
          have hfull := takeRunnable_eq_none ht job hjob
          exact absurd hbelow (Nat.not_lt.mpr hfull)
      | some taken =>
          obtain ⟨job, q'⟩ := taken
          have htaken := takeRunnable_length ht
          have hle : (startJob opts hooks now job (q', s.2)).1.queue.length ≤ q'.queue.length :=
            startJob_length job (q', s.2)
          exact ih _ (by omega) _ rfl
    · -- the loop ends because no slot is free
      rename_i hfull
      exact fun h => hfull h.1

/-- **A pass leaves no job that could start.** -/
theorem maybeRunJobs_exhausts (s : AsyncTaskQueue ρ × ω) :
    ¬ Startable opts (maybeRunJobs opts hooks now s).1 := by
  rw [maybeRunJobs_eq]
  obtain ⟨processing, heq⟩ :=
    settleProcessing_eq (whileLoop opts hooks now (reapExpiredLeases now s.1, s.2)).1
  dsimp only
  rw [heq]
  exact whileLoop_exhausts (reapExpiredLeases now s.1, s.2)

theorem finishJob_exhausts (tenantKey taskId : String) (s : AsyncTaskQueue ρ × ω) :
    ¬ Startable opts (finishJob opts hooks now tenantKey taskId s).1 :=
  maybeRunJobs_exhausts _

/-! ## Where a wake-up is lost

`kickoff` starts no pass while `processing` is set. A job that is queued then waits for the end of a
running one. -/

theorem awake_of_exhausted (h : ¬ Startable opts q) : Awake opts q :=
  fun _ hstartable => absurd hstartable h

theorem Awake.not_startable (h : Awake opts q) (hasleep : Asleep opts q) :
    ¬ Startable opts q :=
  fun hstartable => h hasleep.1 hstartable hasleep.2.2

/-- Queueing one job more, with the pass that `kickoff` may start: the queue stays awake unless it
sleeps while the new job could start. -/
theorem awake_kickoff {job : QueueJob ρ} (q' : AsyncTaskQueue ρ) (h : Awake opts q)
    (hqueue : q'.queue = q.queue ++ [job]) (hinflight : q'.inflight = q.inflight)
    (htenant : q'.inflightByTenant = q.inflightByTenant) (hquota : q'.tenantQuota = q.tenantQuota)
    (hprocessing : q'.processing = q.processing) (hmicrotasks : q'.microtasks = q.microtasks)
    (hrunning : q'.running = q.running) :
    Awake opts (kickoff q') ↔ (Asleep opts q → q.processing = true →
      q.tenantMax opts job.tenantKey ≤ q.tenantInflight job.tenantKey) := by
  have hlimit : ∀ key, q'.tenantMax opts key = q.tenantMax opts key := by
    intro key
    unfold tenantMax
    rw [hquota]
  have hcount : ∀ key, q'.tenantInflight key = q.tenantInflight key := by
    intro key
    unfold tenantInflight
    rw [htenant]
  unfold kickoff
  cases hp : q'.processing with
  | false =>
      -- `kickoff` schedules a microtask
      rw [hprocessing] at hp
      refine ⟨fun _ _ htrue => by simp [hp] at htrue, fun _ _ _ => ?_⟩
      exact Nat.succ_ne_zero _
  | true =>
      -- `kickoff` returns early, so the new job must not be one that could start
      rw [hprocessing] at hp
      constructor
      · rintro hawake ⟨hrun, hslot, hpending⟩ _
        refine Nat.not_lt.mp fun hbelow => ?_
        refine hawake (hrunning.trans hrun) ⟨hinflight ▸ hslot, job, ?_, ?_⟩
          (hmicrotasks.trans hpending)
        · show job ∈ q'.queue
          rw [hqueue]
          exact List.mem_append_right _ (List.mem_singleton_self job)
        · rw [← hcount, ← hlimit] at hbelow
          exact hbelow
      · rintro hfull hrun ⟨hslot, other, hother, hbelow⟩ hpending
        have hasleep : Asleep opts q :=
          ⟨hrunning.symm.trans hrun, hinflight ▸ hslot, hmicrotasks.symm.trans hpending⟩
        have hmem : other ∈ q'.queue := hother
        have hlt : q.tenantInflight other.tenantKey < q.tenantMax opts other.tenantKey := by
          rw [← hcount, ← hlimit]
          exact hbelow
        rw [hqueue] at hmem
        rcases List.mem_append.mp hmem with hold | hnew
        · exact h.not_startable hasleep ⟨hasleep.2.1, other, hold, hlt⟩
        · rw [List.mem_singleton.mp hnew] at hlt
          exact absurd hlt (Nat.not_lt.mpr (hfull hasleep hp))

end AsyncTaskQueue

namespace QueueMachine

open AsyncTaskQueue

variable {ρ ω : Type} {opts : AsyncTaskQueueOptions} {hooks : Hooks ρ ω}
variable {q : AsyncTaskQueue ρ}

/-- A job of the tenant may be queued: the queue does not sleep while it is `processing`, or the
tenant is at its limit. -/
def Heard (opts : AsyncTaskQueueOptions) (q : AsyncTaskQueue ρ) (tenantKey : String) : Prop :=
  Asleep opts q → q.processing = true → q.tenantMax opts tenantKey ≤ q.tenantInflight tenantKey

/-- **The condition on a step.** A job that the label queues is heard, and a quota that it sets on a
sleeping queue lets no queued job start. -/
def StepWakes (opts : AsyncTaskQueueOptions) (m : QueueMachine ρ ω) : QueueLabel ρ → Prop
  | .enqueue params => m.queue.queue.length < opts.queueDepth →
      Heard opts m.queue (resolveTenantKey params.tenantId)
  | .retryTimer id _ => m.queue.running = true → m.queue.queue.length < opts.queueDepth →
      ∀ entry, m.queue.retryTimers.find? (·.1.id == id) = some entry →
        Heard opts m.queue entry.1.tenantKey
  | .setTenantQuota tenantId quota => Asleep opts m.queue → ∀ job ∈ m.queue.queue,
      job.tenantKey = resolveTenantKey (some tenantId) →
        max 1 quota ≤ m.queue.tenantInflight job.tenantKey
  | _ => True

theorem settle_awake {w : ω} {now : Millis} {id : Nat} {outcome : Except (Option String) Unit}
    {fault : Option String} (h : Awake opts q) :
    Awake opts (settle opts hooks now id outcome fault (q, w)).1 := by
  have hcases := settle_cases opts hooks now id fault q w outcome
  generalize settle opts hooks now id outcome fault (q, w) = s at hcases ⊢
  cases hcases with
  | absent => exact h
  | succeeded => exact awake_of_exhausted (finishJob_exhausts _ _ _)
  | @retried job _ _ _ _ _ _ _ hs =>
      rw [hs]
      exact awake_of_exhausted (finishJob_exhausts job.tenantKey job.taskId _)
  | buried => exact awake_of_exhausted (finishJob_exhausts _ _ _)

theorem fireTimer_awake {q : AsyncTaskQueue ρ} {w : ω} {now : Millis} {id : Nat}
    {fault : Option String} (h : Awake opts q) :
    Awake opts (fireTimer opts hooks now id fault (q, w)).1 ↔
      (q.running = true → q.queue.length < opts.queueDepth →
        ∀ entry, q.retryTimers.find? (·.1.id == id) = some entry →
          Heard opts q entry.1.tenantKey) := by
  have hcases := fireTimer_cases opts hooks now id fault q w
  generalize fireTimer opts hooks now id fault (q, w) = s at hcases ⊢
  cases hcases with
  | absent hnone => exact ⟨fun _ _ _ entry hentry => absurd hentry (by simp [hnone]), fun _ => h⟩
  | stopped _ hrun => exact ⟨fun _ htrue => absurd htrue (by simp [hrun]), fun _ => h⟩
  | buried _ _ hfull _ hburied =>
      obtain ⟨_, _, _, _, _, heq, _⟩ := hburied
      rw [heq]
      exact ⟨fun _ _ hroom => absurd hroom (Nat.not_lt.mpr hfull), fun _ => h⟩
  | @requeued job message l₁ l₂ hfind _ hrun hroom =>
      -- the job is queued again, which is an enqueue as far as waking goes
      have hiff := awake_kickoff { q with
          retryTimers := l₁ ++ l₂
          pendingRetry := q.pendingRetry - 1
          queue := q.queue ++ [{ job with attempt := job.attempt + 1 }] }
        h rfl rfl rfl rfl rfl rfl rfl
      refine hiff.trans ⟨fun hheard _ _ entry hentry => ?_, fun hall => hall hrun hroom _ hfind⟩
      obtain rfl := Option.some.inj (hfind.symm.trans hentry)
      exact hheard

theorem enqueue_awake {params : EnqueueParams ρ} (h : Awake opts q) :
    Awake opts (q.enqueue opts params).2 ↔ (q.queue.length < opts.queueDepth →
      Heard opts q (resolveTenantKey params.tenantId)) := by
  unfold enqueue
  split
  · rename_i hfull
    exact ⟨fun _ hroom => absurd hroom (Nat.not_lt.mpr hfull), fun _ => h⟩
  · rename_i hroom
    have hiff := awake_kickoff { q with
        queue := q.queue ++ [newJob q params], accepted := q.accepted ++ [newJob q params] }
      h rfl rfl rfl rfl rfl rfl rfl
    exact hiff.trans ⟨fun hheard _ => hheard, fun hall => hall (Nat.lt_of_not_le hroom)⟩

theorem setTenantQuota_awake {tenantId : String} {quota : Nat} (h : Awake opts q) :
    Awake opts (q.setTenantQuota tenantId quota) ↔ (Asleep opts q → ∀ job ∈ q.queue,
      job.tenantKey = resolveTenantKey (some tenantId) →
        max 1 quota ≤ q.tenantInflight job.tenantKey) := by
  have hlimit : ∀ key, (q.setTenantQuota tenantId quota).tenantMax opts key =
      if resolveTenantKey (some tenantId) = key then max 1 quota else q.tenantMax opts key := by
    intro key
    unfold setTenantQuota tenantMax
    dsimp only
    rw [OrderedMap.get_set]
    split <;> rfl
  constructor
  · rintro hawake ⟨hrun, hslot, hpending⟩ job hjob hkey
    refine Nat.not_lt.mp fun hbelow => hawake hrun ⟨hslot, job, hjob, ?_⟩ hpending
    rw [hlimit, if_pos hkey.symm]
    exact hbelow
  · rintro hall hrun ⟨hslot, job, hjob, hbelow⟩ hpending
    have hasleep : Asleep opts q := ⟨hrun, hslot, hpending⟩
    rw [hlimit] at hbelow
    split at hbelow
    · rename_i hkey
      exact absurd hbelow (Nat.not_lt.mpr (hall hasleep job hjob hkey.symm))
    · exact h.not_startable hasleep ⟨hslot, job, hjob, hbelow⟩

theorem processOutbox_frame (q : AsyncTaskQueue ρ) (w : ω) : ∃ outbox callbacks log,
    (processOutbox hooks (q, w)).1 =
      { q with outbox := outbox, deadLetterCallbacks := callbacks, log := log } := by
  have hall : ∃ callbacks log, (deliverAll hooks (q, w) q.outbox).2.1 =
      { q with deadLetterCallbacks := callbacks, log := log } := by
    refine deliverAll_preserves (P := fun s => ∃ callbacks log, s.1 =
      { q with deadLetterCallbacks := callbacks, log := log }) ?_ q.outbox ⟨_, _, rfl⟩
    rintro ⟨q₁, w₁⟩ message ⟨callbacks, log, hs⟩
    obtain rfl : q₁ = _ := hs
    unfold deliver
    split
    · exact ⟨_, _, rfl⟩
    · dsimp only
      split
      · split <;> exact ⟨_, _, rfl⟩
      · exact ⟨_, _, rfl⟩
  obtain ⟨callbacks, log, heq⟩ := hall
  unfold processOutbox
  dsimp only
  rw [heq]
  exact ⟨_, _, _, rfl⟩

/-- **The condition is exact.** A step keeps the queue awake just where `StepWakes` holds. -/
theorem step_awake {m : QueueMachine ρ ω} {l : QueueLabel ρ} (h : Awake opts m.queue) :
    Awake opts (step opts hooks m l).queue ↔ StepWakes opts m l := by
  cases l with
  | enqueue params => exact enqueue_awake h
  | microtask =>
      refine ⟨fun _ => trivial, fun _ => ?_⟩
      show Awake opts (runMicrotask opts hooks m.now (m.queue, m.outer)).1
      unfold runMicrotask
      split
      · exact h
      · exact awake_of_exhausted (maybeRunJobs_exhausts _)
  | settle id outcome fault => exact ⟨fun _ => trivial, fun _ => settle_awake h⟩
  | retryTimer id fault => exact fireTimer_awake h
  | setTenantQuota tenantId quota => exact setTenantQuota_awake h
  | stop => exact ⟨fun _ => trivial, fun _ hrun => absurd hrun (by simp [step, stop])⟩
  | processOutbox =>
      refine ⟨fun _ => trivial, fun _ => ?_⟩
      obtain ⟨_, _, _, heq⟩ := @processOutbox_frame _ _ hooks m.queue m.outer
      show Awake opts (processOutbox hooks (m.queue, m.outer)).1
      rw [heq]
      exact h
  | tick ms => exact ⟨fun _ => trivial, fun _ => h⟩

end QueueMachine

/-! ## What a queued job waits for

So a lost wake-up is late and not for good: something that will run a pass is there, unless the
queue is stopped. -/

namespace AsyncTaskQueue

variable {ρ ω : Type} {opts : AsyncTaskQueueOptions} {hooks : Hooks ρ ω} {now : Millis}
variable {q : AsyncTaskQueue ρ}

/-- The counters count running jobs, perhaps not all of them, and every quota leaves room for a
job. -/
structure Counted (q : AsyncTaskQueue ρ) : Prop where
  inflight : q.inflight ≤ q.runningJobs.length
  byTenant : ∀ key, q.tenantInflight key ≤ q.runningOfTenant key
  quotas   : ∀ key quota, q.tenantQuota.get key = some quota → 1 ≤ quota

/-- A queued job, or a queue that is `processing`, has a microtask or a running job to wait for. -/
def Attended (q : AsyncTaskQueue ρ) : Prop :=
  q.queue ≠ [] ∨ q.processing = true → q.microtasks ≠ 0 ∨ q.runningJobs ≠ []

theorem Counted.tenantMax_pos (h : Counted q) (key : String) :
    1 ≤ q.tenantMax opts key := by
  unfold tenantMax
  cases hquota : q.tenantQuota.get key with
  | some quota => exact h.quotas key quota hquota
  | none =>
      unfold AsyncTaskQueueOptions.concurrentPerTenant DEFAULT_TENANT_QUOTA
      cases opts.maxConcurrentPerTenant with
      | none => simp
      | some limit => exact Nat.le_max_left 1 limit

theorem Counted.running_of_queued (h : Counted q) (hexhausted : ¬ Startable opts q)
    (hqueue : q.queue ≠ []) : q.runningJobs ≠ [] := by
  intro hnone
  obtain ⟨job, hjob⟩ := List.exists_mem_of_ne_nil _ hqueue
  have hslots := h.inflight
  have hcount := h.byTenant job.tenantKey
  have hpos : 1 ≤ q.tenantMax opts job.tenantKey := h.tenantMax_pos _
  have hconcurrent : 1 ≤ opts.concurrent := Nat.le_max_left 1 _
  unfold runningOfTenant at hcount
  rw [hnone] at hslots hcount
  simp only [List.length_nil, List.countP_nil] at hslots hcount
  exact hexhausted ⟨by omega, job, hjob, by omega⟩

/-- A pass counts what it starts, and counts a skipped job off again. -/
theorem passRules_counted : PassRules opts hooks now fun s => Counted s.1 where
  reap s h := by
    have hle := reapExpiredLeases_inflight_le now s.1
    obtain ⟨leasedJobs, inflight, processing, heq⟩ := reapExpiredLeases_eq now s.1
    dsimp only
    rw [heq] at hle ⊢
    exact ⟨hle.trans h.inflight, h.byTenant, h.quotas⟩
  settle s h := by
    obtain ⟨processing, heq⟩ := settleProcessing_eq s.1
    dsimp only
    rw [heq]
    exact ⟨h.inflight, h.byTenant, h.quotas⟩
  start s job q' h _ ht _ := by
    obtain ⟨l₁, l₂, _, rfl, _⟩ := takeRunnable_eq_some ht
    refine ⟨?_, fun key => ?_, h.quotas⟩
    · show s.1.inflight + 1 ≤ (s.1.runningJobs ++ [job]).length
      rw [List.length_append, List.length_singleton]
      exact Nat.succ_le_succ h.inflight
    · have hkey := h.byTenant key
      have hoccupied := congrFun (tenantInflight_occupy now s.1 job) key
      show (occupy now job s.1).tenantInflight key ≤
        (s.1.runningJobs ++ [job]).countP fun job => job.tenantKey == key
      rw [hoccupied, List.countP_append, List.countP_singleton]
      unfold runningOfTenant at hkey
      by_cases hk : job.tenantKey = key
      · simp only [hk, if_true, beq_self_eq_true]
        omega
      · simp only [hk, if_false, beq_iff_eq]
        omega
  skip s job q' h _ ht _ := by
    obtain ⟨l₁, l₂, _, rfl, _⟩ := takeRunnable_eq_some ht
    refine ⟨⟨?_, fun key => ?_, h.quotas⟩, fun s' hs' => ⟨?_, fun key => ?_, hs'.quotas⟩⟩
    -- first the nested pass of the skipped job, then what it leaves, released once more
    · show s.1.inflight + 1 - 1 ≤ s.1.runningJobs.length
      exact h.inflight
    · have hoccupied := congrFun (tenantInflight_occupy now s.1 job) key
      show (release job.tenantKey job.taskId { occupy now job s.1 with
        queue := l₁ ++ l₂, log := .skipped job :: s.1.log }).tenantInflight key ≤ _
      rw [tenantInflight_release]
      show (if job.tenantKey = key then (occupy now job s.1).tenantInflight key - 1
        else (occupy now job s.1).tenantInflight key) ≤ s.1.runningOfTenant key
      rw [hoccupied]
      have hkey := h.byTenant key
      split <;> omega
    · exact (Nat.sub_le _ _).trans hs'.inflight
    · show (release job.tenantKey job.taskId s'.1).tenantInflight key ≤ s'.1.runningOfTenant key
      rw [tenantInflight_release]
      have hkey := hs'.byTenant key
      split <;> omega

theorem attended_of_pass {s : AsyncTaskQueue ρ × ω}
    (h : Counted (maybeRunJobs opts hooks now s).1) :
    Attended (maybeRunJobs opts hooks now s).1 := by
  rintro (hqueue | hprocessing)
  · exact .inr (h.running_of_queued (maybeRunJobs_exhausts s) hqueue)
  · -- `processing` is still set only where a job is queued or a slot is taken
    refine .inr fun hnone => ?_
    have hslots := h.inflight
    rw [hnone] at hslots
    by_cases hqueue : (maybeRunJobs opts hooks now s).1.queue = []
    · rw [maybeRunJobs_eq] at hprocessing hqueue hslots
      dsimp only at hprocessing hqueue hslots
      rw [settleProcessing_queue] at hqueue
      unfold settleProcessing at hprocessing hslots
      split at hprocessing
      · cases hprocessing
      · rename_i hbusy
        refine hbusy ⟨by rw [hqueue]; rfl, ?_⟩
        rw [if_neg hbusy] at hslots
        exact Nat.le_zero.mp hslots
    · exact h.running_of_queued (maybeRunJobs_exhausts s) hqueue hnone

/-- Both facts together, as a step keeps them. -/
def Backed (q : AsyncTaskQueue ρ) : Prop := Counted q ∧ Attended q

/-- The pass at the end of a job that leaves the running jobs. -/
theorem finishJob_backed {q q' : AsyncTaskQueue ρ} {w : ω} {job : QueueJob ρ}
    {l₁ l₂ : List (QueueJob ρ)} (h : Counted q) (hq : q.runningJobs = l₁ ++ job :: l₂)
    (hinflight : q'.inflight = q.inflight) (htenant : q'.inflightByTenant = q.inflightByTenant)
    (hquota : q'.tenantQuota = q.tenantQuota) (hrunning : q'.runningJobs = l₁ ++ l₂) :
    Backed (finishJob opts hooks now job.tenantKey job.taskId (q', w)).1 := by
  have hcounted : Counted (release job.tenantKey job.taskId q') := by
    refine ⟨?_, fun key => ?_, ?_⟩
    -- the job is off the list and off the counter
    · have hslots := h.inflight
      rw [hq, List.length_append, List.length_cons] at hslots
      show q'.inflight - 1 ≤ q'.runningJobs.length
      rw [hinflight, hrunning, List.length_append]
      omega
    · have hkey := h.byTenant key
      rw [tenantInflight_release]
      have hsame : q'.tenantInflight key = q.tenantInflight key := by
        unfold tenantInflight
        rw [htenant]
      show _ ≤ q'.runningJobs.countP fun job => job.tenantKey == key
      unfold runningOfTenant at hkey
      rw [hq, List.countP_append, List.countP_cons] at hkey
      rw [hsame, hrunning, List.countP_append]
      by_cases hk : job.tenantKey = key
      · simp only [hk, if_true, beq_self_eq_true] at hkey ⊢
        omega
      · simp only [hk, if_false, beq_iff_eq] at hkey ⊢
        omega
    · show ∀ key quota, q'.tenantQuota.get key = some quota → 1 ≤ quota
      rw [hquota]
      exact h.quotas
  have hpass : Counted (finishJob opts hooks now job.tenantKey job.taskId (q', w)).1 :=
    finishJob_preserves passRules_counted hcounted
  exact ⟨hpass, attended_of_pass hpass⟩

end AsyncTaskQueue

namespace QueueMachine

open AsyncTaskQueue

variable {ρ ω : Type} {opts : AsyncTaskQueueOptions} {hooks : Hooks ρ ω}
variable {q : AsyncTaskQueue ρ}

theorem settle_backed {w : ω} {now : Millis} {id : Nat} {outcome : Except (Option String) Unit}
    {fault : Option String} (h : Backed q) :
    Backed (settle opts hooks now id outcome fault (q, w)).1 := by
  have hcases := settle_cases opts hooks now id fault q w outcome
  generalize settle opts hooks now id outcome fault (q, w) = s at hcases ⊢
  cases hcases with
  | absent => exact h
  | succeeded _ hq => exact finishJob_backed h.1 hq rfl rfl rfl rfl
  | @retried job l₁ l₂ _ _ _ hq _ hs =>
      have hfin : Backed (finishJob opts hooks now job.tenantKey job.taskId
          ({ q with
              runningJobs := l₁ ++ l₂
              completedEffects := q.completedEffects.filter (· ≠ job.effectId) }, w)).1 :=
        finishJob_backed h.1 hq rfl rfl rfl rfl
      rw [hs]
      exact ⟨⟨hfin.1.inflight, hfin.1.byTenant, hfin.1.quotas⟩, hfin.2⟩
  | @buried _ _ _ _ _ s _ hq _ _ hburied =>
      obtain ⟨q', w'⟩ := s
      obtain ⟨_, _, _, _, _, hq', _⟩ := hburied
      obtain rfl : q' = _ := hq'
      exact finishJob_backed h.1 hq rfl rfl rfl rfl

/-- Queueing a job keeps the queue attended: a microtask is pending, or one is scheduled. -/
theorem kickoff_backed {q q' : AsyncTaskQueue ρ} (h : Backed q) (hcounted : Counted q')
    (hprocessing : q'.processing = q.processing) (hmicrotasks : q'.microtasks = q.microtasks)
    (hrunning : q'.runningJobs = q.runningJobs) : Backed (kickoff q') := by
  unfold kickoff
  split
  · rename_i hp
    refine ⟨hcounted, fun _ => ?_⟩
    rw [hmicrotasks, hrunning]
    exact h.2 (.inr (hprocessing.symm.trans hp))
  · exact ⟨⟨hcounted.inflight, hcounted.byTenant, hcounted.quotas⟩,
      fun _ => .inl (Nat.succ_ne_zero _)⟩

theorem fireTimer_backed {w : ω} {now : Millis} {id : Nat} {fault : Option String} (h : Backed q) :
    Backed (fireTimer opts hooks now id fault (q, w)).1 := by
  have hcounted := h.1
  have hcases := fireTimer_cases opts hooks now id fault q w
  generalize fireTimer opts hooks now id fault (q, w) = s at hcases ⊢
  cases hcases with
  | absent => exact h
  | stopped => exact ⟨⟨hcounted.inflight, hcounted.byTenant, hcounted.quotas⟩, h.2⟩
  | buried _ _ _ _ hburied =>
      obtain ⟨_, _, _, _, _, heq, _⟩ := hburied
      rw [heq]
      exact ⟨⟨hcounted.inflight, hcounted.byTenant, hcounted.quotas⟩, h.2⟩
  | requeued =>
      -- the kickoff leaves a microtask, or finds a pass under way
      exact kickoff_backed h ⟨hcounted.inflight, hcounted.byTenant, hcounted.quotas⟩ rfl rfl rfl

theorem step_backed {m : QueueMachine ρ ω} {l : QueueLabel ρ} (h : Backed m.queue) :
    Backed (step opts hooks m l).queue := by
  have hcounted := h.1
  cases l with
  | enqueue params =>
      show Backed (m.queue.enqueue opts params).2
      rcases @enqueue_cases _ opts m.queue params with heq | heq
      · rw [heq]
        exact h
      · rw [heq]
        exact kickoff_backed h ⟨hcounted.inflight, hcounted.byTenant, hcounted.quotas⟩ rfl rfl rfl
  | microtask =>
      show Backed (runMicrotask opts hooks m.now (m.queue, m.outer)).1
      unfold runMicrotask
      split
      · exact h
      · have hpass : Counted (maybeRunJobs opts hooks m.now
            ({ m.queue with microtasks := m.queue.microtasks - 1 }, m.outer)).1 :=
          maybeRunJobs_preserves passRules_counted
            ⟨hcounted.inflight, hcounted.byTenant, hcounted.quotas⟩
        exact ⟨hpass, attended_of_pass hpass⟩
  | settle id outcome fault => exact settle_backed h
  | retryTimer id fault => exact fireTimer_backed h
  | setTenantQuota tenantId quota =>
      refine ⟨⟨hcounted.inflight, hcounted.byTenant, fun key limit hget => ?_⟩, h.2⟩
      have hset : (m.queue.tenantQuota.set (resolveTenantKey (some tenantId)) (max 1 quota)).get
        key = some limit := hget
      rw [OrderedMap.get_set] at hset
      split at hset
      · obtain rfl := Option.some.inj hset
        exact Nat.le_max_left 1 quota
      · exact hcounted.quotas key limit hset
  | stop => exact ⟨⟨hcounted.inflight, hcounted.byTenant, hcounted.quotas⟩, h.2⟩
  | processOutbox =>
      obtain ⟨_, _, _, heq⟩ := @processOutbox_frame _ _ hooks m.queue m.outer
      show Backed (processOutbox hooks (m.queue, m.outer)).1
      rw [heq]
      exact ⟨⟨hcounted.inflight, hcounted.byTenant, hcounted.quotas⟩, h.2⟩
  | tick ms => exact h

theorem init_backed (stored : List DeadLetterRecord) (outer : ω) (now : Millis) :
    Backed (init opts stored outer now : QueueMachine ρ ω).queue := by
  refine ⟨⟨Nat.le_refl _, fun key => Nat.le_refl _, fun key quota h => ?_⟩, ?_⟩
  · exact absurd h (by simp [init, AsyncTaskQueue.init])
  · rintro (h | h)
    · exact absurd rfl h
    · cases h

/-- **Wake-ups.** The states of a run are all awake exactly when every step of it meets the
condition. With no condition, a job that is queued has a microtask or a running job to wait for. -/
theorem run_awake (opts : AsyncTaskQueueOptions) (hooks : Hooks ρ ω)
    (stored : List DeadLetterRecord) (outer : ω) (now : Millis) (ls : List (QueueLabel ρ)) :
    (Transition.StepsMeet (step opts hooks) (StepWakes opts) (init opts stored outer now) ls ↔
      ∀ ks, ks <+: ls → Awake opts (run opts hooks (init opts stored outer now) ks).queue) ∧
    ((run opts hooks (init opts stored outer now) ls).queue.queue ≠ [] →
      (run opts hooks (init opts stored outer now) ls).queue.microtasks ≠ 0 ∨
        (run opts hooks (init opts stored outer now) ls).queue.runningJobs ≠ []) := by
  have hinit : Awake opts (init opts stored outer now : QueueMachine ρ ω).queue := by
    rintro _ ⟨_, job, hjob, _⟩
    exact absurd hjob List.not_mem_nil
  have hbacked : Backed (run opts hooks (init opts stored outer now) ls).queue :=
    Transition.run_preserves (I := fun m : QueueMachine ρ ω => Backed m.queue)
      (fun _ _ h => step_backed h) ls (init_backed stored outer now)
  exact ⟨Transition.stepsMeet_iff (I := fun m : QueueMachine ρ ω => Awake opts m.queue)
    (fun _ _ h => step_awake h) hinit, fun hqueue => hbacked.2 (.inl hqueue)⟩

/-- What happens to a queue apart from calls of `enqueue` and the end of its jobs. -/
def Idle : QueueLabel ρ → Prop
  | .enqueue _ | .settle _ _ _ => False
  | _                          => True

/-- Nothing but a call or the end of a job stirs a queue without microtasks and timers. -/
theorem idle_run {ls : List (QueueLabel ρ)} {m : QueueMachine ρ ω} (hls : ∀ l ∈ ls, Idle l)
    (hmicrotasks : m.queue.microtasks = 0) (htimers : m.queue.retryTimers = []) :
    (run opts hooks m ls).queue.queue = m.queue.queue := by
  induction ls generalizing m with
  | nil => rfl
  | cons l ls ih =>
      have hrest : ∀ l ∈ ls, Idle l := fun l hl => hls l (List.mem_cons_of_mem _ hl)
      have hidle := hls l List.mem_cons_self
      have hstep : (step opts hooks m l).queue.microtasks = 0 ∧
          (step opts hooks m l).queue.retryTimers = [] ∧
          (step opts hooks m l).queue.queue = m.queue.queue := by
        cases l with
        | enqueue params => exact absurd hidle id
        | settle id outcome fault => exact absurd hidle (fun h => h)
        | microtask => simp [step, runMicrotask, hmicrotasks, htimers]
        | retryTimer id fault => simp [step, fireTimer, hmicrotasks, htimers]
        | setTenantQuota tenantId quota => exact ⟨hmicrotasks, htimers, rfl⟩
        | stop => exact ⟨hmicrotasks, htimers, rfl⟩
        | processOutbox =>
            obtain ⟨_, _, _, heq⟩ := @processOutbox_frame _ _ hooks m.queue m.outer
            simp [step, heq, hmicrotasks, htimers]
        | tick ms => exact ⟨hmicrotasks, htimers, rfl⟩
      exact (ih hrest hstep.1 hstep.2.1).trans hstep.2.2

/-- **A lost wake-up.** `b` is queued while `a` runs: three slots are free, no pass is coming, and
`b` waits until `a` ends, however much time passes. -/
theorem wakeup_lost :
    ¬ Awake {} (run {} inert (init {} [] () 0) [job "a" none, .microtask, job "b" none]).queue ∧
    ∀ ls : List (QueueLabel Unit), (∀ l ∈ ls, Idle l) →
      ((run {} inert (init {} [] () 0) ([job "a" none, .microtask, job "b" none] ++ ls)
        ).queue.queue.map QueueJob.taskId) = ["b"] := by
  refine ⟨fun h => ?_, fun ls hls => ?_⟩
  · refine h rfl ⟨by decide, ⟨1, "b", none, 1, none, ()⟩, by decide, by decide⟩ rfl
  · unfold run
    rw [Transition.run_append]
    have hidle := @idle_run _ _ {} inert ls
      (run {} inert (init {} [] () 0) [job "a" none, .microtask, job "b" none]) hls rfl rfl
    exact congrArg (List.map QueueJob.taskId) hidle

end QueueMachine

end MapProtocol
