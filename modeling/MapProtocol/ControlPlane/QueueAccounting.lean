import MapProtocol.ControlPlane.QueuePass

/-!
# The queue's accounting

`inflight` and `inflightByTenant` are the queue's own count of what runs, and the concurrency
limits are enforced against these counts, not against the jobs. `Accounting` says that the counts
are true and the limits hold.

Two paths lower a count for a job that does not stop running. The skip path calls `finishJob` and
returns through a `finally` block that calls it again, and `reapExpiredLeases` lowers `inflight`
for every lease older than `LEASE_TIMEOUT_MS`, also when its job still runs. `PassClear` is the
condition on the queue under which a pass takes neither path.
-/

namespace MapProtocol

namespace AsyncTaskQueue

variable {ρ ω : Type} {opts : AsyncTaskQueueOptions} {hooks : Hooks ρ ω} {now : Millis}
variable {q q' : AsyncTaskQueue ρ} {w : ω} {job : QueueJob ρ}

/-- **The counters are true.** They agree with the running jobs, in all and by tenant, and every
job was started below the limits in force then. -/
structure Accounting (opts : AsyncTaskQueueOptions) (q : AsyncTaskQueue ρ) : Prop where
  inflight : q.inflight = q.runningJobs.length
  byTenant : ∀ key, q.tenantInflight key = q.runningOfTenant key
  total    : q.inflightByTenant.values.sum = q.inflight
  limit    : q.runningJobs.length ≤ opts.concurrent
  started  : ∀ job total ofTenant limit, .started job total ofTenant limit ∈ q.log →
    total < opts.concurrent ∧ ofTenant < limit

/-- A pass that finds the queue so neither reaps a lease nor skips a job: no lease has expired,
and the queued jobs have effect ids that are unmarked and distinct. -/
structure PassClear (now : Millis) (q : AsyncTaskQueue ρ) : Prop where
  leases   : ∀ lease ∈ q.leasedJobs.entries, now - lease.2 ≤ LEASE_TIMEOUT_MS
  unmarked : ∀ job ∈ q.queue, job.effectId ∉ q.completedEffects
  distinct : (q.queue.map QueueJob.effectId).Nodup

instance (now : Millis) (q : AsyncTaskQueue ρ) : Decidable (PassClear now q) :=
  decidable_of_iff
    ((∀ lease ∈ q.leasedJobs.entries, now - lease.2 ≤ LEASE_TIMEOUT_MS) ∧
      (∀ job ∈ q.queue, job.effectId ∉ q.completedEffects) ∧
      (q.queue.map QueueJob.effectId).Nodup)
    ⟨fun h => ⟨h.1, h.2.1, h.2.2⟩, fun h => ⟨h.leases, h.unmarked, h.distinct⟩⟩

/-! ## One pass -/

theorem tenantInflight_occupy (now : Millis) (q : AsyncTaskQueue ρ) (job : QueueJob ρ) :
    (occupy now job q).tenantInflight = fun key =>
      if job.tenantKey = key then q.tenantInflight key + 1 else q.tenantInflight key := by
  funext key
  unfold occupy tenantInflight
  rw [OrderedMap.get_set]
  by_cases hk : job.tenantKey = key
  · subst hk
    simp
  · simp [hk]

theorem tenantInflight_release {tenantKey taskId key : String} :
    (release tenantKey taskId q).tenantInflight key =
      if tenantKey = key then q.tenantInflight key - 1 else q.tenantInflight key := by
  unfold release tenantInflight
  by_cases hle : (q.inflightByTenant.get tenantKey).getD 0 ≤ 1
  · simp only [hle, if_true, OrderedMap.get_delete]
    by_cases hk : tenantKey = key
    · subst hk
      simp only [if_true, Option.getD_none]
      omega
    · simp [hk]
  · simp only [hle, if_false, OrderedMap.get_set]
    by_cases hk : tenantKey = key
    · subst hk
      simp
    · simp [hk]

theorem sum_release {q : AsyncTaskQueue ρ} {tenantKey taskId : String}
    (h : 0 < q.tenantInflight tenantKey) :
    (release tenantKey taskId q).inflightByTenant.values.sum + 1 =
      q.inflightByTenant.values.sum := by
  unfold release
  unfold tenantInflight at h ⊢
  by_cases hle : (q.inflightByTenant.get tenantKey).getD 0 ≤ 1
  · have hsum := OrderedMap.sum_delete q.inflightByTenant tenantKey
    simp only [hle, if_true]
    omega
  · have hsum := OrderedMap.sum_set q.inflightByTenant tenantKey
      ((q.inflightByTenant.get tenantKey).getD 0 - 1)
    simp only [hle, if_false]
    omega

theorem reapExpiredLeases_of_clear (h : PassClear now q) :
    reapExpiredLeases now q = q := by
  have hnone : q.expiredLeases now = [] := by
    refine List.filter_eq_nil_iff.mpr fun e he => ?_
    have hle := h.leases e he
    simpa using hle
  simp [reapExpiredLeases, hnone]

/-- Starting a job counts it where it runs. -/
theorem Accounting.enter (h : Accounting opts q) (hcap : q.inflight < opts.concurrent)
    (ht : takeRunnable opts q = some (job, q')) :
    Accounting opts (enter opts hooks now job (q', w)).1 := by
  obtain ⟨l₁, l₂, _, rfl, hmax⟩ := takeRunnable_eq_some ht
  constructor
  · show q.inflight + 1 = (q.runningJobs ++ [job]).length
    simp [h.inflight]
  · intro key
    have hkey := h.byTenant key
    have hjob := h.byTenant job.tenantKey
    show ((q.inflightByTenant.set job.tenantKey (q.tenantInflight job.tenantKey + 1)).get
      key).getD 0 = (q.runningJobs ++ [job]).countP (fun job => job.tenantKey == key)
    rw [OrderedMap.get_set, List.countP_append]
    by_cases hk : job.tenantKey = key
    · subst hk
      simp only [if_true, Option.getD_some, List.countP_singleton, beq_self_eq_true]
      rw [hjob]
      rfl
    · simp only [hk, if_false, List.countP_singleton, beq_iff_eq]
      exact hkey
  -- the counters add up: one of them grew by one, and so did `inflight`
  · have hsum := OrderedMap.sum_set q.inflightByTenant job.tenantKey
      (q.tenantInflight job.tenantKey + 1)
    have htotal := h.total
    show (q.inflightByTenant.set job.tenantKey
      (q.tenantInflight job.tenantKey + 1)).values.sum = q.inflight + 1
    unfold tenantInflight at hsum ⊢
    omega
  · show (q.runningJobs ++ [job]).length ≤ opts.concurrent
    have hrun := h.inflight
    simp only [List.length_append, List.length_singleton]
    omega
  · intro job' total ofTenant limit hmem
    rcases List.mem_cons.mp hmem with heq | hold
    -- the job was taken below both limits, so its event says so
    · cases heq
      refine ⟨?_, ?_⟩
      · show q.runningJobs.length < opts.concurrent
        rw [← h.inflight]
        exact hcap
      · show q.runningOfTenant job.tenantKey < q.tenantMax opts job.tenantKey
        rw [← h.byTenant]
        exact hmax
    · exact h.started job' total ofTenant limit hold

/-- Starting a job leaves the rest of the queue clear. -/
theorem PassClear.enter (h : PassClear now q) (ht : takeRunnable opts q = some (job, q')) :
    PassClear now (enter opts hooks now job (q', w)).1 := by
  obtain ⟨l₁, l₂, hq, rfl, _⟩ := takeRunnable_eq_some ht
  have hdistinct := h.distinct
  rw [hq, List.map_append, List.map_cons, List.nodup_middle] at hdistinct
  obtain ⟨hnew, hrest⟩ := List.nodup_cons.mp hdistinct
  rw [← List.map_append] at hnew hrest
  constructor
  · intro lease hlease
    have hget : (q.leasedJobs.set job.taskId now).get lease.1 = some lease.2 :=
      OrderedMap.get_eq_some.mpr hlease
    rw [OrderedMap.get_set] at hget
    split at hget
    · obtain rfl := Option.some.inj hget
      simp
    · exact h.leases lease (OrderedMap.get_eq_some.mp hget)
  · intro other hother
    have hmem : other ∈ l₁ ++ l₂ := hother
    have hqueued : other ∈ q.queue := by
      rw [hq]
      rcases List.mem_append.mp hmem with hl | hl <;> simp [hl]
    show other.effectId ∉ job.effectId :: q.completedEffects
    rw [List.mem_cons, not_or]
    refine ⟨fun heq => hnew ?_, h.unmarked other hqueued⟩
    rw [← heq]
    exact List.mem_map_of_mem hmem
  · exact hrest

/-- **A clear pass keeps the accounts.** -/
theorem passRules_accounting :
    PassRules opts hooks now fun s => Accounting opts s.1 ∧ PassClear now s.1 where
  reap s h := by rwa [reapExpiredLeases_of_clear h.2]
  settle s h := by
    obtain ⟨hacc, hclear⟩ := h
    unfold settleProcessing
    split
    · exact ⟨⟨hacc.1, hacc.2, hacc.3, hacc.4, hacc.5⟩, ⟨hclear.1, hclear.2, hclear.3⟩⟩
    · exact ⟨hacc, hclear⟩
  start s job q' h hcap ht _ := ⟨h.1.enter hcap ht, h.2.enter ht⟩
  skip s job q' h _ ht hmarked := by
    obtain ⟨l₁, l₂, hq, rfl, _⟩ := takeRunnable_eq_some ht
    have hqueued : job ∈ s.1.queue := by simp [hq]
    exact absurd hmarked (h.2.unmarked job hqueued)

/-! ## The end of a job -/

/-- The accounts depend on the counters, the running jobs and the starts on record. -/
theorem Accounting.congr {q q' : AsyncTaskQueue ρ} (h : Accounting opts q)
    (hinflight : q'.inflight = q.inflight) (htenant : q'.inflightByTenant = q.inflightByTenant)
    (hrunning : q'.runningJobs = q.runningJobs)
    (hlog : ∀ job total ofTenant limit, .started job total ofTenant limit ∈ q'.log →
      .started job total ofTenant limit ∈ q.log) : Accounting opts q' := by
  constructor
  · rw [hinflight, hrunning]
    exact h.inflight
  · intro key
    unfold tenantInflight runningOfTenant
    rw [htenant, hrunning]
    exact h.byTenant key
  · rw [htenant, hinflight]
    exact h.total
  · rw [hrunning]
    exact h.limit
  · intro job total ofTenant limit hmem
    exact h.started job total ofTenant limit (hlog job total ofTenant limit hmem)

theorem PassClear.congr (h : PassClear now q) (hleases : q'.leasedJobs = q.leasedJobs)
    (heffects : q'.completedEffects = q.completedEffects) (hqueue : q'.queue = q.queue) :
    PassClear now q' := by
  constructor
  · rw [hleases]
    exact h.leases
  · rw [hqueue, heffects]
    exact h.unmarked
  · rw [hqueue]
    exact h.distinct

/-- A job that leaves the running jobs gives back what it was counted for. -/
theorem Accounting.release {l₁ l₂ : List (QueueJob ρ)} (h : Accounting opts q)
    (hq : q.runningJobs = l₁ ++ job :: l₂) :
    Accounting opts (release job.tenantKey job.taskId { q with runningJobs := l₁ ++ l₂ }) := by
  -- among the running jobs, the one that leaves counts once for its tenant
  have hcount : ∀ key, q.runningOfTenant key =
      (l₁ ++ l₂).countP (fun job => job.tenantKey == key) +
        if job.tenantKey = key then 1 else 0 := by
    intro key
    unfold runningOfTenant
    rw [hq, List.countP_append, List.countP_cons, List.countP_append]
    simp only [beq_iff_eq]
    omega
  have hlen : q.inflight = (l₁ ++ l₂).length + 1 := by
    rw [h.inflight, hq]
    simp only [List.length_append, List.length_cons]
    omega
  constructor
  · show q.inflight - 1 = (l₁ ++ l₂).length
    omega
  · intro key
    rw [tenantInflight_release]
    have hkey := h.byTenant key
    have hsplit := hcount key
    show (if job.tenantKey = key then q.tenantInflight key - 1 else q.tenantInflight key) =
      (l₁ ++ l₂).countP fun job => job.tenantKey == key
    by_cases hk : job.tenantKey = key
    · simp only [hk, if_true] at hsplit ⊢
      omega
    · simp only [hk, if_false] at hsplit ⊢
      omega
  · have hpos : 0 < q.tenantInflight job.tenantKey := by
      have hkey := h.byTenant job.tenantKey
      have hsplit := hcount job.tenantKey
      simp only [if_true] at hsplit
      omega
    have hsum := @sum_release ρ { q with runningJobs := l₁ ++ l₂ } job.tenantKey job.taskId hpos
    have htotal := h.total
    show _ = q.inflight - 1
    dsimp only at hsum
    omega
  · have hlimit := h.limit
    rw [hq] at hlimit
    simp only [List.length_append, List.length_cons] at hlimit
    show (l₁ ++ l₂).length ≤ opts.concurrent
    simp only [List.length_append]
    omega
  · exact h.started

/-- **The end of a running job keeps the accounts**, when the pass it ends with is clear. `q'` is
the queue once the job's outcome is on record. -/
theorem Accounting.finishJob {q q' : AsyncTaskQueue ρ} {w : ω} {job : QueueJob ρ}
    {l₁ l₂ : List (QueueJob ρ)} (h : Accounting opts q) (hq : q.runningJobs = l₁ ++ job :: l₂)
    (hinflight : q'.inflight = q.inflight) (htenant : q'.inflightByTenant = q.inflightByTenant)
    (hrunning : q'.runningJobs = l₁ ++ l₂)
    (hlog : ∀ job total ofTenant limit, .started job total ofTenant limit ∈ q'.log →
      .started job total ofTenant limit ∈ q.log)
    (hclear : PassClear now (AsyncTaskQueue.release job.tenantKey job.taskId q')) :
    Accounting opts (finishJob opts hooks now job.tenantKey job.taskId (q', w)).1 := by
  have hrel : Accounting opts (AsyncTaskQueue.release job.tenantKey job.taskId q') := by
    refine (h.release hq).congr ?_ ?_ hrunning hlog
    · show q'.inflight - 1 = q.inflight - 1
      rw [hinflight]
    · unfold AsyncTaskQueue.release tenantInflight
      simp only [htenant]
  exact (finishJob_preserves passRules_accounting (s := (q', w)) ⟨hrel, hclear⟩).1

end AsyncTaskQueue

/-! ## Runs of the queue -/

namespace QueueMachine

open AsyncTaskQueue

variable {ρ ω : Type} {opts : AsyncTaskQueueOptions} {hooks : Hooks ρ ω}
variable {q : AsyncTaskQueue ρ} {w : ω} {now : Millis}

/-- The effect marks once the outcome of `job` is on record: a job that will be retried gives up
its mark. -/
def effectsAfter (opts : AsyncTaskQueueOptions) (q : AsyncTaskQueue ρ) (job : QueueJob ρ) :
    Except (Option String) Unit → List String
  | .ok _    => q.completedEffects
  | .error _ =>
      if job.attempt < opts.attempts then q.completedEffects.filter (· ≠ job.effectId)
      else q.completedEffects

/-- The queue as the pass that a label starts will find it, if the label starts one. -/
def passEntry (opts : AsyncTaskQueueOptions) (m : QueueMachine ρ ω) :
    QueueLabel ρ → Option (AsyncTaskQueue ρ)
  | .microtask           => if m.queue.microtasks = 0 then none else some m.queue
  | .settle id outcome _ =>
      (m.queue.runningJobs.find? (·.id == id)).map fun job =>
        release job.tenantKey job.taskId
          { m.queue with completedEffects := effectsAfter opts m.queue job outcome }
  | _ => none

/-- **The condition on a step.** The pass it starts, if it starts one, finds the queue clear. -/
def StepClear (opts : AsyncTaskQueueOptions) (m : QueueMachine ρ ω) (l : QueueLabel ρ) : Prop :=
  ∀ q, passEntry opts m l = some q → PassClear m.now q

instance (m : QueueMachine ρ ω) (l : QueueLabel ρ) : Decidable (StepClear opts m l) :=
  match h : passEntry opts m l with
  | none   => isTrue fun _ hq => by simp [h] at hq
  | some q => decidable_of_iff (PassClear m.now q)
      ⟨fun hc _ hq => by rw [h] at hq; exact Option.some.inj hq ▸ hc, fun hc => hc q h⟩

theorem settle_accounting {q : AsyncTaskQueue ρ} {w : ω} {now : Millis} {id : Nat}
    {outcome : Except (Option String) Unit} {fault : Option String} (h : Accounting opts q)
    (hclear : ∀ job, q.runningJobs.find? (·.id == id) = some job →
      PassClear now (release job.tenantKey job.taskId
        { q with completedEffects := effectsAfter opts q job outcome })) :
    Accounting opts (settle opts hooks now id outcome fault (q, w)).1 := by
  have hcases := settle_cases opts hooks now id fault q w outcome
  generalize settle opts hooks now id outcome fault (q, w) = s at hcases ⊢
  cases hcases with
  | absent => exact h
  | succeeded hfind hq =>
      refine h.finishJob hq rfl rfl rfl ?_ ((hclear _ hfind).congr rfl rfl rfl)
      intro job' total ofTenant limit hmem
      simpa using hmem
  | @retried job l₁ l₂ e _ hfind hq hattempt hs =>
      -- a retry clears the job's mark
      have hmarks : effectsAfter opts q job (.error e) =
          q.completedEffects.filter (· ≠ job.effectId) := by simp [effectsAfter, hattempt]
      have hpass := hclear job hfind
      rw [hmarks] at hpass
      have hfin : Accounting opts (finishJob opts hooks now job.tenantKey job.taskId
          ({ q with
              runningJobs := l₁ ++ l₂
              completedEffects := q.completedEffects.filter (· ≠ job.effectId) }, w)).1 :=
        h.finishJob hq rfl rfl rfl (fun _ _ _ _ hmem => hmem) (hpass.congr rfl rfl rfl)
      rw [hs]
      exact hfin.congr rfl rfl rfl fun _ _ _ _ hmem => hmem
  | @buried job l₁ l₂ e record s hfind hq hattempt _ hburied =>
      -- a burial keeps it
      have hmarks : effectsAfter opts q job (.error e) = q.completedEffects := by
        simp [effectsAfter, hattempt]
      have hpass := hclear job hfind
      rw [hmarks] at hpass
      obtain ⟨q', w'⟩ := s
      obtain ⟨deadLetters, quarantined, outbox, callbacks, log, rfl, _, _, hlog⟩ := hburied
      refine h.finishJob hq rfl rfl rfl ?_ (hpass.congr rfl rfl rfl)
      intro job' total ofTenant limit hmem
      rcases hlog with ⟨_, rfl, _⟩ | ⟨_, rfl, _⟩ <;> simpa using hmem

theorem fireTimer_accounting {id : Nat} {fault : Option String} (h : Accounting opts q) :
    Accounting opts (fireTimer opts hooks now id fault (q, w)).1 := by
  have hcases := fireTimer_cases opts hooks now id fault q w
  generalize fireTimer opts hooks now id fault (q, w) = s at hcases ⊢
  cases hcases with
  | absent => exact h
  | stopped => exact h.congr rfl rfl rfl fun _ _ _ _ hmem => hmem
  | buried _ _ _ _ hburied =>
      obtain ⟨deadLetters, quarantined, outbox, callbacks, log, heq, _, _, hlog⟩ := hburied
      rw [heq]
      refine h.congr rfl rfl rfl ?_
      intro job' total ofTenant limit hmem
      rcases hlog with ⟨_, rfl, _⟩ | ⟨_, rfl, _⟩ <;> simpa using hmem
  | requeued =>
      unfold kickoff
      dsimp only
      split <;> exact h.congr rfl rfl rfl fun _ _ _ _ hmem => hmem

theorem enqueue_accounting {params : EnqueueParams ρ} (h : Accounting opts q) :
    Accounting opts (q.enqueue opts params).2 := by
  unfold enqueue kickoff
  dsimp only
  split
  · exact h
  · split <;> exact h.congr rfl rfl rfl fun _ _ _ _ hmem => hmem

theorem runMicrotask_accounting (h : Accounting opts q)
    (hclear : q.microtasks ≠ 0 → PassClear now q) :
    Accounting opts (runMicrotask opts hooks now (q, w)).1 := by
  unfold runMicrotask
  dsimp only
  split
  · exact h
  · rename_i hpending
    refine (maybeRunJobs_preserves passRules_accounting ⟨?_, ?_⟩).1
    · exact h.congr rfl rfl rfl fun _ _ _ _ hmem => hmem
    · exact (hclear hpending).congr rfl rfl rfl

theorem processOutbox_accounting (h : Accounting opts q) :
    Accounting opts (processOutbox hooks (q, w)).1 := by
  have hall : Accounting opts (deliverAll hooks (q, w) q.outbox).2.1 := by
    refine deliverAll_preserves (P := fun s => Accounting opts s.1) ?_ q.outbox h
    intro s message hs
    unfold deliver
    split
    · exact hs
    · dsimp only
      split
      · split
        · exact hs.congr rfl rfl rfl fun _ _ _ _ hmem => by simpa using hmem
        · exact hs.congr rfl rfl rfl fun _ _ _ _ hmem => by simpa using hmem
      · exact hs
  exact hall.congr rfl rfl rfl fun _ _ _ _ hmem => hmem

/-- **Every clear step keeps the accounts.** -/
theorem step_accounting {m : QueueMachine ρ ω} {l : QueueLabel ρ} (h : Accounting opts m.queue)
    (hclear : StepClear opts m l) : Accounting opts (step opts hooks m l).queue := by
  cases l with
  | enqueue params => exact enqueue_accounting h
  | microtask =>
      refine runMicrotask_accounting h fun hpending => hclear _ ?_
      simp [passEntry, hpending]
  | settle id outcome fault =>
      refine settle_accounting h fun job hfind => hclear _ ?_
      simp [passEntry, hfind]
  | retryTimer id fault => exact fireTimer_accounting h
  | setTenantQuota tenantId quota => exact h.congr rfl rfl rfl fun _ _ _ _ hmem => hmem
  | stop => exact h.congr rfl rfl rfl fun _ _ _ _ hmem => hmem
  | processOutbox => exact processOutbox_accounting h
  | tick ms => exact h

theorem init_accounting (stored : List DeadLetterRecord) (outer : ω) (now : Millis) :
    Accounting opts (init opts stored outer now : QueueMachine ρ ω).queue where
  inflight := rfl
  byTenant _ := rfl
  total := rfl
  limit := Nat.zero_le _
  started _ _ _ _ h := absurd h (List.not_mem_nil)

/-- **Queue accounting.** In every run whose passes find the queue clear, every state reached has
true counters, keeps the concurrency limit, and has started each job below both limits. -/
theorem run_accounting (opts : AsyncTaskQueueOptions) (hooks : Hooks ρ ω)
    (stored : List DeadLetterRecord) (outer : ω) (now : Millis) (ls : List (QueueLabel ρ))
    (h : Transition.StepsMeet (step opts hooks) (StepClear opts) (init opts stored outer now) ls) :
    Accounting opts (run opts hooks (init opts stored outer now) ls).queue :=
  Transition.run_invariant (I := fun m => Accounting opts m.queue)
    (fun _ _ hacc hclear => step_accounting hacc hclear) (init_accounting stored outer now) h

theorem run_accounting_two_jobs :
    Accounting { maxConcurrent := some 2 }
      (run { maxConcurrent := some 2 } inert (init { maxConcurrent := some 2 } [] () 0)
        [job "a" none, job "b" none, .microtask, .settle 0 (.ok ()) none]).queue :=
  run_accounting _ inert [] () 0 _ (by decide)

/-- **Both paths break the accounts.** With two jobs at most, `b` and `c` share a token: when `b`
ends, `c` is skipped and finished twice, and three jobs run. And when `b` ends after 30 s, the lease
of `a` is reaped while `a` runs. -/
theorem accounting_broken :
    (¬ Accounting { maxConcurrent := some 2 }
      (run { maxConcurrent := some 2 } inert (init { maxConcurrent := some 2 } [] () 0)
        [job "a" none, job "b" (some "x"), job "c" (some "x"), job "d" none, job "e" none,
          .microtask, .settle 1 (.ok ()) none]).queue) ∧
    ¬ Accounting { maxConcurrent := some 2 }
      (run { maxConcurrent := some 2 } inert (init { maxConcurrent := some 2 } [] () 0)
        [job "a" none, job "b" none, .microtask, .tick 30001, .settle 1 (.ok ()) none]).queue := by
  refine ⟨fun h => absurd h.limit ?_, fun h => absurd h.inflight ?_⟩
  · decide
  · decide

end QueueMachine

end MapProtocol
