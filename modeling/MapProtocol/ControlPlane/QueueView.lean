import MapProtocol.ControlPlane.QueuePass

/-!
# The queue as its users see it

To the code outside, the queue is a set of places where jobs stand and an outer state that the jobs'
closures change. `QueueView` keeps only these, `ViewMove` lists the moves of a job between places,
and `step_view` shows that a step of the queue is a sequence of such moves. An invariant of the
outer state and the jobs is then proved move by move.
-/

namespace MapProtocol

/-- Where jobs stand, and the outer state. `callable` are the jobs whose dead-letter callback the
outbox may call again. -/
structure QueueView (ρ ω : Type) where
  queued   : List (QueueJob ρ)
  running  : List (QueueJob ρ)
  waiting  : List (QueueJob ρ)
  callable : List (QueueJob ρ)
  outer    : ω

namespace AsyncTaskQueue

variable {ρ ω : Type} {opts : AsyncTaskQueueOptions} {hooks : Hooks ρ ω} {now : Millis}
variable {s : AsyncTaskQueue ρ × ω} {fault : Option String} {id : Nat}

def view (s : AsyncTaskQueue ρ × ω) : QueueView ρ ω where
  queued := s.1.queue
  running := s.1.runningJobs
  waiting := s.1.retryTimers.map Prod.fst
  callable := s.1.deadLetterCallbacks.values
  outer := s.2

/-- The outer state is as it was, or the job's dead-letter callback was called on it. -/
def CalledBack (hooks : Hooks ρ ω) (job : QueueJob ρ) (w w' : ω) : Prop :=
  w' = w ∨ ∃ record, w' = (hooks.onDeadLetter job record w).2

/-- **The moves of a job.** A job that fails is `retried` only where `retries` allows it. -/
inductive ViewMove (hooks : Hooks ρ ω) (retries : QueueJob ρ → Prop) :
    QueueView ρ ω → QueueView ρ ω → Prop
  | started {l₁ l₂ r t c : List (QueueJob ρ)} {job : QueueJob ρ} {w : ω} :
      ViewMove hooks retries ⟨l₁ ++ job :: l₂, r, t, c, w⟩
        ⟨l₁ ++ l₂, r ++ [job], t, c, hooks.run job w⟩
  | skipped {l₁ l₂ r t c : List (QueueJob ρ)} {job : QueueJob ρ} {w : ω} :
      ViewMove hooks retries ⟨l₁ ++ job :: l₂, r, t, c, w⟩ ⟨l₁ ++ l₂, r, t, c, w⟩
  | retried {q l₁ l₂ t c : List (QueueJob ρ)} {job : QueueJob ρ} {w : ω} (h : retries job) :
      ViewMove hooks retries ⟨q, l₁ ++ job :: l₂, t, c, w⟩ ⟨q, l₁ ++ l₂, t ++ [job], c, w⟩
  | ended {q l₁ l₂ t c c' : List (QueueJob ρ)} {job : QueueJob ρ} {w w' : ω}
      (hc : ∀ j ∈ c', j = job ∨ j ∈ c) (hw : CalledBack hooks job w w') :
      ViewMove hooks retries ⟨q, l₁ ++ job :: l₂, t, c, w⟩ ⟨q, l₁ ++ l₂, t, c', w'⟩
  | dropped {q r l₁ l₂ c c' : List (QueueJob ρ)} {job : QueueJob ρ} {w w' : ω}
      (hc : ∀ j ∈ c', j = job ∨ j ∈ c) (hw : CalledBack hooks job w w') :
      ViewMove hooks retries ⟨q, r, l₁ ++ job :: l₂, c, w⟩ ⟨q, r, l₁ ++ l₂, c', w'⟩
  | requeued {q r l₁ l₂ c : List (QueueJob ρ)} {job : QueueJob ρ} {w : ω} :
      ViewMove hooks retries ⟨q, r, l₁ ++ job :: l₂, c, w⟩
        ⟨q ++ [{ job with attempt := job.attempt + 1 }], r, l₁ ++ l₂, c, w⟩
  | called {q r t c c' : List (QueueJob ρ)} {job : QueueJob ρ} {w w' : ω} (hjob : job ∈ c)
      (hc : ∀ j ∈ c', j ∈ c) (hw : CalledBack hooks job w w') :
      ViewMove hooks retries ⟨q, r, t, c, w⟩ ⟨q, r, t, c', w'⟩

variable {retries : QueueJob ρ → Prop} {P : QueueView ρ ω → Prop}

/-- The view with a job more among those that wait for their timer. -/
def viewWith (extra : List (QueueJob ρ)) (s : AsyncTaskQueue ρ × ω) : QueueView ρ ω :=
  { view s with waiting := (view s).waiting ++ extra }

@[simp] theorem viewWith_nil (s : AsyncTaskQueue ρ × ω) : viewWith [] s = view s := by
  simp [viewWith]

theorem view_reap (s : AsyncTaskQueue ρ × ω) : view (reapExpiredLeases now s.1, s.2) = view s := by
  have hfold : ∀ (ls : List (String × Millis)) (q : AsyncTaskQueue ρ),
      view (ls.foldl reapLease q, s.2) = view (q, s.2) := by
    intro ls
    induction ls with
    | nil => exact fun q => rfl
    | cons l ls ih => exact fun q => ih (reapLease q l)
  unfold reapExpiredLeases
  dsimp only
  split
  · exact hfold _ s.1
  · exact hfold _ s.1

theorem view_settleProcessing (s : AsyncTaskQueue ρ × ω) :
    view (settleProcessing s.1, s.2) = view s := by
  unfold settleProcessing
  split <;> rfl

theorem view_kickoff (q : AsyncTaskQueue ρ) (w : ω) : view (kickoff q, w) = view (q, w) := by
  unfold kickoff
  split <;> rfl

/-- The job that `enqueue` makes of its parameters. -/
def newJob (q : AsyncTaskQueue ρ) (params : EnqueueParams ρ) : QueueJob ρ where
  id := q.accepted.length
  taskId := params.taskId
  tenantId := params.tenantId
  attempt := 1
  idempotencyToken := params.idempotencyToken
  run := params.run

/-- **What `enqueue` can do**: it refuses and nothing changes, or the new job waits last. -/
theorem enqueue_cases (q : AsyncTaskQueue ρ) (params : EnqueueParams ρ) :
    q.enqueue opts params = (false, q) ∨
      q.enqueue opts params = (true, kickoff { q with
        queue := q.queue ++ [newJob q params], accepted := q.accepted ++ [newJob q params] }) := by
  unfold enqueue
  split
  · exact .inl rfl
  · exact .inr rfl

/-! ## The rules

Each operation asks only for the moves it makes: a pass leaves the jobs that wait for their timer
alone, and neither a timer nor the outbox starts a job. -/

/-- A pass starts jobs and skips jobs. -/
theorem passRules_view
    (hP : ∀ v v', P v → ViewMove hooks retries v v' → v'.waiting = v.waiting → P v')
    (extra : List (QueueJob ρ)) :
    PassRules opts hooks now fun s => P (viewWith extra s) where
  reap s h := by
    show P (viewWith extra _)
    unfold viewWith
    rw [view_reap]
    exact h
  settle s h := by
    show P (viewWith extra _)
    unfold viewWith
    rw [view_settleProcessing]
    exact h
  start s job q' h _ ht _ := by
    obtain ⟨l₁, l₂, hq, rfl, _⟩ := takeRunnable_eq_some ht
    refine hP _ _ h ?_ rfl
    unfold viewWith view
    dsimp only
    rw [hq]
    exact .started
  skip s job q' h _ ht _ := by
    obtain ⟨l₁, l₂, hq, rfl, _⟩ := takeRunnable_eq_some ht
    refine ⟨hP _ _ h ?_ rfl, fun s' hs' => hs'⟩
    unfold viewWith view
    dsimp only
    rw [hq]
    exact .skipped

theorem finishJob_view
    (hP : ∀ v v', P v → ViewMove hooks retries v v' → v'.waiting = v.waiting → P v')
    (extra : List (QueueJob ρ)) {tenantKey taskId : String} (h : P (viewWith extra s)) :
    P (viewWith extra (finishJob opts hooks now tenantKey taskId s)) :=
  finishJob_preserves (passRules_view hP extra) h

theorem runMicrotask_view
    (hP : ∀ v v', P v → ViewMove hooks retries v v' → v'.waiting = v.waiting → P v')
    (h : P (view s)) : P (view (runMicrotask opts hooks now s)) := by
  unfold runMicrotask
  split
  · exact h
  · have hpass : P (viewWith [] (maybeRunJobs opts hooks now
        ({ s.1 with microtasks := s.1.microtasks - 1 }, s.2))) := by
      refine maybeRunJobs_preserves (passRules_view hP []) ?_
      rw [viewWith_nil]
      exact h
    rwa [viewWith_nil] at hpass

theorem finishJob_view_nil
    (hP : ∀ v v', P v → ViewMove hooks retries v v' → v'.waiting = v.waiting → P v')
    {tenantKey taskId : String} (h : P (view s)) :
    P (view (finishJob opts hooks now tenantKey taskId s)) := by
  have hnil : P (viewWith [] (finishJob opts hooks now tenantKey taskId s)) := by
    refine finishJob_view hP [] ?_
    rw [viewWith_nil]
    exact h
  rwa [viewWith_nil] at hnil

theorem Buried.calledBack {job : QueueJob ρ} {record : DeadLetterRecord}
    {s s' : AsyncTaskQueue ρ × ω} (h : Buried opts hooks fault job record s s') :
    CalledBack hooks job s.2 s'.2 := by
  obtain ⟨_, _, _, _, _, _, _, _, ⟨_, _, hw⟩ | ⟨_, _, hw⟩⟩ := h
  · exact .inr ⟨record, hw⟩
  · exact .inl hw

theorem ViewMove.mono {retries' : QueueJob ρ → Prop} (hretries : ∀ job, retries job → retries' job)
    {v v' : QueueView ρ ω} (h : ViewMove hooks retries v v') : ViewMove hooks retries' v v' := by
  cases h with
  | started => exact .started
  | skipped => exact .skipped
  | retried hr => exact .retried (hretries _ hr)
  | ended hc hw => exact .ended hc hw
  | dropped hc hw => exact .dropped hc hw
  | requeued => exact .requeued
  | called hjob hc hw => exact .called hjob hc hw

/-- The end of a job, given that `P` survives the job's own move where it is retried. -/
theorem settle_view_of
    (hP : ∀ v v', P v → ViewMove hooks (fun _ => False) v v' → v'.waiting = v.waiting → P v')
    {id : Nat} {outcome : Except (Option String) Unit} {fault : Option String}
    {s : AsyncTaskQueue ρ × ω}
    (hretried : ∀ job l₁ l₂ e, s.1.runningJobs = l₁ ++ job :: l₂ → job.id = id →
      outcome = .error e → job.attempt < opts.attempts →
        P ⟨s.1.queue, l₁ ++ l₂, (view s).waiting ++ [job], (view s).callable, s.2⟩)
    (h : P (view s)) : P (view (settle opts hooks now id outcome fault s)) := by
  obtain ⟨q, w⟩ := s
  have hcases := settle_cases opts hooks now id fault q w outcome
  generalize settle opts hooks now id outcome fault (q, w) = s at hcases ⊢
  cases hcases with
  | absent => exact h
  | succeeded _ hq =>
      refine finishJob_view_nil hP (hP _ _ h ?_ rfl)
      unfold view
      dsimp only
      rw [hq]
      exact .ended (fun _ hj => .inr hj) (.inl rfl)
  | @retried job l₁ l₂ e s hfind hq hattempt hs =>
      -- while the pass runs, the job is counted as waiting; its timer is set after it
      have hmoved : P (viewWith [job] ({ q with
          runningJobs := l₁ ++ l₂
          completedEffects := q.completedEffects.filter (· ≠ job.effectId) }, w)) :=
        hretried job l₁ l₂ e hq (by simpa using List.find?_some hfind) rfl hattempt
      have hpass : P (viewWith [job] s) := by
        rw [hs]
        exact finishJob_view hP [job] hmoved
      unfold viewWith view at hpass
      unfold view
      simpa using hpass
  | @buried job l₁ l₂ e record s _ hq _ _ hburied =>
      -- the burial and the end of the job are one move, made before the pass
      have hback := hburied.calledBack
      obtain ⟨_, _, _, callbacks, _, hs', _, hcalled, _⟩ := hburied
      refine finishJob_view_nil hP (hP _ _ h ?_ ?_)
      · unfold view
        rw [hs']
        dsimp only
        rw [hq]
        exact .ended hcalled hback
      · unfold view
        rw [hs']

theorem settle_view (hP : ∀ v v', P v → ViewMove hooks retries v v' → P v') {id : Nat}
    {outcome : Except (Option String) Unit} {fault : Option String} {s : AsyncTaskQueue ρ × ω}
    (hretries : ∀ job ∈ s.1.runningJobs, ∀ e, job.id = id → outcome = .error e →
      job.attempt < opts.attempts → retries job)
    (h : P (view s)) : P (view (settle opts hooks now id outcome fault s)) := by
  refine settle_view_of (fun v v' hv hm _ => hP v v' hv (hm.mono fun _ hf => hf.elim)) ?_ h
  intro job l₁ l₂ e hq hid hout hatt
  refine hP _ _ h ?_
  unfold view
  rw [hq]
  exact .retried (hretries job (by simp [hq]) e hid hout hatt)

theorem fireTimer_view
    (hP : ∀ v v', P v → ViewMove hooks retries v v' → v'.running = v.running → P v')
    (h : P (view s)) :
    P (view (fireTimer opts hooks now id fault s)) := by
  obtain ⟨q, w⟩ := s
  have hcases := fireTimer_cases opts hooks now id fault q w
  generalize fireTimer opts hooks now id fault (q, w) = s at hcases ⊢
  cases hcases with
  | absent => exact h
  | stopped hq =>
      -- a stopped queue drops the job without a word
      refine hP _ _ h ?_ rfl
      unfold view
      dsimp only
      rw [hq]
      simp only [List.map_append, List.map_cons]
      exact .dropped (fun _ hj => .inr hj) (.inl rfl)
  | buried hq _ _ _ hburied =>
      have hback := hburied.calledBack
      obtain ⟨_, _, _, callbacks, _, hs', _, hcalled, _⟩ := hburied
      refine hP _ _ h ?_ ?_
      · unfold view
        rw [hs']
        dsimp only
        rw [hq]
        simp only [List.map_append, List.map_cons]
        exact .dropped hcalled hback
      · unfold view
        rw [hs']
  | requeued _ hq =>
      rw [view_kickoff]
      refine hP _ _ h ?_ rfl
      unfold view
      dsimp only
      rw [hq]
      simp only [List.map_append, List.map_cons]
      exact .requeued

theorem deliver_view
    (hP : ∀ v v', P v → ViewMove hooks retries v v' → v'.running = v.running → P v')
    (message : OutboxMessage) (h : P (view s)) :
    P (view (deliver hooks s message).2) := by
  unfold deliver
  split
  · exact h
  · dsimp only
    split
    · rename_i record job _ _ hget
      have hjob : job ∈ s.1.deadLetterCallbacks.values := OrderedMap.mem_values.mpr ⟨_, hget⟩
      split
      · rename_i w heq
        refine hP _ _ h ?_ rfl
        refine .called hjob (fun _ hj => hj) (.inr ⟨record, ?_⟩)
        rw [heq]
      · rename_i w heq
        refine hP _ _ h ?_ rfl
        refine .called hjob (fun _ hj => OrderedMap.mem_values_delete hj) (.inr ⟨record, ?_⟩)
        rw [heq]
    · exact h

theorem processOutbox_view
    (hP : ∀ v v', P v → ViewMove hooks retries v v' → v'.running = v.running → P v')
    (h : P (view s)) : P (view (processOutbox hooks s)) := by
  have hall : P (view (deliverAll hooks s s.1.outbox).2) :=
    deliverAll_preserves (P := fun s => P (view s))
      (fun s message hs => deliver_view hP message hs) s.1.outbox h
  unfold processOutbox
  exact hall

end AsyncTaskQueue

/-- A label of the queue that is not a call of `enqueue`. -/
def QueueLabel.internal {ρ : Type} : QueueLabel ρ → Prop
  | .enqueue _ => False
  | _          => True

namespace QueueMachine

open AsyncTaskQueue

variable {ρ ω : Type} {opts : AsyncTaskQueueOptions} {hooks : Hooks ρ ω}
  {retries : QueueJob ρ → Prop} {P : QueueView ρ ω → Prop}

/-- **The rule of the view.** What every move of a job preserves, every step of the queue that is
not an `enqueue` preserves. -/
theorem step_view (hP : ∀ v v', P v → ViewMove hooks retries v v' → P v') {m : QueueMachine ρ ω}
    {label : QueueLabel ρ} (hlabel : label.internal)
    (hretries : ∀ id e fault, label = .settle id (.error e) fault →
      ∀ job ∈ m.queue.runningJobs, job.id = id → job.attempt < opts.attempts → retries job)
    (h : P (view (m.queue, m.outer))) :
    P (view ((step opts hooks m label).queue, (step opts hooks m label).outer)) := by
  cases label with
  | enqueue params => exact absurd hlabel id
  | microtask =>
      exact runMicrotask_view (fun v v' hv hm _ => hP v v' hv hm) (s := (m.queue, m.outer)) h
  | settle id outcome fault =>
      refine settle_view hP (s := (m.queue, m.outer)) (fun job hjob e hid hout hatt => ?_) h
      subst hout
      exact hretries id e fault rfl job hjob hid hatt
  | retryTimer id fault =>
      exact fireTimer_view (fun v v' hv hm _ => hP v v' hv hm) (s := (m.queue, m.outer)) h
  | setTenantQuota tenantId quota => exact h
  | stop => exact h
  | processOutbox =>
      exact processOutbox_view (fun v v' hv hm _ => hP v v' hv hm) (s := (m.queue, m.outer)) h
  | tick ms => exact h

/-! ## The jobs accepted so far -/

theorem passRules_accepted (now : Millis) (jobs : List (QueueJob ρ)) :
    PassRules opts hooks now fun s => s.1.accepted = jobs where
  reap s h := by
    obtain ⟨_, _, _, heq⟩ := reapExpiredLeases_eq now s.1
    rw [heq]
    exact h
  settle s h := by
    obtain ⟨_, heq⟩ := settleProcessing_eq s.1
    rw [heq]
    exact h
  start s job q' h _ ht _ := by
    obtain ⟨_, _, _, rfl, _⟩ := takeRunnable_eq_some ht
    exact h
  skip s job q' h _ ht _ := by
    obtain ⟨_, _, _, rfl, _⟩ := takeRunnable_eq_some ht
    exact ⟨h, fun _ hs' => hs'⟩

theorem settle_accepted {id : Nat} {outcome : Except (Option String) Unit} {fault : Option String}
    {now : Millis} {s : AsyncTaskQueue ρ × ω} :
    (settle opts hooks now id outcome fault s).1.accepted = s.1.accepted := by
  have hfinish : ∀ {s' : AsyncTaskQueue ρ × ω} {tenantKey taskId : String},
      s'.1.accepted = s.1.accepted →
        (finishJob opts hooks now tenantKey taskId s').1.accepted = s.1.accepted := by
    intro s' tenantKey taskId h
    exact finishJob_preserves (passRules_accepted now s.1.accepted) h
  obtain ⟨q, w⟩ := s
  have hcases := settle_cases opts hooks now id fault q w outcome
  generalize settle opts hooks now id outcome fault (q, w) = s at hcases ⊢
  cases hcases with
  | absent => rfl
  | succeeded => exact hfinish rfl
  | retried _ _ _ hs =>
      rw [hs]
      exact hfinish rfl
  | buried _ _ _ _ hburied =>
      obtain ⟨_, _, _, _, _, hs', _⟩ := hburied
      refine hfinish ?_
      rw [hs']

theorem fireTimer_accepted {id : Nat} {fault : Option String} {now : Millis}
    {s : AsyncTaskQueue ρ × ω} :
    (fireTimer opts hooks now id fault s).1.accepted = s.1.accepted := by
  obtain ⟨q, w⟩ := s
  have hcases := fireTimer_cases opts hooks now id fault q w
  generalize fireTimer opts hooks now id fault (q, w) = s at hcases ⊢
  cases hcases with
  | absent | stopped => rfl
  | buried _ _ _ _ hburied =>
      obtain ⟨_, _, _, _, _, hs', _⟩ := hburied
      rw [hs']
  | @requeued job message l₁ l₂ =>
      obtain ⟨_, _, heq⟩ := kickoff_eq { q with
        retryTimers := l₁ ++ l₂
        pendingRetry := q.pendingRetry - 1
        queue := q.queue ++ [{ job with attempt := job.attempt + 1 }] }
      rw [heq]

theorem processOutbox_accepted {s : AsyncTaskQueue ρ × ω} :
    (processOutbox hooks s).1.accepted = s.1.accepted := by
  have hall : (deliverAll hooks s s.1.outbox).2.1.accepted = s.1.accepted := by
    refine deliverAll_preserves (P := fun s' => s'.1.accepted = s.1.accepted) ?_ s.1.outbox rfl
    intro s' message h
    unfold deliver
    split
    · exact h
    · dsimp only
      split
      · split <;> exact h
      · exact h
  unfold processOutbox
  exact hall

theorem step_accepted {m : QueueMachine ρ ω} {label : QueueLabel ρ} (hlabel : label.internal) :
    (step opts hooks m label).queue.accepted = m.queue.accepted := by
  cases label with
  | enqueue params => exact absurd hlabel id
  | microtask =>
      show (runMicrotask opts hooks m.now (m.queue, m.outer)).1.accepted = _
      unfold runMicrotask
      split
      · rfl
      · exact maybeRunJobs_preserves (passRules_accepted m.now m.queue.accepted) rfl
  | settle id outcome fault => exact @settle_accepted _ _ opts hooks id outcome fault m.now _
  | retryTimer id fault => exact @fireTimer_accepted _ _ opts hooks id fault m.now _
  | setTenantQuota tenantId quota => rfl
  | stop => rfl
  | processOutbox => exact processOutbox_accepted
  | tick ms => rfl

end QueueMachine

end MapProtocol
