import MapProtocol.ControlPlane.Audit

/-!
# Where the jobs are

A job is in one place at a time: it waits, or it runs and then one call or one settled promise
belongs to it. `OneRun` says so of the queue's view, and that no job that may still run has
succeeded. The moves of a job keep it, and so does the return of a job's call.
-/

namespace MapProtocol

open Js

namespace Orchestrator

variable {env : OrchestratorEnv} {now : Millis} {faults : Faults}

/-! ## What a history says of the jobs -/

/-- `cancelTask` of the task has returned while its job was queued. -/
def CancelledQueued (history : List Event) (t : String) : Prop :=
  ∃ outcome, .cancelled t true outcome ∈ history

def JobSucceeded (history : List Event) (t : String) : Prop :=
  ∃ call job id, .returned call (.job job) t .ok id ∈ history

def isJobSuccess (t : String) : Event → Bool
  | .returned _ (.job _) t' .ok _ => t' = t
  | _                             => false

/-- The jobs of a history take effect once: no task's jobs succeed twice, and no job is executed
after a success of its task or after its task was cancelled in the queue. -/
structure OnceByJobs (history : List Event) : Prop where
  once  : ∀ t, history.countP (isJobSuccess t) ≤ 1
  after : ∀ call job t intent policy older,
    .executed call (.job job) t intent policy :: older <:+ history →
      ¬ JobSucceeded older t ∧ ¬ CancelledQueued older t

/-- An event that says nothing of a job. -/
def Aside : Event → Prop
  | .executed _ (.job _) _ _ _ => False
  | .returned _ (.job _) _ _ _ => False
  | _                          => True

variable {history events : List Event} {event : Event} {t : String}

theorem isJobSuccess_iff : isJobSuccess t event = true ↔
    ∃ call job id, event = .returned call (.job job) t .ok id := by
  constructor
  · intro h
    unfold isJobSuccess at h
    split at h
    · obtain rfl := of_decide_eq_true h
      exact ⟨_, _, _, rfl⟩
    · cases h
  · rintro ⟨call, job, id, rfl⟩
    simp [isJobSuccess]

theorem countP_eq_zero (h : ¬ JobSucceeded history t) : history.countP (isJobSuccess t) = 0 := by
  rw [List.countP_eq_zero]
  intro event hevent hsuccess
  obtain ⟨call, job, id, rfl⟩ := isJobSuccess_iff.mp hsuccess
  exact h ⟨call, job, id, hevent⟩

theorem jobSucceeded_append (h : ∀ event ∈ events, Aside event) :
    JobSucceeded (events ++ history) t ↔ JobSucceeded history t := by
  constructor
  · rintro ⟨call, job, id, hmem⟩
    rcases List.mem_append.mp hmem with hnew | hold
    · exact (h _ hnew).elim
    · exact ⟨call, job, id, hold⟩
  · rintro ⟨call, job, id, hmem⟩
    exact ⟨call, job, id, List.mem_append_right _ hmem⟩

/-- One more event. -/
theorem OnceByJobs.cons (h : OnceByJobs history)
    (hsuccess : ∀ call job t id, event = .returned call (.job job) t .ok id →
      ¬ JobSucceeded history t)
    (hexecuted : ∀ call job t intent policy, event = .executed call (.job job) t intent policy →
      ¬ JobSucceeded history t ∧ ¬ CancelledQueued history t) :
    OnceByJobs (event :: history) where
  once t := by
    rw [List.countP_cons]
    split
    · rename_i hevent
      obtain ⟨call, job, id, rfl⟩ := isJobSuccess_iff.mp hevent
      rw [countP_eq_zero (hsuccess call job t id rfl)]
    · exact h.once t
  after call job t intent policy older hsuffix := by
    rcases List.suffix_cons_iff.mp hsuffix with heq | hold
    · obtain ⟨rfl, rfl⟩ := List.cons.inj heq
      exact hexecuted call job t intent policy rfl
    · exact h.after call job t intent policy older hold

theorem OnceByJobs.append (h : OnceByJobs history) (haside : ∀ event ∈ events, Aside event) :
    OnceByJobs (events ++ history) := by
  induction events with
  | nil => exact h
  | cons event events ih =>
      have hevent := haside event List.mem_cons_self
      refine (ih fun e he => haside e (List.mem_cons_of_mem _ he)).cons ?_ ?_
      · rintro call job t id rfl
        exact hevent.elim
      · rintro call job t intent policy rfl
        exact hevent.elim

/-! ## Where the jobs are

A job is queued, running or waiting for its timer. A running one has a call at the executor, or has
settled. -/

/-- The job that a call runs, and its task. -/
def jobOf (call : Call) : Option (Nat × String) :=
  match call.origin with
  | .job id => some (id, call.envelope.taskId)
  | _       => none

def jobCalls (w : Runtime) : List (Nat × String) := w.calls.filterMap jobOf

/-- The jobs whose closure waits for the executor, or has settled and not been seen by the queue. -/
def underWay (w : Runtime) : List Nat := (jobCalls w).map Prod.fst ++ w.settledRuns.map Prod.fst

/-- The jobs that are queued, running, or waiting for their retry. -/
def standing (v : QueueView Ready Runtime) : List (QueueJob Ready) :=
  v.queued ++ v.running ++ v.waiting

/-- **Every job is in one place.** No two jobs share an id or a task, a job that waits has no
closure under way, and no job that may run again has succeeded: neither one that waits, nor one whose
closure waits for the executor, nor one whose closure has failed with attempts left. -/
structure OneRun (attempts n : Nat) (v : QueueView Ready Runtime) : Prop where
  ids       : ((standing v).map (·.id)).Nodup
  tasks     : ((standing v).map (·.taskId)).Nodup
  named     : ∀ job ∈ standing v, job.taskId = job.run.envelope.taskId
  bound     : ∀ job ∈ standing v, job.id < n
  runs      : (underWay v.outer).Nodup
  runBound  : ∀ id ∈ underWay v.outer, id < n
  away      : ∀ job ∈ v.queued ++ v.waiting, job.id ∉ underWay v.outer
  callTasks : ((jobCalls v.outer).map Prod.snd).Nodup
  linked    : ∀ c ∈ jobCalls v.outer, ∀ job ∈ standing v, job.taskId = c.2 ↔ job.id = c.1
  unspent   : ∀ c ∈ jobCalls v.outer, ¬ JobSucceeded v.outer.history c.2
  waits     : ∀ job ∈ v.queued ++ v.waiting, ¬ JobSucceeded v.outer.history job.taskId
  retries   : ∀ job ∈ v.running, ∀ e, (job.id, .error e) ∈ v.outer.settledRuns →
    job.attempt < attempts → ¬ JobSucceeded v.outer.history job.taskId
  history   : OnceByJobs v.outer.history

variable {a n : Nat} {v v' : QueueView Ready Runtime}

/-- Jobs may leave, and events that say nothing of a job may be logged. -/
theorem OneRun.fewer (h : OneRun a n v) (hqueued : v'.queued.Sublist v.queued)
    (hrunning : v'.running.Sublist v.running) (hwaiting : v'.waiting.Sublist v.waiting)
    (hcalls : jobCalls v'.outer = jobCalls v.outer)
    (hsettled : v'.outer.settledRuns.Sublist v.outer.settledRuns) {events : List Event}
    (hhistory : v'.outer.history = events ++ v.outer.history)
    (haside : ∀ event ∈ events, Aside event) : OneRun a n v' := by
  have hstanding : (standing v').Sublist (standing v) := (hqueued.append hrunning).append hwaiting
  have hwaits : (v'.queued ++ v'.waiting).Sublist (v.queued ++ v.waiting) := hqueued.append hwaiting
  have hunder : (underWay v'.outer).Sublist (underWay v.outer) := by
    unfold underWay
    rw [hcalls]
    exact (List.Sublist.refl _).append (hsettled.map _)
  have hsucceeded : ∀ t, JobSucceeded v'.outer.history t ↔ JobSucceeded v.outer.history t := by
    intro t
    rw [hhistory]
    exact jobSucceeded_append haside
  exact {
    ids := h.ids.sublist (hstanding.map _)
    tasks := h.tasks.sublist (hstanding.map _)
    named := fun job hjob => h.named job (hstanding.subset hjob)
    bound := fun job hjob => h.bound job (hstanding.subset hjob)
    runs := h.runs.sublist hunder
    runBound := fun id hid => h.runBound id (hunder.subset hid)
    away := fun job hjob hid => h.away job (hwaits.subset hjob) (hunder.subset hid)
    callTasks := hcalls ▸ h.callTasks
    linked := fun c hc job hjob => h.linked c (hcalls ▸ hc) job (hstanding.subset hjob)
    unspent := fun c hc => mt (hsucceeded _).mp (h.unspent c (hcalls ▸ hc))
    waits := fun job hjob => mt (hsucceeded _).mp (h.waits job (hwaits.subset hjob))
    retries := fun job hjob e he hatt => mt (hsucceeded _).mp
      (h.retries job (hrunning.subset hjob) e (hsettled.subset he) hatt)
    history := hhistory ▸ h.history.append haside }

/-- Jobs may leave without an event. -/
theorem OneRun.fewer_silent (h : OneRun a n v) (hqueued : v'.queued.Sublist v.queued)
    (hrunning : v'.running.Sublist v.running) (hwaiting : v'.waiting.Sublist v.waiting)
    (hcalls : v'.outer.calls = v.outer.calls)
    (hsettled : v'.outer.settledRuns.Sublist v.outer.settledRuns)
    (hhistory : v'.outer.history = v.outer.history) : OneRun a n v' := by
  have hjobs : jobCalls v'.outer = jobCalls v.outer := congrArg (List.filterMap jobOf) hcalls
  have hnone : v'.outer.history = [] ++ v.outer.history := hhistory
  exact h.fewer hqueued hrunning hwaiting hjobs hsettled hnone (by simp)

/-! ## The moves of a job

One lemma for each way between two places. -/

theorem calledBack_frame {job : QueueJob Ready} {w w' : Runtime}
    (h : AsyncTaskQueue.CalledBack (hooks env now faults) job w w') :
    w'.calls = w.calls ∧ w'.settledRuns = w.settledRuns ∧ w'.history = w.history := by
  rcases h with rfl | ⟨record, rfl⟩
  · exact ⟨rfl, rfl, rfl⟩
  · have hwrites := @onDeadLetter_writes env now faults job record w
    exact ⟨hwrites.calls, hwrites.settledRuns, hwrites.history⟩

/-- A job leaves, and its dead-letter callback may be called. -/
theorem OneRun.leaves (h : OneRun a n v) {job : QueueJob Ready}
    (hqueued : v'.queued.Sublist v.queued) (hrunning : v'.running.Sublist v.running)
    (hwaiting : v'.waiting.Sublist v.waiting)
    (hback : AsyncTaskQueue.CalledBack (hooks env now faults) job v.outer v'.outer) :
    OneRun a n v' := by
  obtain ⟨hcalls, hsettled, hhistory⟩ := calledBack_frame hback
  exact h.fewer_silent hqueued hrunning hwaiting hcalls (hsettled ▸ List.Sublist.refl _) hhistory

/-- A job that starts has one call, and may have reached the adapter. -/
theorem runJob_frame (job : QueueJob Ready) (w : Runtime) :
    jobCalls (runJob env now job w) = jobCalls w ++ [(job.id, job.run.envelope.taskId)] ∧
      (runJob env now job w).settledRuns = w.settledRuns ∧
      ((runJob env now job w).history = w.history ∨ ∃ call intent policy,
        (runJob env now job w).history =
          .executed call (.job job.id) job.run.envelope.taskId intent policy :: w.history) := by
  refine ⟨?_, rfl, ?_⟩
  · unfold runJob jobCalls suspend
    dsimp only
    rw [List.filterMap_append]
    rfl
  · unfold runJob suspend
    dsimp only
    split
    · exact .inr ⟨_, _, _, rfl⟩
    · exact .inl rfl

theorem jobSucceeded_cons_executed {call : Nat} {origin : Origin} {t' : String} {intent : Intent}
    {policy : PolicyDocument} :
    JobSucceeded (.executed call origin t' intent policy :: history) t ↔ JobSucceeded history t := by
  constructor
  · rintro ⟨c, job, id, hmem⟩
    rcases List.mem_cons.mp hmem with heq | hold
    · cases heq
    · exact ⟨c, job, id, hold⟩
  · rintro ⟨c, job, id, hmem⟩
    exact ⟨c, job, id, List.mem_cons_of_mem _ hmem⟩

theorem jobSucceeded_runJob {job : QueueJob Ready} {w : Runtime} :
    JobSucceeded (runJob env now job w).history t ↔ JobSucceeded w.history t := by
  obtain ⟨-, -, hhistory⟩ := @runJob_frame env now job w
  rcases hhistory with heq | ⟨call, intent, policy, heq⟩
  · rw [heq]
  · rw [heq]
    exact jobSucceeded_cons_executed

theorem cancelledQueued_runJob {job : QueueJob Ready} {w : Runtime} :
    CancelledQueued (runJob env now job w).history t ↔ CancelledQueued w.history t := by
  obtain ⟨-, -, hhistory⟩ := @runJob_frame env now job w
  rcases hhistory with heq | ⟨call, intent, policy, heq⟩
  · rw [heq]
  · rw [heq]
    constructor
    · rintro ⟨outcome, hmem⟩
      exact ⟨outcome, List.mem_of_ne_of_mem (by simp) hmem⟩
    · rintro ⟨outcome, hmem⟩
      exact ⟨outcome, List.mem_cons_of_mem _ hmem⟩

/-- What one element of a list without repetition maps to, no other one does. -/
theorem ne_of_nodup_map {α β : Type*} {f : α → β} {x : α} {l rest : List α}
    (hperm : l.Perm (x :: rest)) (h : (l.map f).Nodup) : ∀ y ∈ rest, f y ≠ f x := by
  have hnodup : ((x :: rest).map f).Nodup := (hperm.map f).nodup_iff.mp h
  rw [List.map_cons, List.nodup_cons] at hnodup
  intro y hy heq
  exact hnodup.1 (heq ▸ List.mem_map_of_mem hy)

section Moves

variable {l₁ l₂ q r c : List (QueueJob Ready)} {waiting : List (QueueJob Ready)}
  {job : QueueJob Ready} {w : Runtime}

/-- A queued job starts. -/
theorem OneRun.starts (h : OneRun a n ⟨l₁ ++ job :: l₂, r, waiting, c, w⟩)
    (hkept : ¬ CancelledQueued w.history job.taskId) :
    OneRun a n ⟨l₁ ++ l₂, r ++ [job], waiting, c, runJob env now job w⟩ := by
  obtain ⟨hcalls, hsettled, hhistory⟩ := @runJob_frame env now job w
  have hbefore : (standing ⟨l₁ ++ job :: l₂, r, waiting, c, w⟩).Perm
      (job :: (l₁ ++ l₂ ++ r ++ waiting)) := by
    unfold standing
    simp only [List.append_assoc, List.cons_append]
    exact List.perm_middle
  have hafter : (standing ⟨l₁ ++ l₂, r ++ [job], waiting, c, runJob env now job w⟩).Perm
      (job :: (l₁ ++ l₂ ++ r ++ waiting)) := by
    unfold standing
    simp only [← List.append_assoc]
    exact (List.perm_append_singleton job (l₁ ++ l₂ ++ r)).append_right waiting
  have hstanding := hafter.trans hbefore.symm
  -- the job is told from the others by its id, and by its task
  have hids := ne_of_nodup_map hbefore h.ids
  have htasks := ne_of_nodup_map hbefore h.tasks
  have hjob : job ∈ standing ⟨l₁ ++ job :: l₂, r, waiting, c, w⟩ := by simp [standing]
  have hname : job.run.envelope.taskId = job.taskId := (h.named job hjob).symm
  have hunder : (underWay (runJob env now job w)).Perm (job.id :: underWay w) := by
    unfold underWay
    rw [hcalls, hsettled, List.map_append, List.append_assoc]
    exact List.perm_middle
  have haway : job.id ∉ underWay w := h.away job (by simp)
  have hunspent : ¬ JobSucceeded w.history job.taskId := h.waits job (by simp)
  have hwaits : ∀ j ∈ l₁ ++ l₂ ++ waiting, j ∈ l₁ ++ job :: l₂ ++ waiting ∧ j.id ≠ job.id := by
    intro j hj
    refine ⟨?_, hids j ?_⟩
    · simp only [List.mem_append, List.mem_cons] at hj ⊢
      rcases hj with (hfront | hback) | hwaiting
      · exact .inl (.inl hfront)
      · exact .inl (.inr (.inr hback))
      · exact .inr hwaiting
    · rw [List.mem_append] at hj ⊢
      exact hj.imp_left (List.mem_append_left r)
  exact {
    ids := (hstanding.map _).nodup_iff.mpr h.ids
    tasks := (hstanding.map _).nodup_iff.mpr h.tasks
    named := fun j hj => h.named j (hstanding.subset hj)
    bound := fun j hj => h.bound j (hstanding.subset hj)
    runs := hunder.nodup_iff.mpr (List.nodup_cons.mpr ⟨haway, h.runs⟩)
    runBound := fun id hid => by
      rcases List.mem_cons.mp (hunder.subset hid) with rfl | hold
      · exact h.bound job hjob
      · exact h.runBound id hold
    away := fun j hj hid => by
      rcases List.mem_cons.mp (hunder.subset hid) with heq | hold
      · exact (hwaits j hj).2 heq
      · exact h.away j (hwaits j hj).1 hold
    callTasks := by
      show ((jobCalls (runJob env now job w)).map Prod.snd).Nodup
      rw [hcalls, List.map_append, List.nodup_append]
      refine ⟨h.callTasks, List.nodup_singleton _, fun t ht t' ht' => ?_⟩
      obtain ⟨call, hcall, rfl⟩ := List.mem_map.mp ht
      obtain rfl := List.mem_singleton.mp ht'
      intro heq
      have hid := (h.linked call hcall job hjob).mp (hname.symm.trans heq.symm)
      exact haway (hid ▸ List.mem_append_left _ (List.mem_map_of_mem hcall))
    linked := fun call hcall j hj => by
      have hcall' : call ∈ jobCalls w ++ [(job.id, job.run.envelope.taskId)] := hcalls ▸ hcall
      rcases List.mem_append.mp hcall' with hold | hnew
      · exact h.linked call hold j (hstanding.subset hj)
      · obtain rfl := List.mem_singleton.mp hnew
        show j.taskId = job.run.envelope.taskId ↔ j.id = job.id
        rw [hname]
        rcases List.mem_cons.mp (hafter.subset hj) with rfl | hother
        · exact ⟨fun _ => rfl, fun _ => rfl⟩
        · exact iff_of_false (htasks j hother) (hids j hother)
    unspent := fun call hcall => by
      have hcall' : call ∈ jobCalls w ++ [(job.id, job.run.envelope.taskId)] := hcalls ▸ hcall
      refine mt jobSucceeded_runJob.mp ?_
      rcases List.mem_append.mp hcall' with hold | hnew
      · exact h.unspent call hold
      · rw [List.mem_singleton.mp hnew]
        exact hname ▸ hunspent
    waits := fun j hj => mt jobSucceeded_runJob.mp (h.waits j (hwaits j hj).1)
    retries := fun j hj e he hatt => by
      have he' : (j.id, .error e) ∈ w.settledRuns := hsettled ▸ he
      refine mt jobSucceeded_runJob.mp ?_
      rcases List.mem_append.mp hj with hold | hnew
      · exact h.retries j hold e he' hatt
      · obtain rfl := List.mem_singleton.mp hnew
        exact absurd (List.mem_append_right _ (List.mem_map_of_mem he')) haway
    history := by
      show OnceByJobs (runJob env now job w).history
      rcases hhistory with heq | ⟨call, intent, policy, heq⟩
      · rw [heq]
        exact h.history
      · rw [heq]
        refine h.history.cons (by simp) ?_
        intro call' job' t intent' policy' hevent
        cases hevent
        rw [hname]
        exact ⟨hunspent, hkept⟩ }

/-- A job that has failed comes to wait for its retry. -/
theorem OneRun.waitsAgain (h : OneRun a n ⟨q, l₁ ++ job :: l₂, waiting, c, w⟩)
    (haway : job.id ∉ underWay w) (hunspent : ¬ JobSucceeded w.history job.taskId) :
    OneRun a n ⟨q, l₁ ++ l₂, waiting ++ [job], c, w⟩ := by
  -- the same jobs stand, in another order; only what is asked of waiting jobs is new
  have hstanding : (standing ⟨q, l₁ ++ l₂, waiting ++ [job], c, w⟩).Perm
      (standing ⟨q, l₁ ++ job :: l₂, waiting, c, w⟩) := by
    have hbefore : (q ++ (l₁ ++ job :: l₂) ++ waiting).Perm
        (job :: (q ++ (l₁ ++ l₂) ++ waiting)) := by
      simp only [List.append_assoc, List.cons_append]
      rw [← List.append_assoc q, ← List.append_assoc q]
      exact List.perm_middle
    have hafter : (q ++ (l₁ ++ l₂) ++ (waiting ++ [job])).Perm
        (job :: (q ++ (l₁ ++ l₂) ++ waiting)) := by
      rw [← List.append_assoc]
      exact List.perm_append_singleton job _
    exact hafter.trans hbefore.symm
  have hwaits : ∀ j ∈ q ++ (waiting ++ [job]), j ∈ q ++ waiting ∨ j = job := by
    intro j hj
    simp only [List.mem_append, List.mem_singleton] at hj ⊢
    tauto
  exact {
    ids := (hstanding.map _).nodup_iff.mpr h.ids
    tasks := (hstanding.map _).nodup_iff.mpr h.tasks
    named := fun j hj => h.named j (hstanding.subset hj)
    bound := fun j hj => h.bound j (hstanding.subset hj)
    runs := h.runs
    runBound := h.runBound
    away := fun j hj => by
      rcases hwaits j hj with hold | rfl
      · exact h.away j hold
      · exact haway
    callTasks := h.callTasks
    linked := fun call hcall j hj => h.linked call hcall j (hstanding.subset hj)
    unspent := h.unspent
    waits := fun j hj => by
      rcases hwaits j hj with hold | rfl
      · exact h.waits j hold
      · exact hunspent
    retries := fun j hj => h.retries j (by
      simp only [List.mem_append, List.mem_cons] at hj ⊢
      tauto)
    history := h.history }

/-- A job whose retry timer fires is queued again, with one attempt more. -/
theorem OneRun.requeues (h : OneRun a n ⟨q, r, l₁ ++ job :: l₂, c, w⟩) :
    OneRun a n ⟨q ++ [{ job with attempt := job.attempt + 1 }], r, l₁ ++ l₂, c, w⟩ := by
  -- up to its attempt, the job only changes its place
  have hperm : ∀ last : QueueJob Ready, (q ++ [last] ++ r ++ (l₁ ++ l₂)).Perm
      (q ++ r ++ (l₁ ++ last :: l₂)) := by
    intro last
    have hbefore : (q ++ [last] ++ r ++ (l₁ ++ l₂)).Perm (last :: (q ++ r ++ l₁ ++ l₂)) := by
      simp only [List.append_assoc, List.cons_append, List.nil_append]
      exact List.perm_middle
    have hafter : (q ++ r ++ (l₁ ++ last :: l₂)).Perm (last :: (q ++ r ++ l₁ ++ l₂)) := by
      rw [← List.append_assoc]
      exact List.perm_middle
    exact hbefore.trans hafter.symm
  have hmap : ∀ {β : Type} (f : QueueJob Ready → β),
      f { job with attempt := job.attempt + 1 } = f job →
        ((q ++ [{ job with attempt := job.attempt + 1 }] ++ r ++ (l₁ ++ l₂)).map f).Perm
          ((q ++ r ++ (l₁ ++ job :: l₂)).map f) := by
    intro β f hf
    refine ((hperm _).map f).trans ?_
    simp [hf]
  have hstanding : ∀ j ∈ q ++ [{ job with attempt := job.attempt + 1 }] ++ r ++ (l₁ ++ l₂),
      ∃ j' ∈ q ++ r ++ (l₁ ++ job :: l₂), j.id = j'.id ∧ j.taskId = j'.taskId ∧
        j.run = j'.run := by
    intro j hj
    by_cases hlast : j = { job with attempt := job.attempt + 1 }
    · exact ⟨job, by simp, by rw [hlast], by rw [hlast], by rw [hlast]⟩
    · refine ⟨j, ?_, rfl, rfl, rfl⟩
      simp only [List.mem_append, List.mem_cons] at hj ⊢
      tauto
  have hwaits : ∀ j ∈ q ++ [{ job with attempt := job.attempt + 1 }] ++ (l₁ ++ l₂),
      ∃ j' ∈ q ++ (l₁ ++ job :: l₂), j.id = j'.id ∧ j.taskId = j'.taskId := by
    intro j hj
    by_cases hlast : j = { job with attempt := job.attempt + 1 }
    · exact ⟨job, by simp, by rw [hlast], by rw [hlast]⟩
    · refine ⟨j, ?_, rfl, rfl⟩
      simp only [List.mem_append, List.mem_cons] at hj ⊢
      tauto
  exact {
    ids := (hmap (·.id) rfl).nodup_iff.mpr h.ids
    tasks := (hmap (·.taskId) rfl).nodup_iff.mpr h.tasks
    named := fun j hj => by
      obtain ⟨j', hj', -, htask, hrun⟩ := hstanding j hj
      rw [htask, hrun]
      exact h.named j' hj'
    bound := fun j hj => by
      obtain ⟨j', hj', hid, -⟩ := hstanding j hj
      rw [hid]
      exact h.bound j' hj'
    runs := h.runs
    runBound := h.runBound
    away := fun j hj => by
      obtain ⟨j', hj', hid, -⟩ := hwaits j hj
      rw [hid]
      exact h.away j' hj'
    callTasks := h.callTasks
    linked := fun call hcall j hj => by
      obtain ⟨j', hj', hid, htask, -⟩ := hstanding j hj
      rw [hid, htask]
      exact h.linked call hcall j' hj'
    unspent := h.unspent
    waits := fun j hj => by
      obtain ⟨j', hj', -, htask⟩ := hwaits j hj
      rw [htask]
      exact h.waits j' hj'
    retries := h.retries
    history := h.history }

/-- A job that was accepted just now joins the queue. -/
theorem OneRun.joins (h : OneRun a n ⟨q, r, waiting, c, w⟩) (hid : job.id = n)
    (hname : job.taskId = job.run.envelope.taskId)
    (hnew : ∀ j ∈ standing ⟨q, r, waiting, c, w⟩, j.taskId ≠ job.taskId)
    (hcalls : ∀ call ∈ jobCalls w, call.2 ≠ job.taskId)
    (hunspent : ¬ JobSucceeded w.history job.taskId) :
    OneRun a (n + 1) ⟨q ++ [job], r, waiting, c, w⟩ := by
  have hperm : (standing ⟨q ++ [job], r, waiting, c, w⟩).Perm
      (job :: standing ⟨q, r, waiting, c, w⟩) := by
    unfold standing
    simp only [List.append_assoc, List.cons_append, List.nil_append]
    exact List.perm_middle
  have hmem : ∀ j ∈ standing ⟨q ++ [job], r, waiting, c, w⟩,
      j = job ∨ j ∈ standing ⟨q, r, waiting, c, w⟩ :=
    fun j hj => List.mem_cons.mp (hperm.subset hj)
  have hwaits : ∀ j ∈ q ++ [job] ++ waiting, j = job ∨ j ∈ q ++ waiting := by
    intro j hj
    simp only [List.mem_append, List.mem_singleton] at hj ⊢
    tauto
  -- the number `n` is above that of every job that stands
  have hfresh : ∀ j ∈ standing ⟨q, r, waiting, c, w⟩, j.id ≠ job.id := by
    intro j hj heq
    have hlt := h.bound j hj
    omega
  exact {
    ids := by
      refine (hperm.map _).nodup_iff.mpr (List.nodup_cons.mpr ⟨fun hin => ?_, h.ids⟩)
      obtain ⟨j, hj, heq⟩ := List.mem_map.mp hin
      exact hfresh j hj heq
    tasks := by
      refine (hperm.map _).nodup_iff.mpr (List.nodup_cons.mpr ⟨fun hin => ?_, h.tasks⟩)
      obtain ⟨j, hj, heq⟩ := List.mem_map.mp hin
      exact hnew j hj heq
    named := fun j hj => by
      rcases hmem j hj with rfl | hold
      · exact hname
      · exact h.named j hold
    bound := fun j hj => by
      rcases hmem j hj with rfl | hold
      · exact hid ▸ Nat.lt_succ_self _
      · exact Nat.lt_succ_of_lt (h.bound j hold)
    runs := h.runs
    runBound := fun id hin => Nat.lt_succ_of_lt (h.runBound id hin)
    away := fun j hj hin => by
      rcases hwaits j hj with rfl | hold
      · exact Nat.lt_irrefl n (hid ▸ h.runBound _ hin)
      · exact h.away j hold hin
    callTasks := h.callTasks
    linked := fun call hcall j hj => by
      rcases hmem j hj with rfl | hold
      · refine iff_of_false (hcalls call hcall).symm fun heq => ?_
        have hlt := h.runBound call.1 (List.mem_append_left _ (List.mem_map_of_mem hcall))
        rw [← heq, hid] at hlt
        exact Nat.lt_irrefl n hlt
      · exact h.linked call hcall j hold
    unspent := h.unspent
    waits := fun j hj => by
      rcases hwaits j hj with rfl | hold
      · exact hunspent
      · exact h.waits j hold
    retries := h.retries
    history := h.history }

end Moves

/-! ## The moves of the queue -/

/-- No queued job is of a task that was cancelled in the queue. -/
def QueueKept (v : QueueView Ready Runtime) : Prop :=
  ∀ job ∈ v.queued, ¬ CancelledQueued v.outer.history job.taskId

/-- **The moves of a job keep every job in one place**, where no job starts that was cancelled in
the queue. -/
theorem oneRun_viewMove (h : OneRun a n v)
    (hm : AsyncTaskQueue.ViewMove (hooks env now faults) (fun _ => False) v v')
    (hstart : v'.running = v.running ∨ QueueKept v) : OneRun a n v' := by
  cases hm with
  | @started l₁ l₂ r t c job w =>
      refine h.starts ?_
      rcases hstart with hsame | hkept
      · have hlength := congrArg List.length hsame
        simp at hlength
      · exact hkept job (by simp)
  | skipped =>
      exact h.fewer_silent (List.Sublist.append_left (List.sublist_cons_self _ _) _)
        (List.Sublist.refl _) (List.Sublist.refl _) rfl (List.Sublist.refl _) rfl
  | retried hfalse => exact hfalse.elim
  | ended _ hback =>
      exact h.leaves (List.Sublist.refl _)
        (List.Sublist.append_left (List.sublist_cons_self _ _) _) (List.Sublist.refl _) hback
  | dropped _ hback =>
      exact h.leaves (List.Sublist.refl _) (List.Sublist.refl _)
        (List.Sublist.append_left (List.sublist_cons_self _ _) _) hback
  | requeued => exact h.requeues
  | called _ _ hback =>
      exact h.leaves (List.Sublist.refl _) (List.Sublist.refl _) (List.Sublist.refl _) hback

/-- Where no job comes back from its timer, the queued jobs stay uncancelled. -/
theorem queueKept_viewMove (h : QueueKept v)
    (hm : AsyncTaskQueue.ViewMove (hooks env now faults) (fun _ => False) v v')
    (hwaiting : v'.waiting = v.waiting) : QueueKept v' := by
  have hcalled : ∀ {job job' : QueueJob Ready} {w w' : Runtime},
      AsyncTaskQueue.CalledBack (hooks env now faults) job' w w' →
        ¬ CancelledQueued w.history job.taskId → ¬ CancelledQueued w'.history job.taskId := by
    intro job job' w w' hback hkept
    rw [(calledBack_frame hback).2.2]
    exact hkept
  intro j hj
  cases hm with
  | started =>
      refine mt cancelledQueued_runJob.mp (h j ?_)
      simp only [List.mem_append, List.mem_cons] at hj ⊢
      tauto
  | skipped =>
      refine h j ?_
      simp only [List.mem_append, List.mem_cons] at hj ⊢
      tauto
  | retried hfalse => exact hfalse.elim
  | ended _ hback => exact hcalled hback (h j hj)
  | dropped _ hback => exact hcalled hback (h j hj)
  | requeued =>
      have hlength := congrArg List.length hwaiting
      simp at hlength
  | called _ _ hback => exact hcalled hback (h j hj)

/-! ## The return of a call

Success is logged before the closure settles, in the same turn. -/

theorem jobSucceeded_cons_returned {call k : Nat} {t' id : String} {status : ExecutionStatus} :
    JobSucceeded (.returned call (.job k) t' status id :: history) t ↔
      (status = .ok ∧ t' = t) ∨ JobSucceeded history t := by
  constructor
  · rintro ⟨c, job, id', hmem⟩
    rcases List.mem_cons.mp hmem with heq | hold
    · cases heq
      exact .inl ⟨rfl, rfl⟩
    · exact .inr ⟨c, job, id', hold⟩
  · rintro (⟨rfl, rfl⟩ | ⟨c, job, id', hmem⟩)
    · exact ⟨call, k, id, List.mem_cons_self⟩
    · exact ⟨c, job, id', List.mem_cons_of_mem _ hmem⟩

/-- The call of the job numbered `k` returns, and the closure settles to `answer`. -/
structure Returns (k : Nat) (t : String) (answer : Except Rejection Unit) (a : Nat)
    (running : List (QueueJob Ready)) (w w' : Runtime) : Prop where
  calls   : ∃ c₁ c₂, jobCalls w = c₁ ++ (k, t) :: c₂ ∧ jobCalls w' = c₁ ++ c₂
  settled : w'.settledRuns = w.settledRuns ++ [(k, answer)]
  history : w'.history = w.history ∨ ∃ call status id,
    w'.history = .returned call (.job k) t status id :: w.history ∧
      (status = .ok → ∀ e, answer = .error e → ∀ job ∈ running, job.id = k → a ≤ job.attempt)

/-- **A call returns.** A success whose closure fails leaves no attempt. -/
theorem OneRun.returns (h : OneRun a n v) {k : Nat} {answer : Except Rejection Unit} {w' : Runtime}
    (hr : Returns k t answer a v.running v.outer w') : OneRun a n { v with outer := w' } := by
  obtain ⟨c₁, c₂, hcalls, hcalls'⟩ := hr.calls
  have hcall : (k, t) ∈ jobCalls v.outer := by simp [hcalls]
  have hrest : ∀ c ∈ jobCalls w', c ∈ jobCalls v.outer ∧ c.2 ≠ t := by
    intro c hc
    rw [hcalls'] at hc
    refine ⟨?_, ne_of_nodup_map (x := (k, t)) (hcalls ▸ List.perm_middle) h.callTasks c hc⟩
    rw [hcalls]
    simp only [List.mem_append, List.mem_cons] at hc ⊢
    tauto
  have hunder : (underWay w').Perm (underWay v.outer) := by
    unfold underWay
    rw [hcalls, hcalls', hr.settled]
    simp only [List.map_append, List.map_cons, List.map_nil, ← List.append_assoc]
    refine (List.perm_append_singleton k _).trans ?_
    simp only [List.append_assoc, List.cons_append]
    exact List.perm_middle.symm
  have hin : k ∈ underWay v.outer := List.mem_append_left _ (List.mem_map_of_mem hcall)
  -- the success, if it is one, is of the job's own task
  have hsucceeded : ∀ t', t' ≠ t → JobSucceeded w'.history t' →
      JobSucceeded v.outer.history t' := by
    intro t' hne hsuccess
    rcases hr.history with heq | ⟨call, status, id, heq, -⟩
    · exact heq ▸ hsuccess
    · rw [heq] at hsuccess
      rcases jobSucceeded_cons_returned.mp hsuccess with ⟨-, rfl⟩ | hold
      · exact absurd rfl hne
      · exact hold
  exact {
    ids := h.ids
    tasks := h.tasks
    named := h.named
    bound := h.bound
    runs := hunder.nodup_iff.mpr h.runs
    runBound := fun id hid => h.runBound id (hunder.subset hid)
    away := fun job hjob hid => h.away job hjob (hunder.subset hid)
    callTasks := by
      have hsub : (jobCalls w').Sublist (jobCalls v.outer) := by
        rw [hcalls, hcalls']
        exact List.Sublist.append_left (List.sublist_cons_self _ _) _
      exact h.callTasks.sublist (hsub.map _)
    linked := fun c hc job hjob => h.linked c (hrest c hc).1 job hjob
    unspent := fun c hc => mt (hsucceeded _ (hrest c hc).2) (h.unspent c (hrest c hc).1)
    waits := fun job hjob => by
      refine mt (hsucceeded _ fun heq => ?_) (h.waits job hjob)
      have hstanding : job ∈ standing v := by
        unfold standing
        simp only [List.mem_append] at hjob ⊢
        tauto
      have hid : job.id = k := (h.linked (k, t) hcall job hstanding).mp heq
      exact h.away job hjob (hid ▸ hin)
    retries := fun job hjob e he hatt => by
      have hstanding : job ∈ standing v :=
        List.mem_append_left _ (List.mem_append_right _ hjob)
      have hlinked : job.taskId = t ↔ job.id = k := h.linked (k, t) hcall job hstanding
      have he' : (job.id, .error e) ∈ v.outer.settledRuns ++ [(k, answer)] := hr.settled ▸ he
      rcases List.mem_append.mp he' with hold | hnew
      · -- another closure: its job is not the one that returns
        refine mt (hsucceeded _ fun heq => ?_) (h.retries job hjob e hold hatt)
        have hruns := h.runs
        unfold underWay at hruns
        exact (List.nodup_append.mp hruns).2.2 k (List.mem_map_of_mem hcall) job.id
          (List.mem_map_of_mem hold) (hlinked.mp heq).symm
      · obtain ⟨hid, hanswer⟩ := Prod.mk.inj (List.mem_singleton.mp hnew)
        have htask := hlinked.mpr hid
        have hunspent : ¬ JobSucceeded v.outer.history t := h.unspent (k, t) hcall
        show ¬ JobSucceeded w'.history job.taskId
        rw [htask]
        rcases hr.history with heq | ⟨call, status, id, heq, hok⟩
        · exact heq ▸ hunspent
        · rw [heq, jobSucceeded_cons_returned]
          rintro (⟨hstatus, -⟩ | hold)
          · have hle := hok hstatus e hanswer.symm job hjob hid
            omega
          · exact hunspent hold
    history := by
      show OnceByJobs w'.history
      rcases hr.history with heq | ⟨call, status, id, heq, -⟩
      · exact heq ▸ h.history
      · rw [heq]
        refine h.history.cons ?_ (by simp)
        intro call' job' t' id' hevent
        cases hevent
        exact h.unspent (k, t) hcall }

end Orchestrator

end MapProtocol
