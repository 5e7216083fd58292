import MapProtocol.ControlPlane.QueuePass

/-!
# What becomes of an accepted job

An accepted job is always in exactly one place: it is live (queued, running, or waiting for its
retry timer), or it has ended. `Fates` is the invariant that says so by counting, for each job
number, the places where it stands; every operation of the queue moves a job from one place to
another.

A job ends in one of three ways. It succeeds; it is recorded as a dead letter, and then called back
once; or the exactly-once guard skips it. The guard skips a job when its effect id is marked, and
the job that holds the mark is running or has ended itself, so a skipped job never stands alone:
`skipped` keeps, for each of them, another job with the same effect id.
-/

namespace MapProtocol

/-- The job as it was accepted: a retry changes its attempt only. -/
def QueueJob.asAccepted {ρ : Type} (job : QueueJob ρ) : QueueJob ρ := { job with attempt := 1 }

/-- How often each end of a job is on record. -/
structure Tally where
  succeeded    : Nat
  deadLettered : Nat
  calledBack   : Nat
  skipped      : Nat
  deriving DecidableEq, Repr

namespace QueueEvent

variable {ρ : Type}

def succeeds (i : Nat) : QueueEvent ρ → Bool
  | .succeeded job => job.id == i
  | _              => false

def deadLetters (i : Nat) : QueueEvent ρ → Bool
  | .deadLettered job _ => job.id == i
  | _                   => false

def callsBack (i : Nat) : QueueEvent ρ → Bool
  | .calledBack job => job.id == i
  | _               => false

def skips (i : Nat) : QueueEvent ρ → Bool
  | .skipped job => job.id == i
  | _            => false

end QueueEvent

namespace AsyncTaskQueue

variable {ρ ω : Type} {opts : AsyncTaskQueueOptions} {hooks : Hooks ρ ω} {now : Millis}
variable {q q' : AsyncTaskQueue ρ} {job : QueueJob ρ} {l₁ l₂ : List (QueueJob ρ)}
  {events log : List (QueueEvent ρ)} {i : Nat} {w : ω}

def tallyOf (log : List (QueueEvent ρ)) (i : Nat) : Tally where
  succeeded    := log.countP (QueueEvent.succeeds i)
  deadLettered := log.countP (QueueEvent.deadLetters i)
  calledBack   := log.countP (QueueEvent.callsBack i)
  skipped      := log.countP (QueueEvent.skips i)

/-- What is on record about the job numbered `i`. -/
def tally (q : AsyncTaskQueue ρ) (i : Nat) : Tally := tallyOf q.log i

def live (q : AsyncTaskQueue ρ) : List (QueueJob ρ) :=
  q.queue ++ q.runningJobs ++ q.retryTimers.map Prod.fst

/-- Nothing is queued, running or scheduled. -/
def Quiescent (q : AsyncTaskQueue ρ) : Prop :=
  q.queue = [] ∧ q.runningJobs = [] ∧ q.retryTimers = []

/-- The job succeeded once, or was recorded as a dead letter once and called back once. -/
def Resolved (q : AsyncTaskQueue ρ) (job : QueueJob ρ) : Prop :=
  q.tally job.id = ⟨1, 0, 0, 0⟩ ∨ q.tally job.id = ⟨0, 1, 1, 0⟩

/-- The job was skipped once, and another accepted job with its effect id is resolved. -/
def Superseded (q : AsyncTaskQueue ρ) (job : QueueJob ρ) : Prop :=
  q.tally job.id = ⟨0, 0, 0, 1⟩ ∧ ∃ other ∈ q.accepted, other.id ≠ job.id ∧
    other.effectId = job.effectId ∧ Resolved q other

/-- Every accepted job is resolved, or superseded by one that is. -/
def NoneLost (q : AsyncTaskQueue ρ) : Prop :=
  ∀ job ∈ q.accepted, Resolved q job ∨ Superseded q job

instance (q : AsyncTaskQueue ρ) (job : QueueJob ρ) : Decidable (Resolved q job) :=
  inferInstanceAs (Decidable (_ ∨ _))

instance [DecidableEq ρ] (q : AsyncTaskQueue ρ) : Decidable (Quiescent q) :=
  inferInstanceAs (Decidable (_ ∧ _))

/-- The job succeeded or became a dead letter. -/
def Completed (log : List (QueueEvent ρ)) (job : QueueJob ρ) : Prop :=
  .succeeded job ∈ log ∨ ∃ record, .deadLettered job record ∈ log

/-- How often the job numbered `i` stands somewhere: among the live jobs, or ended. -/
def places (live : List (QueueJob ρ)) (log : List (QueueEvent ρ)) (i : Nat) : Nat :=
  live.countP (·.id == i) + (tallyOf log i).succeeded + (tallyOf log i).deadLettered +
    (tallyOf log i).skipped

/-- **The fates of the accepted jobs.** -/
structure Fates (q : AsyncTaskQueue ρ) : Prop where
  running    : q.running = true
  conserved  : ∀ i, places q.live q.log i = if i < q.accepted.length then 1 else 0
  numbered   : q.accepted.map QueueJob.id = List.range q.accepted.length
  origin     : ∀ job, job ∈ q.live ∨ Completed q.log job ∨ .skipped job ∈ q.log →
    job.asAccepted ∈ q.accepted
  calledBack : ∀ i, (q.tally i).calledBack = (q.tally i).deadLettered
  delivered  : ∀ message ∈ q.outbox, message.eventType = .taskDeadLettered →
    message.delivered = true
  holder     : ∀ e ∈ q.completedEffects, ∃ job, job.effectId = e ∧
    (job ∈ q.runningJobs ∨ Completed q.log job)
  skipped    : ∀ job, .skipped job ∈ q.log → ∃ other, other.effectId = job.effectId ∧
    (other ∈ q.live ∨ Completed q.log other)

/-! ## Moves

A job that ends adds one to its tally as it leaves its place, so the sum of both stays one. -/

theorem Completed.cons {log : List (QueueEvent ρ)} {job : QueueJob ρ} (event : QueueEvent ρ)
    (h : Completed log job) : Completed (event :: log) job := by
  rcases h with hs | ⟨record, hd⟩
  · exact .inl (List.mem_cons_of_mem _ hs)
  · exact .inr ⟨record, List.mem_cons_of_mem _ hd⟩

theorem mem_live_of_running (h : job ∈ q.runningJobs) :
    job ∈ q.live := by
  simp [live, h]

theorem live_start (hq : q.queue = l₁ ++ job :: l₂) :
    (l₁ ++ l₂ ++ (q.runningJobs ++ [job]) ++ q.retryTimers.map Prod.fst).Perm q.live := by
  unfold live
  rw [hq]
  refine List.Perm.append_right _ ?_
  rw [← List.append_assoc]
  refine (List.perm_append_comm).trans ?_
  simp only [List.append_assoc, List.cons_append, List.nil_append]
  exact List.perm_middle.symm

theorem live_retry {message : String} (hq : q.runningJobs = l₁ ++ job :: l₂) :
    (q.queue ++ (l₁ ++ l₂) ++ (q.retryTimers ++ [(job, message)]).map Prod.fst).Perm q.live := by
  unfold live
  rw [hq]
  simp only [List.map_append, List.append_assoc, List.map_cons, List.map_nil]
  refine List.Perm.append_left _ (List.Perm.append_left _ ?_)
  rw [List.cons_append, ← List.append_assoc]
  exact List.perm_append_comm

/-- A start and a change of place among the live jobs keep the fates. -/
theorem Fates.move {q q' : AsyncTaskQueue ρ} (h : Fates q) (hrunning : q'.running = q.running)
    (haccepted : q'.accepted = q.accepted) (houtbox : q'.outbox = q.outbox)
    (hlog : q'.log = q.log ∨ ∃ job total ofTenant limit,
      q'.log = .started job total ofTenant limit :: q.log)
    (hlive : q'.live.Perm q.live)
    (hholder : ∀ e ∈ q'.completedEffects, ∃ job, job.effectId = e ∧
      (job ∈ q'.runningJobs ∨ Completed q.log job)) : Fates q' := by
  -- a start ends no job, so what is counted in the log stays
  have htally : ∀ i, tallyOf q'.log i = tallyOf q.log i := by
    intro i
    rcases hlog with hl | ⟨job, total, ofTenant, limit, hl⟩
    · rw [hl]
    · simp [hl, tallyOf, QueueEvent.succeeds, QueueEvent.deadLetters,
        QueueEvent.callsBack, QueueEvent.skips]
  have hcompleted : ∀ job, Completed q'.log job ↔ Completed q.log job := by
    intro job
    rcases hlog with hl | ⟨_, _, _, _, hl⟩ <;> simp [hl, Completed]
  have hskipped : ∀ job, .skipped job ∈ q'.log ↔ .skipped job ∈ q.log := by
    intro job
    rcases hlog with hl | ⟨_, _, _, _, hl⟩ <;> simp [hl]
  constructor
  · rw [hrunning]
    exact h.running
  · intro i
    have hi := h.conserved i
    unfold places at hi ⊢
    rw [hlive.countP_eq, htally, haccepted]
    exact hi
  · rw [haccepted]
    exact h.numbered
  · intro job hjob
    rw [haccepted]
    rw [hlive.mem_iff, hcompleted, hskipped] at hjob
    exact h.origin job hjob
  · intro i
    unfold tally
    rw [htally]
    exact h.calledBack i
  · rw [houtbox]
    exact h.delivered
  · intro e he
    obtain ⟨job, heffect, hjob⟩ := hholder e he
    exact ⟨job, heffect, by rwa [hcompleted]⟩
  · intro job hjob
    obtain ⟨other, heffect, hother⟩ := h.skipped job ((hskipped job).mp hjob)
    exact ⟨other, heffect, by rwa [hlive.mem_iff, hcompleted]⟩

/-- What is logged when a job ends: a success, a dead letter called back, or a skip. -/
inductive EndOf (job : QueueJob ρ) : List (QueueEvent ρ) → Prop
  | success : EndOf job [.succeeded job]
  | burial (record : DeadLetterRecord) : EndOf job [.calledBack job, .deadLettered job record]
  | skip : EndOf job [.skipped job]

theorem EndOf.places (h : EndOf job events) (live : List (QueueJob ρ)) (i : Nat) :
    places live (events ++ log) i = places (job :: live) log i := by
  cases h <;>
    simp only [AsyncTaskQueue.places, tallyOf, List.cons_append, List.nil_append,
      List.countP_cons, QueueEvent.succeeds, QueueEvent.deadLetters, QueueEvent.callsBack,
      QueueEvent.skips] <;>
    simp <;> omega

theorem EndOf.calledBack (h : EndOf job events)
    (hlog : (tallyOf log i).calledBack = (tallyOf log i).deadLettered) :
    (tallyOf (events ++ log) i).calledBack = (tallyOf (events ++ log) i).deadLettered := by
  simp only [tallyOf] at hlog ⊢
  cases h <;> simp [List.countP_cons, QueueEvent.deadLetters, QueueEvent.callsBack, hlog]

theorem EndOf.mem {job other : QueueJob ρ} (h : EndOf job events)
    (hother : Completed (events ++ log) other ∨ .skipped other ∈ events ++ log) :
    other = job ∨ Completed log other ∨ .skipped other ∈ log := by
  unfold Completed at hother ⊢
  cases h with
  | success =>
      simp only [List.cons_append, List.nil_append, List.mem_cons] at hother
      grind
  | burial record =>
      simp only [List.cons_append, List.nil_append, List.mem_cons] at hother
      grind
  | skip =>
      simp only [List.cons_append, List.nil_append, List.mem_cons] at hother
      grind

theorem Completed.append (events : List (QueueEvent ρ)) (h : Completed log job) :
    Completed (events ++ log) job := by
  induction events with
  | nil => exact h
  | cons event events ih => exact ih.cons event

/-- **The end of a job keeps the fates.** A job that ends is completed itself, or, when it is
skipped, another job holds its mark. -/
theorem Fates.finish {q q' : AsyncTaskQueue ρ} {job : QueueJob ρ} {events : List (QueueEvent ρ)}
    (h : Fates q) (hend : EndOf job events) (hrunning : q'.running = q.running)
    (haccepted : q'.accepted = q.accepted)
    (houtbox : ∀ message ∈ q'.outbox, message ∈ q.outbox ∨
      message.eventType ≠ .taskDeadLettered ∨ message.delivered = true)
    (hlog : q'.log = events ++ q.log) (hlive : q.live.Perm (job :: q'.live))
    (hholder : ∀ e ∈ q'.completedEffects, ∃ other, other.effectId = e ∧
      (other ∈ q'.runningJobs ∨ Completed q'.log other))
    (hstands : ∃ other, other.effectId = job.effectId ∧
      (other ∈ q'.live ∨ Completed q'.log other)) : Fates q' := by
  constructor
  · rw [hrunning]
    exact h.running
  · intro i
    have hi := h.conserved i
    rw [hlog, hend.places, haccepted, ← hi]
    unfold places
    rw [hlive.countP_eq]
  · rw [haccepted]
    exact h.numbered
  · intro other hother
    rw [haccepted]
    rw [hlog] at hother
    rcases hother with hl | hrest
    · refine h.origin other (.inl ?_)
      rw [hlive.mem_iff]
      exact List.mem_cons_of_mem _ hl
    · rcases hend.mem hrest with rfl | hold
      · refine h.origin other (.inl ?_)
        rw [hlive.mem_iff]
        exact List.mem_cons_self
      · exact h.origin other (.inr hold)
  · intro i
    unfold tally
    rw [hlog]
    exact hend.calledBack (h.calledBack i)
  · intro message hmem htype
    rcases houtbox message hmem with hold | hne | hdelivered
    · exact h.delivered message hold htype
    · exact absurd htype hne
    · exact hdelivered
  · exact hholder
  · intro other hother
    rw [hlog] at hother
    -- who stands for a skipped job: the job that ends may have, and `hstands` names its heir
    rcases hend.mem (.inr hother) with rfl | hold | hold
    · exact hstands
    · -- a completed job that was also skipped stands for itself
      exact ⟨other, rfl, .inr (hlog ▸ hold.append events)⟩
    · obtain ⟨holder, heffect, hlive' | hcompleted⟩ := h.skipped other hold
      · rw [hlive.mem_iff, List.mem_cons] at hlive'
        rcases hlive' with rfl | hmem
        · obtain ⟨next, hnext, hplace⟩ := hstands
          exact ⟨next, hnext.trans heffect, hplace⟩
        · exact ⟨holder, heffect, .inl hmem⟩
      · exact ⟨holder, heffect, .inr (hlog ▸ hcompleted.append events)⟩

/-- A job that waits comes back with the next attempt. -/
theorem Fates.replace {job job' : QueueJob ρ} {rest : List (QueueJob ρ)} (h : Fates q)
    (hsame : job'.asAccepted = job.asAccepted) (hrunning : q'.running = q.running)
    (haccepted : q'.accepted = q.accepted) (houtbox : q'.outbox = q.outbox) (hlog : q'.log = q.log)
    (hjobs : q'.runningJobs = q.runningJobs) (heffects : q'.completedEffects = q.completedEffects)
    (hlive : q.live.Perm (job :: rest)) (hlive' : q'.live.Perm (job' :: rest)) : Fates q' := by
  have hid : job'.id = job.id := by
    show job'.asAccepted.id = job.asAccepted.id
    rw [hsame]
  have heffect : job'.effectId = job.effectId := by
    show job'.asAccepted.effectId = job.asAccepted.effectId
    rw [hsame]
  constructor
  · rw [hrunning]
    exact h.running
  · intro i
    have hi := h.conserved i
    unfold places at hi ⊢
    -- both jobs have one number, so every count stays
    rw [hlive.countP_eq] at hi
    rw [hlive'.countP_eq, hlog, haccepted, ← hi, List.countP_cons, List.countP_cons, hid]
  · rw [haccepted]
    exact h.numbered
  · intro other hother
    rw [haccepted]
    rw [hlive'.mem_iff, List.mem_cons, hlog] at hother
    rcases hother with (rfl | hmem) | hrest
    · rw [hsame]
      exact h.origin job (.inl (hlive.mem_iff.mpr List.mem_cons_self))
    · exact h.origin other (.inl (hlive.mem_iff.mpr (List.mem_cons_of_mem _ hmem)))
    · exact h.origin other (.inr hrest)
  · intro i
    unfold tally
    rw [hlog]
    exact h.calledBack i
  · rw [houtbox]
    exact h.delivered
  · rw [heffects, hjobs, hlog]
    exact h.holder
  · intro other hother
    rw [hlog] at hother ⊢
    obtain ⟨holder, hsameEffect, hplace | hcompleted⟩ := h.skipped other hother
    · rw [hlive.mem_iff, List.mem_cons] at hplace
      rcases hplace with rfl | hmem
      · refine ⟨job', heffect.trans hsameEffect, .inl ?_⟩
        exact hlive'.mem_iff.mpr List.mem_cons_self
      · refine ⟨holder, hsameEffect, .inl ?_⟩
        exact hlive'.mem_iff.mpr (List.mem_cons_of_mem _ hmem)
    · exact ⟨holder, hsameEffect, .inr hcompleted⟩

/-! ## The operations

The rules of a pass ask for the fates after a start and after a skip. -/

/-- The counters and the flags the scheduler keeps have no part in the fates. -/
theorem Fates.scheduler (h : Fates q) (leasedJobs : OrderedMap String Millis) (inflight : Nat)
    (inflightByTenant : OrderedMap String Nat) (processing : Bool) (microtasks : Nat)
    (pendingRetry : Int) (tenantQuota : OrderedMap String Nat) :
    Fates { q with
      leasedJobs := leasedJobs
      inflight := inflight
      inflightByTenant := inflightByTenant
      processing := processing
      microtasks := microtasks
      pendingRetry := pendingRetry
      tenantQuota := tenantQuota } :=
  ⟨h.running, h.conserved, h.numbered, h.origin, h.calledBack, h.delivered, h.holder, h.skipped⟩

theorem Fates.enter (hooks : Hooks ρ ω) (w : ω) (h : Fates q) (hq : q.queue = l₁ ++ job :: l₂) :
    Fates (enter opts hooks now job ({ q with queue := l₁ ++ l₂ }, w)).1 := by
  refine h.move rfl rfl rfl (.inr ⟨_, _, _, _, rfl⟩) ?_ ?_
  · exact live_start hq
  · intro e he
    rcases List.mem_cons.mp he with rfl | hold
    · exact ⟨job, rfl, .inl (List.mem_append_right _ (List.mem_singleton_self job))⟩
    · obtain ⟨holder, heffect, hrun | hcompleted⟩ := h.holder e hold
      · exact ⟨holder, heffect, .inl (List.mem_append_left _ hrun)⟩
      · exact ⟨holder, heffect, .inr hcompleted⟩

/-- A job that is skipped leaves the queue; the holder of its mark is elsewhere. -/
theorem Fates.skip (w : ω) (h : Fates q) (hq : q.queue = l₁ ++ job :: l₂)
    (hmarked : job.effectId ∈ q.completedEffects) :
    Fates (skip now job ({ q with queue := l₁ ++ l₂ }, w)).1 := by
  have hholder : ∀ e ∈ q.completedEffects, ∃ other, other.effectId = e ∧
      (other ∈ q.runningJobs ∨ Completed (.skipped job :: q.log) other) := by
    intro e he
    obtain ⟨holder, heffect, hplace⟩ := h.holder e he
    exact ⟨holder, heffect, hplace.imp_right fun hc => hc.cons _⟩
  refine h.finish (EndOf.skip : EndOf job _) rfl rfl (fun _ hm => .inl hm) rfl ?_ hholder ?_
  · show q.live.Perm
      (job :: (l₁ ++ l₂ ++ q.runningJobs ++ q.retryTimers.map Prod.fst))
    unfold live
    rw [hq]
    simp only [List.append_assoc, List.cons_append]
    exact List.perm_middle
  · obtain ⟨holder, heffect, hrun | hcompleted⟩ := hholder _ hmarked
    · refine ⟨holder, heffect, .inl ?_⟩
      exact mem_live_of_running hrun
    · exact ⟨holder, heffect, .inr hcompleted⟩

/-- **A pass keeps the fates**, also of jobs `extra` that are about to wait for their timers. -/
theorem passRules_fates (extra : List (QueueJob ρ × String)) : PassRules opts hooks now
    fun s => Fates { s.1 with retryTimers := s.1.retryTimers ++ extra } where
  reap s h := by
    obtain ⟨leasedJobs, inflight, processing, heq⟩ := reapExpiredLeases_eq now s.1
    dsimp only
    rw [heq]
    exact h.scheduler _ _ _ _ _ _ _
  settle s h := by
    obtain ⟨processing, heq⟩ := settleProcessing_eq s.1
    dsimp only
    rw [heq]
    exact h.scheduler _ _ _ _ _ _ _
  start s job q' h _ ht _ := by
    obtain ⟨l₁, l₂, hq, rfl, _⟩ := takeRunnable_eq_some ht
    exact h.enter hooks s.2 hq
  skip s job q' h _ ht hmarked := by
    obtain ⟨l₁, l₂, hq, rfl, _⟩ := takeRunnable_eq_some ht
    refine ⟨h.skip s.2 hq hmarked, fun s' hs' => ?_⟩
    exact hs'.scheduler _ _ _ _ _ _ _

theorem finishJob_fates {s : AsyncTaskQueue ρ × ω} {tenantKey taskId : String}
    (extra : List (QueueJob ρ × String))
    (h : Fates { s.1 with retryTimers := s.1.retryTimers ++ extra }) :
    Fates { (finishJob opts hooks now tenantKey taskId s).1 with
      retryTimers := (finishJob opts hooks now tenantKey taskId s).1.retryTimers ++ extra } :=
  finishJob_preserves (passRules_fates extra) (h.scheduler _ _ _ _ _ _ _)

theorem finishJob_fates_nil {s : AsyncTaskQueue ρ × ω} {tenantKey taskId : String}
    (h : Fates s.1) : Fates (finishJob opts hooks now tenantKey taskId s).1 := by
  have hnil : Fates { (finishJob opts hooks now tenantKey taskId s).1 with
      retryTimers := (finishJob opts hooks now tenantKey taskId s).1.retryTimers ++ [] } :=
    finishJob_fates [] (by simpa using h)
  simpa using hnil

/-! ## Steps -/

/-- A running job that ends, and the pass after it, keep the fates. -/
theorem Fates.ends {q q' : AsyncTaskQueue ρ} {job : QueueJob ρ} {l₁ l₂ : List (QueueJob ρ)}
    {events : List (QueueEvent ρ)} (h : Fates q) (hq : q.runningJobs = l₁ ++ job :: l₂)
    (hend : EndOf job events) (hcompleted : Completed events job)
    (hrunning : q'.running = q.running) (haccepted : q'.accepted = q.accepted)
    (houtbox : ∀ message ∈ q'.outbox, message ∈ q.outbox ∨
      message.eventType ≠ .taskDeadLettered ∨ message.delivered = true)
    (hlog : q'.log = events ++ q.log) (hqueue : q'.queue = q.queue)
    (hjobs : q'.runningJobs = l₁ ++ l₂) (htimers : q'.retryTimers = q.retryTimers)
    (heffects : q'.completedEffects = q.completedEffects) : Fates q' := by
  have hdone : Completed q'.log job := by
    rw [hlog]
    rcases hcompleted with hs | ⟨record, hd⟩
    · exact .inl (List.mem_append_left _ hs)
    · exact .inr ⟨record, List.mem_append_left _ hd⟩
  refine h.finish hend hrunning haccepted houtbox hlog ?_ ?_ ⟨job, rfl, .inr hdone⟩
  · unfold live
    rw [hq, hqueue, hjobs, htimers]
    simp only [List.append_assoc, List.cons_append]
    rw [← List.append_assoc, ← List.append_assoc q.queue l₁]
    exact List.perm_middle
  · intro e he
    rw [heffects] at he
    obtain ⟨holder, heffect, hrun | hcomp⟩ := h.holder e he
    · rw [hq] at hrun
      rcases List.mem_append.mp hrun with hl | hl
      · exact ⟨holder, heffect, .inl (hjobs ▸ List.mem_append_left _ hl)⟩
      · rcases List.mem_cons.mp hl with rfl | hl
        · exact ⟨holder, heffect, .inr hdone⟩
        · exact ⟨holder, heffect, .inl (hjobs ▸ List.mem_append_right _ hl)⟩
    · exact ⟨holder, heffect, .inr (hlog ▸ hcomp.append events)⟩

theorem settle_fates {id : Nat} {outcome : Except (Option String) Unit} {fault : Option String}
    (h : Fates q) (hpersist : persistDeadLetters opts fault = .ok ()) :
    Fates (settle opts hooks now id outcome fault (q, w)).1 := by
  have hcases := settle_cases opts hooks now id fault q w outcome
  generalize settle opts hooks now id outcome fault (q, w) = s at hcases ⊢
  cases hcases with
  | absent => exact h
  | succeeded _ hq =>
      refine finishJob_fates_nil ?_
      refine h.ends hq .success ?_ rfl rfl ?_ rfl rfl rfl rfl rfl
      · exact .inl (List.mem_singleton_self _)
      · intro message hmem
        rcases List.mem_append.mp hmem with hold | hnew
        · exact .inl hold
        · rw [List.mem_singleton.mp hnew]
          exact .inr (.inl (by simp))
  | @retried job l₁ l₂ e _ _ hq _ hs =>
      -- the job goes to its timer, and is `extra` while the pass runs
      have hmoved : Fates { q with
          runningJobs := l₁ ++ l₂
          completedEffects := q.completedEffects.filter (· ≠ job.effectId)
          retryTimers := q.retryTimers ++ [(job, e.getD "Async queue job failed.")] } := by
        refine h.move rfl rfl rfl (.inl rfl) ?_ ?_
        · exact live_retry hq
        · intro f hf
          obtain ⟨hmarked, hne⟩ := List.mem_filter.mp hf
          obtain ⟨holder, heffect, hrun | hcompleted⟩ := h.holder f hmarked
          · refine ⟨holder, heffect, .inl ?_⟩
            rw [hq] at hrun
            have hother : holder ≠ job := by
              rintro rfl
              exact absurd heffect.symm (by simpa using hne)
            simpa [hother] using hrun
          · exact ⟨holder, heffect, .inr hcompleted⟩
      rw [hs]
      exact (finishJob_fates [(job, e.getD "Async queue job failed.")] hmoved).scheduler
        _ _ _ _ _ _ _
  | @buried job l₁ l₂ e record s _ hq _ hrecord hburied =>
      -- the dead letter is on record, or its write throws, against `hpersist`
      obtain ⟨q', w'⟩ := s
      obtain ⟨deadLetters, quarantined, outbox, callbacks, log, rfl, hout, _, hlog⟩ := hburied
      refine finishJob_fates_nil ?_
      rcases hlog with ⟨_, rfl, _⟩ | ⟨hfault, _⟩
      · refine h.ends hq (.burial _) ?_ rfl rfl ?_ rfl rfl rfl rfl rfl
        · exact .inr ⟨_, List.mem_cons_of_mem _ (List.mem_singleton_self _)⟩
        · exact fun message hmem => (hout message hmem).imp_right .inr
      · exact absurd hpersist hfault

theorem fireTimer_fates {id : Nat} {fault : Option String} (h : Fates q)
    (hpersist : persistDeadLetters opts fault = .ok ()) :
    Fates (fireTimer opts hooks now id fault (q, w)).1 := by
  have hcases := fireTimer_cases opts hooks now id fault q w
  generalize fireTimer opts hooks now id fault (q, w) = s at hcases ⊢
  have hlive : ∀ {job : QueueJob ρ} {message : String} {l₁ l₂ : List (QueueJob ρ × String)},
      q.retryTimers = l₁ ++ (job, message) :: l₂ →
        q.live.Perm (job :: (q.queue ++ q.runningJobs ++ (l₁ ++ l₂).map Prod.fst)) := by
    intro job message l₁ l₂ hq
    unfold live
    rw [hq]
    simp only [List.map_append, List.map_cons]
    rw [← List.append_assoc, ← List.append_assoc]
    exact List.perm_middle
  cases hcases with
  | absent => exact h
  | stopped _ hrun =>
      rw [h.running] at hrun
      cases hrun
  | @buried job message l₁ l₂ record s hq _ _ hrecord hburied =>
      obtain ⟨deadLetters, quarantined, outbox, callbacks, log, heq, hout, _, hlog⟩ := hburied
      rw [heq]
      rcases hlog with ⟨_, rfl, _⟩ | ⟨hfault, _⟩
      · have hdone : Completed (.calledBack job :: .deadLettered job record :: q.log) job :=
          .inr ⟨_, List.mem_cons_of_mem _ List.mem_cons_self⟩
        refine h.finish (.burial _) rfl rfl ?_ rfl (hlive hq) ?_ ⟨job, rfl, .inr hdone⟩
        · exact fun m hmem => (hout m hmem).imp_right .inr
        · intro e he
          obtain ⟨holder, heffect, hplace⟩ := h.holder e he
          exact ⟨holder, heffect, hplace.imp_right fun hc => (hc.cons _).cons _⟩
      · exact absurd hpersist hfault
  | @requeued job message l₁ l₂ _ hq =>
      obtain ⟨processing, microtasks, heq⟩ := kickoff_eq
        { q with
          retryTimers := l₁ ++ l₂
          pendingRetry := q.pendingRetry - 1
          queue := q.queue ++ [{ job with attempt := job.attempt + 1 }] }
      dsimp only
      rw [heq]
      have hback : (q.queue ++ [{ job with attempt := job.attempt + 1 }] ++ q.runningJobs ++
          (l₁ ++ l₂).map Prod.fst).Perm ({ job with attempt := job.attempt + 1 } ::
            (q.queue ++ q.runningJobs ++ (l₁ ++ l₂).map Prod.fst)) := by
        simp only [List.append_assoc, List.cons_append, List.nil_append]
        exact List.perm_middle
      exact h.replace (by rfl) rfl rfl rfl rfl rfl rfl (hlive hq) hback

theorem enqueue_fates {params : EnqueueParams ρ} (h : Fates q) :
    Fates (q.enqueue opts params).2 := by
  unfold enqueue
  split
  · exact h
  · dsimp only
    generalize hjob : (QueueJob.mk q.accepted.length params.taskId params.tenantId 1
      params.idempotencyToken params.run : QueueJob ρ) = job
    have hid : job.id = q.accepted.length := by rw [← hjob]
    have hsame : job.asAccepted = job := by rw [← hjob]; rfl
    obtain ⟨processing, microtasks, heq⟩ := kickoff_eq
      { q with queue := q.queue ++ [job], accepted := q.accepted ++ [job] }
    rw [heq]
    have hlive : (q.queue ++ [job] ++ q.runningJobs ++ q.retryTimers.map Prod.fst).Perm
        (job :: q.live) := by
      unfold live
      simp only [List.append_assoc, List.cons_append, List.nil_append]
      exact List.perm_middle
    constructor
    · exact h.running
    · intro i
      have hi := h.conserved i
      show places (q.queue ++ [job] ++ q.runningJobs ++ q.retryTimers.map Prod.fst) q.log i =
        if i < (q.accepted ++ [job]).length then 1 else 0
      unfold places at hi ⊢
      rw [hlive.countP_eq, List.countP_cons, hid]
      simp only [beq_iff_eq, List.length_append, List.length_singleton]
      -- a number below the old length, the new job's own, or one beyond
      by_cases hlt : i < q.accepted.length
      · have hne : q.accepted.length ≠ i := by omega
        simp only [hlt, hne, if_true, if_false] at hi ⊢
        rw [if_pos (by omega)]
        omega
      · simp only [hlt, if_false] at hi
        by_cases heq : q.accepted.length = i
        · rw [if_pos heq, if_pos (by omega)]
          omega
        · rw [if_neg heq, if_neg (by omega)]
          omega
    · show (q.accepted ++ [job]).map QueueJob.id = List.range (q.accepted ++ [job]).length
      rw [List.map_append, h.numbered, List.length_append, List.length_singleton,
        List.range_succ, List.map_singleton, hid]
    · intro other hother
      show other.asAccepted ∈ q.accepted ++ [job]
      rcases hother with hmem | hrest
      · rcases List.mem_cons.mp (hlive.mem_iff.mp hmem) with rfl | hold
        · rw [hsame]
          exact List.mem_append_right _ (List.mem_singleton_self _)
        · exact List.mem_append_left _ (h.origin other (.inl hold))
      · exact List.mem_append_left _ (h.origin other (.inr hrest))
    · exact h.calledBack
    · exact h.delivered
    · exact h.holder
    · intro other hother
      obtain ⟨holder, heffect, hplace⟩ := h.skipped other hother
      refine ⟨holder, heffect, hplace.imp_left fun hmem => ?_⟩
      exact hlive.mem_iff.mpr (List.mem_cons_of_mem _ hmem)

/-- With every dead-letter message delivered, `processOutbox` calls nothing back. -/
theorem deliverAll_of_delivered (hooks : Hooks ρ ω) (messages : List OutboxMessage)
    (s : AsyncTaskQueue ρ × ω)
    (h : ∀ message ∈ messages, message.eventType = .taskDeadLettered → message.delivered = true) :
    (deliverAll hooks s messages).2 = s ∧
      ∀ message ∈ (deliverAll hooks s messages).1, message.delivered = true := by
  induction messages with
  | nil => exact ⟨rfl, fun _ hm => absurd hm List.not_mem_nil⟩
  | cons message messages ih =>
      have hhead : (deliver hooks s message).2 = s ∧
          (deliver hooks s message).1.delivered = true := by
        unfold deliver
        by_cases hd : message.delivered = true
        · rw [if_pos hd]
          exact ⟨rfl, hd⟩
        · have hne : message.eventType ≠ .taskDeadLettered :=
            fun htype => hd (h message List.mem_cons_self htype)
          rw [if_neg hd]
          dsimp only
          split
          · rename_i htype _ _
            exact absurd htype hne
          · exact ⟨rfl, rfl⟩
      obtain ⟨hstate, htail⟩ := ih fun m hm => h m (List.mem_cons_of_mem _ hm)
      have hrest : (deliverAll hooks s (message :: messages)).2 =
          (deliverAll hooks (deliver hooks s message).2 messages).2 := rfl
      refine ⟨by rw [hrest, hhead.1, hstate], fun m hm => ?_⟩
      have hsplit : m = (deliver hooks s message).1 ∨
          m ∈ (deliverAll hooks (deliver hooks s message).2 messages).1 := List.mem_cons.mp hm
      rw [hhead.1] at hsplit
      rcases hsplit with rfl | hmem
      · exact hhead.2
      · exact htail m hmem

theorem processOutbox_fates (h : Fates q) :
    Fates (processOutbox hooks (q, w)).1 := by
  obtain ⟨hstate, hdelivered⟩ :=
    deliverAll_of_delivered hooks q.outbox (q, w) h.delivered
  unfold processOutbox
  generalize deliverAll hooks (q, w) q.outbox = result at hstate hdelivered
  obtain ⟨messages, s⟩ := result
  obtain rfl : s = (q, w) := hstate
  exact ⟨h.running, h.conserved, h.numbered, h.origin, h.calledBack,
    fun message hm _ => hdelivered message hm, h.holder, h.skipped⟩

theorem runMicrotask_fates (h : Fates q) :
    Fates (runMicrotask opts hooks now (q, w)).1 := by
  unfold runMicrotask
  dsimp only
  split
  · exact h
  · have hpass : Fates { (maybeRunJobs opts hooks now
        ({ q with microtasks := q.microtasks - 1 }, w)).1 with
        retryTimers := (maybeRunJobs opts hooks now
          ({ q with microtasks := q.microtasks - 1 }, w)).1.retryTimers ++ [] } := by
      refine maybeRunJobs_preserves (passRules_fates []) ?_
      have hmicro : Fates { q with microtasks := q.microtasks - 1 } := h.scheduler _ _ _ _ _ _ _
      simpa using hmicro
    simpa using hpass

/-! ## At rest

With nothing queued, running or scheduled no place is left, and the tally says the rest. -/

theorem Fates.id_lt (h : Fates q) (hjob : job ∈ q.accepted) : job.id < q.accepted.length := by
  have hmem : job.id ∈ q.accepted.map QueueJob.id := List.mem_map_of_mem hjob
  rw [h.numbered] at hmem
  exact List.mem_range.mp hmem

theorem Fates.eq_of_id (h : Fates q) {a b : QueueJob ρ} (ha : a ∈ q.accepted) (hb : b ∈ q.accepted)
    (hid : a.id = b.id) : a = b := by
  have hnodup : (q.accepted.map QueueJob.id).Nodup := by
    rw [h.numbered]
    exact List.nodup_range
  exact List.inj_on_of_nodup_map hnodup ha hb hid

theorem Fates.tally_at_rest (h : Fates q) (hquiet : Quiescent q) (hi : i < q.accepted.length) :
    q.tally i = ⟨1, 0, 0, 0⟩ ∨ q.tally i = ⟨0, 1, 1, 0⟩ ∨ q.tally i = ⟨0, 0, 0, 1⟩ := by
  obtain ⟨hqueue, hjobs, htimers⟩ := hquiet
  have hplaces := h.conserved i
  have hcalled := h.calledBack i
  have hlive : q.live = [] := by simp [live, hqueue, hjobs, htimers]
  rw [if_pos hi] at hplaces
  simp only [places, hlive, List.countP_nil] at hplaces
  unfold tally at hcalled ⊢
  generalize tallyOf q.log i = t at hplaces hcalled ⊢
  obtain ⟨succeeded, deadLettered, called, skipped⟩ := t
  simp only [Tally.mk.injEq] at hplaces hcalled ⊢
  omega

theorem Fates.tally_of_completed (h : Fates q) (hquiet : Quiescent q)
    (hjob : job.asAccepted ∈ q.accepted) (hdone : Completed q.log job) :
    Resolved q job := by
  rcases h.tally_at_rest hquiet (h.id_lt hjob) with ht | ht | ht
  · exact .inl ht
  · exact .inr ht
  · have hzero : (q.tally job.id).succeeded = 0 ∧ (q.tally job.id).deadLettered = 0 := by
      show (q.tally job.asAccepted.id).succeeded = 0 ∧ (q.tally job.asAccepted.id).deadLettered = 0
      rw [ht]
      exact ⟨rfl, rfl⟩
    rcases hdone with hs | ⟨record, hd⟩
    · have hpos : 0 < (q.tally job.id).succeeded :=
        List.countP_pos_iff.mpr ⟨_, hs, by simp [QueueEvent.succeeds]⟩
      omega
    · have hpos : 0 < (q.tally job.id).deadLettered :=
        List.countP_pos_iff.mpr ⟨_, hd, by simp [QueueEvent.deadLetters]⟩
      omega

theorem exists_skipped_of_tally (h : 0 < (q.tally i).skipped) :
    ∃ job, job.id = i ∧ .skipped job ∈ q.log := by
  obtain ⟨event, hmem, hskip⟩ := List.countP_pos_iff.mp h
  cases event with
  | skipped job => exact ⟨job, by simpa [QueueEvent.skips] using hskip, hmem⟩
  | _ => simp [QueueEvent.skips] at hskip

/-- **At rest, none is lost.** -/
theorem Fates.at_rest (h : Fates q) (hquiet : Quiescent q) :
    NoneLost q := by
  intro job hjob
  rcases h.tally_at_rest hquiet (h.id_lt hjob) with ht | ht | ht
  · exact .inl (.inl ht)
  · exact .inl (.inr ht)
  · refine .inr ⟨ht, ?_⟩
    obtain ⟨skipped, hid, hmem⟩ := exists_skipped_of_tally (q := q) (i := job.id) (by simp [ht])
    have hsame : skipped.asAccepted = job :=
      h.eq_of_id (h.origin skipped (.inr (.inr hmem))) hjob hid
    obtain ⟨other, heffect, hlive | hdone⟩ := h.skipped skipped hmem
    · obtain ⟨hqueue, hjobs, htimers⟩ := hquiet
      simp [live, hqueue, hjobs, htimers] at hlive
    · have hother := h.origin other (.inr (.inl hdone))
      have htally := h.tally_of_completed hquiet hother hdone
      refine ⟨other.asAccepted, hother, ?_, ?_, htally⟩
      · intro hclash
        have hclash' : other.id = job.id := hclash
        unfold Resolved at htally
        rw [hclash', ht] at htally
        simp at htally
      · show other.effectId = job.effectId
        rw [heffect, ← hsame]
        rfl

end AsyncTaskQueue

/-! ## Runs -/

namespace QueueMachine

open AsyncTaskQueue

variable {ρ ω : Type} {opts : AsyncTaskQueueOptions} {hooks : Hooks ρ ω}

/-- **The condition on a step.** The queue is not stopped, and no write of the dead-letter file
throws. -/
def Undisturbed (opts : AsyncTaskQueueOptions) (_ : QueueMachine ρ ω) : QueueLabel ρ → Prop
  | .settle _ _ fault   => opts.deadLetterStorePath = none ∨ fault = none
  | .retryTimer _ fault => opts.deadLetterStorePath = none ∨ fault = none
  | .stop               => False
  | _                   => True

instance (m : QueueMachine ρ ω) : (l : QueueLabel ρ) → Decidable (Undisturbed opts m l)
  | .settle _ _ _     => inferInstanceAs (Decidable (_ ∨ _))
  | .retryTimer _ _   => inferInstanceAs (Decidable (_ ∨ _))
  | .stop             => isFalse id
  | .enqueue _        => isTrue trivial
  | .microtask        => isTrue trivial
  | .setTenantQuota _ _ => isTrue trivial
  | .processOutbox    => isTrue trivial
  | .tick _           => isTrue trivial

theorem persistDeadLetters_ok {fault : Option String}
    (h : opts.deadLetterStorePath = none ∨ fault = none) :
    persistDeadLetters opts fault = .ok () := by
  rcases h with h | h <;> simp [persistDeadLetters, h]

/-- **Every undisturbed step keeps the fates.** -/
theorem step_fates {m : QueueMachine ρ ω} {l : QueueLabel ρ} (h : Fates m.queue)
    (hcond : Undisturbed opts m l) : Fates (step opts hooks m l).queue := by
  cases l with
  | enqueue params => exact enqueue_fates h
  | microtask => exact runMicrotask_fates h
  | settle id outcome fault => exact settle_fates h (persistDeadLetters_ok hcond)
  | retryTimer id fault => exact fireTimer_fates h (persistDeadLetters_ok hcond)
  | setTenantQuota tenantId quota => exact h.scheduler _ _ _ _ _ _ _
  | stop => exact absurd hcond id
  | processOutbox => exact processOutbox_fates h
  | tick ms => exact h

theorem init_fates (stored : List DeadLetterRecord) (outer : ω) (now : Millis) :
    Fates (init opts stored outer now : QueueMachine ρ ω).queue where
  running := rfl
  conserved _ := rfl
  numbered := rfl
  origin job h := by simp [init, AsyncTaskQueue.init, live, Completed] at h
  calledBack _ := rfl
  delivered _ h := absurd h List.not_mem_nil
  holder _ h := absurd h List.not_mem_nil
  skipped _ h := absurd h List.not_mem_nil

theorem run_fates {stored : List DeadLetterRecord} {outer : ω} {now : Millis}
    {ls : List (QueueLabel ρ)}
    (h : Transition.StepsMeet (step opts hooks) (Undisturbed opts)
      (init opts stored outer now) ls) :
    Fates (run opts hooks (init opts stored outer now) ls).queue :=
  Transition.run_invariant (I := fun m => Fates m.queue)
    (fun _ _ hfates hcond => step_fates hfates hcond) (init_fates stored outer now) h

/-- **No accepted job is lost.** Whenever an undisturbed run has come to rest, each accepted job has
succeeded once; or was recorded as a dead letter once and called back once; or was skipped by the
exactly-once guard, and then another accepted job with its effect id ended in one of the first two
ways. -/
theorem no_accepted_job_lost (opts : AsyncTaskQueueOptions) (hooks : Hooks ρ ω)
    (stored : List DeadLetterRecord) (outer : ω) (now : Millis) (ls : List (QueueLabel ρ))
    (h : Transition.StepsMeet (step opts hooks) (Undisturbed opts)
      (init opts stored outer now) ls)
    (hquiet : Quiescent (run opts hooks (init opts stored outer now) ls).queue) :
    NoneLost (run opts hooks (init opts stored outer now) ls).queue :=
  (run_fates h).at_rest hquiet

/-- One job that fails until it is a dead letter, and one that succeeds. -/
def failing : List (QueueLabel Unit) :=
  [job "a" none, job "b" none, .microtask, .settle 1 (.ok ()) none,
    .settle 0 (.error (some "down")) none, .retryTimer 0 none, .microtask,
    .settle 0 (.error (some "down")) none]

theorem no_accepted_job_lost_failing :
    NoneLost (run { maxAttempts := some 2 } inert (init { maxAttempts := some 2 } [] () 0)
      failing).queue :=
  no_accepted_job_lost _ inert [] () 0 failing (by decide) (by decide)

/-- Two jobs with one token: the guard skips the second. -/
def sharedToken : List (QueueLabel Unit) :=
  [job "a" (some "x"), job "b" (some "x"), .microtask, .settle 0 (.ok ()) none]

/-- A skipped job comes to rest with neither a success nor a dead letter. -/
theorem skipped_job_unresolved :
    Quiescent (run {} inert (init {} [] () 0) sharedToken).queue ∧
      ∃ job ∈ (run {} inert (init {} [] () 0) sharedToken).queue.accepted,
        ¬ Resolved (run {} inert (init {} [] () 0) sharedToken).queue job := by
  decide

end QueueMachine

end MapProtocol
