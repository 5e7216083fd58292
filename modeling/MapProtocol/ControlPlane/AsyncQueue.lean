import MapProtocol.Lib.OrderedMap
import MapProtocol.Lib.Transition
import MapProtocol.Js.Text

/-!
# The asynchronous task queue

`AsyncTaskQueue` holds jobs, starts them while its concurrency limits allow, retries the ones that
fail and records the ones that keep failing as dead letters. The source keeps part of its state on
the JavaScript heap rather than in the object: a started job is a function suspended in
`await job.run()`, a scheduled retry is a pending `setTimeout`, a kicked-off pass is a pending
microtask. The model holds these as fields too (`runningJobs`, `retryTimers`, `microtasks`), since
the event loop that picks among them is what makes the interleavings.

The two closures a job carries are the queue's only contact with the outside. They act on an
outer state `ω` through `Hooks`, so the queue is generic in what its jobs do.

`QueueJob.id` numbers the accepted `enqueue` calls, `AsyncTaskQueue.accepted` keeps the accepted
jobs and `AsyncTaskQueue.log` records what happened to which job. They are history: no branch of
the source's logic reads them.
-/

namespace MapProtocol

/-- Milliseconds since the epoch, as `Date.now()` gives them. -/
abbrev Millis := Nat

structure DeadLetterRecord where
  taskId    : String
  tenantId  : Option String
  attempts  : Nat
  error     : String
  timestamp : Millis
  deriving DecidableEq, Repr

structure QuarantinedJob where
  jobId         : String
  taskId        : String
  tenantId      : Option String
  reason        : String
  quarantinedAt : Millis
  deriving DecidableEq, Repr

inductive OutboxEventType where
  | taskCompleted
  | taskFailed
  | taskDeadLettered
  | webhookCallback
  deriving DecidableEq, Repr

inductive OutboxPayload where
  | completed (taskId : String) (tenantId : Option String)
  | deadLetter (record : DeadLetterRecord)
  deriving DecidableEq, Repr

/-- An outbox message. `id` is the index of the `randomUUID()` call that named it. -/
structure OutboxMessage where
  id               : Nat
  taskId           : String
  eventType        : OutboxEventType
  payload          : OutboxPayload
  createdAt        : Millis
  delivered        : Bool
  deliveryAttempts : Nat
  deriving DecidableEq, Repr

/-- A queued job. `run` names the two closures of the job. -/
structure QueueJob (ρ : Type) where
  id               : Nat
  taskId           : String
  tenantId         : Option String
  attempt          : Nat
  idempotencyToken : Option String
  run              : ρ
  deriving DecidableEq, Repr

structure AsyncTaskQueueOptions where
  maxAttempts            : Option Nat := none
  maxConcurrent          : Option Nat := none
  maxConcurrentPerTenant : Option Nat := none
  maxQueueDepth          : Option Nat := none
  maxDeadLetters         : Option Nat := none
  deadLetterStorePath    : Option String := none
  deriving DecidableEq, Repr

namespace AsyncTaskQueueOptions

def attempts (o : AsyncTaskQueueOptions) : Nat := max 1 (o.maxAttempts.getD 3)

def concurrent (o : AsyncTaskQueueOptions) : Nat := max 1 (o.maxConcurrent.getD 4)

def concurrentPerTenant (o : AsyncTaskQueueOptions) : Option Nat :=
  o.maxConcurrentPerTenant.map (max 1)

def queueDepth (o : AsyncTaskQueueOptions) : Nat := max 1 (o.maxQueueDepth.getD 1000)

def deadLetterLimit (o : AsyncTaskQueueOptions) : Nat := max 1 (o.maxDeadLetters.getD 500)

end AsyncTaskQueueOptions

/-- What happened to a job. `started` notes how many jobs ran, in all and of the job's tenant,
when it was started, and the tenant's limit then. -/
inductive QueueEvent (ρ : Type) where
  | started (job : QueueJob ρ) (total ofTenant limit : Nat)
  | skipped (job : QueueJob ρ)
  | succeeded (job : QueueJob ρ)
  | deadLettered (job : QueueJob ρ) (record : DeadLetterRecord)
  | calledBack (job : QueueJob ρ)
  deriving DecidableEq, Repr

structure AsyncTaskQueue (ρ : Type) where
  queue               : List (QueueJob ρ)
  deadLetters         : List DeadLetterRecord
  leasedJobs          : OrderedMap String Millis
  quarantinedJobs     : List QuarantinedJob
  outbox              : List OutboxMessage
  completedEffects    : List String
  deadLetterCallbacks : OrderedMap Nat (QueueJob ρ)
  processing          : Bool
  inflight            : Nat
  inflightByTenant    : OrderedMap String Nat
  pendingRetry        : Int
  tenantQuota         : OrderedMap String Nat
  running             : Bool
  /-- Jobs suspended in `await job.run()`. -/
  runningJobs         : List (QueueJob ρ)
  /-- Pending `setTimeout` callbacks: the job to queue again and the message it failed with. -/
  retryTimers         : List (QueueJob ρ × String)
  /-- Pending `queueMicrotask` calls of `maybeRunJobs`. -/
  microtasks          : Nat
  /-- The jobs accepted so far, as they were queued first. -/
  accepted            : List (QueueJob ρ)
  log                 : List (QueueEvent ρ)

/-- The closures of a job, as the state change each makes outside the queue: `run` is the part of
`job.run()` before its first `await`, `onDeadLetter` the callback, which may throw. -/
structure Hooks (ρ ω : Type) where
  run          : QueueJob ρ → ω → ω
  onDeadLetter : QueueJob ρ → DeadLetterRecord → ω → Except String Unit × ω

/-- The parameters of `enqueue`. -/
structure EnqueueParams (ρ : Type) where
  taskId           : String
  tenantId         : Option String
  idempotencyToken : Option String
  run              : ρ

namespace AsyncTaskQueue

variable {ρ ω : Type}

def LEASE_TIMEOUT_MS : Millis := 30000

def DEFAULT_TENANT_QUOTA : Nat := 10

def resolveTenantKey (tenantId : Option String) : String :=
  match tenantId with
  | some t => if Js.isBlank t then "default" else t
  | none   => "default"

end AsyncTaskQueue

namespace QueueJob

variable {ρ : Type}

/-- The key the queue counts the job's tenant under. -/
def tenantKey (job : QueueJob ρ) : String := AsyncTaskQueue.resolveTenantKey job.tenantId

/-- The exactly-once key of a job: its token, else one made from its task id. -/
def effectId (job : QueueJob ρ) : String := job.idempotencyToken.getD ("effect:" ++ job.taskId)

end QueueJob

namespace AsyncTaskQueue

variable {ρ ω : Type} (opts : AsyncTaskQueueOptions)

/-! ## Dead letters -/

def trimDeadLetters (records : List DeadLetterRecord) : List DeadLetterRecord :=
  if records.length ≤ opts.deadLetterLimit then records
  else records.drop (records.length - opts.deadLetterLimit)

/-- Writing the dead-letter file, where one is configured; `fault` is what the file system throws.
-/
def persistDeadLetters (fault : Option String) : Except String Unit :=
  match opts.deadLetterStorePath, fault with
  | some _, some e => .error e
  | _, _           => .ok ()

/-- A new queue over the dead letters its file held. -/
def init (stored : List DeadLetterRecord) : AsyncTaskQueue ρ where
  queue := []
  deadLetters := trimDeadLetters opts stored
  leasedJobs := .empty
  quarantinedJobs := []
  outbox := []
  completedEffects := []
  deadLetterCallbacks := .empty
  processing := false
  inflight := 0
  inflightByTenant := .empty
  pendingRetry := 0
  tenantQuota := .empty
  running := true
  runningJobs := []
  retryTimers := []
  microtasks := 0
  accepted := []
  log := []

def quarantineJob (q : AsyncTaskQueue ρ) (now : Millis) (taskId reason : String)
    (tenantId : Option String) : AsyncTaskQueue ρ :=
  { q with quarantinedJobs := q.quarantinedJobs ++
      [⟨taskId ++ "-" ++ toString now, taskId, tenantId, reason, now⟩] }

/-! ## Admission -/

def hasCapacity (q : AsyncTaskQueue ρ) : Bool :=
  decide ((q.inflight : Int) + q.queue.length + q.pendingRetry <
    opts.concurrent + opts.queueDepth)

def kickoff (q : AsyncTaskQueue ρ) : AsyncTaskQueue ρ :=
  if q.processing then q else { q with processing := true, microtasks := q.microtasks + 1 }

/-- `enqueue`: whether the job was accepted, and the queue after. -/
def enqueue (q : AsyncTaskQueue ρ) (params : EnqueueParams ρ) : Bool × AsyncTaskQueue ρ :=
  if q.queue.length ≥ opts.queueDepth then (false, q)
  else
    let job : QueueJob ρ :=
      { id := q.accepted.length, taskId := params.taskId, tenantId := params.tenantId, attempt := 1,
        idempotencyToken := params.idempotencyToken, run := params.run }
    (true, kickoff { q with queue := q.queue ++ [job], accepted := q.accepted ++ [job] })

def setTenantQuota (q : AsyncTaskQueue ρ) (tenantId : String) (quota : Nat) : AsyncTaskQueue ρ :=
  { q with tenantQuota := q.tenantQuota.set (resolveTenantKey (some tenantId)) (max 1 quota) }

def stop (q : AsyncTaskQueue ρ) : AsyncTaskQueue ρ := { q with running := false }

/-! ## The scheduling pass -/

/-- The queue's own count of a tenant's running jobs. -/
def tenantInflight (q : AsyncTaskQueue ρ) (key : String) : Nat :=
  (q.inflightByTenant.get key).getD 0

/-- The limit in force for a tenant. -/
def tenantMax (q : AsyncTaskQueue ρ) (key : String) : Nat :=
  ((q.tenantQuota.get key).or opts.concurrentPerTenant).getD DEFAULT_TENANT_QUOTA

/-- How many jobs of a tenant are really running. -/
def runningOfTenant (q : AsyncTaskQueue ρ) (key : String) : Nat :=
  q.runningJobs.countP fun job => job.tenantKey == key

/-- The leases held for longer than `LEASE_TIMEOUT_MS`. -/
def expiredLeases (q : AsyncTaskQueue ρ) (now : Millis) : List (String × Millis) :=
  q.leasedJobs.entries.filter fun e => decide (now - e.2 > LEASE_TIMEOUT_MS)

/-- `this.leasedJobs.delete(taskId); this.inflight = Math.max(0, this.inflight - 1)`. -/
def reapLease (q : AsyncTaskQueue ρ) (lease : String × Millis) : AsyncTaskQueue ρ :=
  { q with leasedJobs := q.leasedJobs.delete lease.1, inflight := q.inflight - 1 }

def reapExpiredLeases (now : Millis) (q : AsyncTaskQueue ρ) : AsyncTaskQueue ρ :=
  let expired := q.expiredLeases now
  let q := expired.foldl reapLease q
  if expired.length > 0 ∧ q.queue.length = 0 ∧ q.inflight = 0 then { q with processing := false }
  else q

def markEffectComplete (q : AsyncTaskQueue ρ) (effectId : String) : Bool × AsyncTaskQueue ρ :=
  if effectId ∈ q.completedEffects then (false, q)
  else (true, { q with completedEffects := effectId :: q.completedEffects })

/-- The first queued job whose tenant is below its limit. -/
def findRunnableJobIndex (q : AsyncTaskQueue ρ) : Option Nat :=
  q.queue.findIdx? fun job => decide (q.tenantInflight job.tenantKey < q.tenantMax opts job.tenantKey)

/-- Take the job at the runnable index out of the queue. -/
def takeRunnable (q : AsyncTaskQueue ρ) : Option (QueueJob ρ × AsyncTaskQueue ρ) :=
  match q.findRunnableJobIndex opts with
  | none       => none
  | some index =>
      match q.queue[index]? with
      | none     => none
      | some job => some (job, { q with queue := q.queue.eraseIdx index })

/-- The counters and the lease that `startJob` sets before the job's own code runs. -/
def occupy (now : Millis) (job : QueueJob ρ) (q : AsyncTaskQueue ρ) : AsyncTaskQueue ρ :=
  { q with
    inflight := q.inflight + 1
    inflightByTenant := q.inflightByTenant.set job.tenantKey (q.tenantInflight job.tenantKey + 1)
    leasedJobs := q.leasedJobs.set job.taskId now }

/-- The counters that `finishJob` lowers before it starts the next pass. -/
def release (tenantKey taskId : String) (q : AsyncTaskQueue ρ) : AsyncTaskQueue ρ :=
  { q with
    inflight := q.inflight - 1
    inflightByTenant :=
      if q.tenantInflight tenantKey ≤ 1 then q.inflightByTenant.delete tenantKey
      else q.inflightByTenant.set tenantKey (q.tenantInflight tenantKey - 1)
    leasedJobs := if taskId = "" then q.leasedJobs else q.leasedJobs.delete taskId }

/-- `if (this.queue.length === 0 && this.inflight === 0) this.processing = false`. -/
def settleProcessing (q : AsyncTaskQueue ρ) : AsyncTaskQueue ρ :=
  if q.queue.length = 0 ∧ q.inflight = 0 then { q with processing := false } else q

/-- The job is inside `await job.run()`. -/
def suspend (job : QueueJob ρ) (total ofTenant limit : Nat) (q : AsyncTaskQueue ρ) :
    AsyncTaskQueue ρ :=
  { q with
    runningJobs := q.runningJobs ++ [job]
    log := .started job total ofTenant limit :: q.log }

/-- `maybeRunJobs` around the body of its loop. -/
def maybeRunJobsWith (loop : AsyncTaskQueue ρ × ω → AsyncTaskQueue ρ × ω) (now : Millis)
    (s : AsyncTaskQueue ρ × ω) : AsyncTaskQueue ρ × ω :=
  let (q, w) := loop (reapExpiredLeases now s.1, s.2)
  (settleProcessing q, w)

/-- `finishJob`, given the pass it ends with. -/
def finishJobWith (pass : AsyncTaskQueue ρ × ω → AsyncTaskQueue ρ × ω) (tenantKey taskId : String)
    (s : AsyncTaskQueue ρ × ω) : AsyncTaskQueue ρ × ω :=
  pass (release tenantKey taskId s.1, s.2)

variable (hooks : Hooks ρ ω)

/-- `startJob` up to its first `await`, given the pass that its `finishJob` calls end with. A job
whose effect id is already marked is finished on the spot, and finished again by the `finally`
block it leaves through. -/
def startJobWith (pass : AsyncTaskQueue ρ × ω → AsyncTaskQueue ρ × ω) (now : Millis)
    (job : QueueJob ρ) (s : AsyncTaskQueue ρ × ω) : AsyncTaskQueue ρ × ω :=
  let total := s.1.runningJobs.length
  let ofTenant := s.1.runningOfTenant job.tenantKey
  let limit := s.1.tenantMax opts job.tenantKey
  match markEffectComplete (occupy now job s.1) job.effectId with
  | (false, q) =>
      let s := finishJobWith pass job.tenantKey job.taskId
        ({ q with log := .skipped job :: q.log }, s.2)
      finishJobWith pass job.tenantKey job.taskId s
  | (true, q)  => (suspend job total ofTenant limit q, hooks.run job s.2)

/-- The `while` loop of `maybeRunJobs`, for at most `fuel` jobs taken from the queue. -/
def runLoop (now : Millis) : Nat → AsyncTaskQueue ρ × ω → AsyncTaskQueue ρ × ω
  | 0, s        => s
  | fuel + 1, s =>
      if s.1.inflight < opts.concurrent then
        match takeRunnable opts s.1 with
        | none          => s
        | some (job, q) =>
            runLoop now fuel
              (startJobWith opts hooks (maybeRunJobsWith (runLoop now fuel) now) now job (q, s.2))
      else s

/-- One scheduling pass. Every turn of the loop takes a job out of the queue, so the number of
queued jobs bounds the turns. -/
def maybeRunJobs (now : Millis) (s : AsyncTaskQueue ρ × ω) : AsyncTaskQueue ρ × ω :=
  maybeRunJobsWith (runLoop opts hooks now s.1.queue.length) now s

def startJob (now : Millis) (job : QueueJob ρ) (s : AsyncTaskQueue ρ × ω) : AsyncTaskQueue ρ × ω :=
  startJobWith opts hooks (maybeRunJobs opts hooks now) now job s

def finishJob (now : Millis) (tenantKey taskId : String) (s : AsyncTaskQueue ρ × ω) :
    AsyncTaskQueue ρ × ω :=
  finishJobWith (maybeRunJobs opts hooks now) tenantKey taskId s

/-! ## The end of a job -/

/-- `await job.run()` returned: the outbox message, then the `finally` block. -/
def runSucceeded (now : Millis) (job : QueueJob ρ) (s : AsyncTaskQueue ρ × ω) :
    AsyncTaskQueue ρ × ω :=
  let q := s.1
  let message : OutboxMessage :=
    { id := q.outbox.length, taskId := job.taskId, eventType := .taskCompleted,
      payload := .completed job.taskId job.tenantId, createdAt := now, delivered := false,
      deliveryAttempts := 0 }
  finishJob opts hooks now job.tenantKey job.taskId
    ({ q with outbox := q.outbox ++ [message], log := .succeeded job :: q.log }, s.2)

/-- Record a dead letter: push, trim, persist. What `persistDeadLetters` throws ends the caller. -/
def recordDeadLetter (fault : Option String) (job : QueueJob ρ) (record : DeadLetterRecord)
    (q : AsyncTaskQueue ρ) : Except String Unit × AsyncTaskQueue ρ :=
  (persistDeadLetters opts fault,
    { q with
      deadLetters := trimDeadLetters opts (q.deadLetters ++ [record])
      log := .deadLettered job record :: q.log })

/-- `await job.run()` threw. A job with attempts left gives up its slot and its effect mark and
waits for its timer; else it is a dead letter. -/
def runFailed (now : Millis) (fault : Option String) (job : QueueJob ρ) (error : Option String)
    (s : AsyncTaskQueue ρ × ω) : AsyncTaskQueue ρ × ω :=
  let message := error.getD "Async queue job failed."
  let q := s.1
  if job.attempt < opts.attempts then
    let q := { q with completedEffects := q.completedEffects.filter (· ≠ job.effectId) }
    let (q, w) := finishJob opts hooks now job.tenantKey job.taskId (q, s.2)
    ({ q with
        pendingRetry := q.pendingRetry + 1
        retryTimers := q.retryTimers ++ [(job, message)] }, w)
  else
    let record : DeadLetterRecord := ⟨job.taskId, job.tenantId, job.attempt, message, now⟩
    match recordDeadLetter opts fault job record q with
    | (.error _, q) => finishJob opts hooks now job.tenantKey job.taskId (q, s.2)
    | (.ok _, q)    =>
        let reason := "Exceeded max attempts (" ++ toString job.attempt ++ "/" ++
          toString opts.attempts ++ "): " ++ message
        let q := quarantineJob q now job.taskId reason job.tenantId
        let q := { q with log := .calledBack job :: q.log }
        match hooks.onDeadLetter job record s.2 with
        | (.error _, w) => finishJob opts hooks now job.tenantKey job.taskId (q, w)
        | (.ok _, w)    =>
            let message : OutboxMessage :=
              { id := q.outbox.length, taskId := job.taskId, eventType := .taskDeadLettered,
                payload := .deadLetter record, createdAt := now, delivered := true,
                deliveryAttempts := 1 }
            finishJob opts hooks now job.tenantKey job.taskId
              ({ q with
                  outbox := q.outbox ++ [message]
                  deadLetterCallbacks := q.deadLetterCallbacks.set message.id job }, w)

/-- The callback of a retry timer. -/
def retryFired (now : Millis) (fault : Option String) (job : QueueJob ρ) (message : String)
    (s : AsyncTaskQueue ρ × ω) : AsyncTaskQueue ρ × ω :=
  let q := s.1
  if q.running then
    let q := { q with pendingRetry := q.pendingRetry - 1 }
    if q.queue.length ≥ opts.queueDepth then
      let record : DeadLetterRecord :=
        ⟨job.taskId, job.tenantId, job.attempt + 1, "Queue capacity reached while retrying job.", now⟩
      match recordDeadLetter opts fault job record q with
      | (.error _, q) => (q, s.2)
      | (.ok _, q)    =>
          let q := { q with log := .calledBack job :: q.log }
          match hooks.onDeadLetter job record s.2 with
          | (.error _, w) => (q, w)
          | (.ok _, w)    =>
              (quarantineJob q now job.taskId ("Queue full during retry: " ++ message) job.tenantId, w)
    else
      (kickoff { q with queue := q.queue ++ [{ job with attempt := job.attempt + 1 }] }, s.2)
  else s

/-! ## The outbox -/

/-- One message of `processOutbox`. -/
def deliver (s : AsyncTaskQueue ρ × ω) (message : OutboxMessage) :
    OutboxMessage × (AsyncTaskQueue ρ × ω) :=
  if message.delivered then (message, s)
  else
    let attempted := { message with deliveryAttempts := message.deliveryAttempts + 1 }
    match message.eventType, message.payload, s.1.deadLetterCallbacks.get message.id with
    | .taskDeadLettered, .deadLetter record, some job =>
        let q := { s.1 with log := .calledBack job :: s.1.log }
        match hooks.onDeadLetter job record s.2 with
        | (.error _, w) => (attempted, (q, w))
        | (.ok _, w)    =>
            ({ attempted with delivered := true },
              ({ q with deadLetterCallbacks := q.deadLetterCallbacks.delete message.id }, w))
    | _, _, _ => ({ attempted with delivered := true }, s)

/-- The loop of `processOutbox` over the messages. -/
def deliverAll (s : AsyncTaskQueue ρ × ω) :
    List OutboxMessage → List OutboxMessage × (AsyncTaskQueue ρ × ω)
  | []      => ([], s)
  | m :: ms =>
      let (m, s) := deliver hooks s m
      let (ms, s) := deliverAll s ms
      (m :: ms, s)

def processOutbox (s : AsyncTaskQueue ρ × ω) : AsyncTaskQueue ρ × ω :=
  let (messages, (q, w)) := deliverAll hooks s s.1.outbox
  ({ q with outbox := messages }, w)

end AsyncTaskQueue

/-! ## The queue as a machine -/

/-- What the event loop and the callers do to a queue. `fault` is what the file system throws at a
dead-letter write. -/
inductive QueueLabel (ρ : Type) where
  | enqueue (params : EnqueueParams ρ)
  | microtask
  | settle (id : Nat) (outcome : Except (Option String) Unit) (fault : Option String)
  | retryTimer (id : Nat) (fault : Option String)
  | setTenantQuota (tenantId : String) (quota : Nat)
  | stop
  | processOutbox
  | tick (ms : Nat)

/-- A queue, the outer state its closures act on, and the clock. -/
structure QueueMachine (ρ ω : Type) where
  queue : AsyncTaskQueue ρ
  outer : ω
  now   : Millis

namespace AsyncTaskQueue

variable {ρ ω : Type} (opts : AsyncTaskQueueOptions) (hooks : Hooks ρ ω)

/-- The `await job.run()` of the job numbered `id` settles. -/
def settle (now : Millis) (id : Nat) (outcome : Except (Option String) Unit) (fault : Option String)
    (s : AsyncTaskQueue ρ × ω) : AsyncTaskQueue ρ × ω :=
  match s.1.runningJobs.find? (·.id == id) with
  | none     => s
  | some job =>
      let q := { s.1 with runningJobs := s.1.runningJobs.eraseP (·.id == id) }
      match outcome with
      | .ok _    => runSucceeded opts hooks now job (q, s.2)
      | .error e => runFailed opts hooks now fault job e (q, s.2)

/-- The retry timer of the job numbered `id` fires. -/
def fireTimer (now : Millis) (id : Nat) (fault : Option String) (s : AsyncTaskQueue ρ × ω) :
    AsyncTaskQueue ρ × ω :=
  match s.1.retryTimers.find? (·.1.id == id) with
  | none                => s
  | some (job, message) =>
      retryFired opts hooks now fault job message
        ({ s.1 with retryTimers := s.1.retryTimers.eraseP (·.1.id == id) }, s.2)

/-- A pending `queueMicrotask` callback runs. -/
def runMicrotask (now : Millis) (s : AsyncTaskQueue ρ × ω) : AsyncTaskQueue ρ × ω :=
  if s.1.microtasks = 0 then s
  else maybeRunJobs opts hooks now ({ s.1 with microtasks := s.1.microtasks - 1 }, s.2)

end AsyncTaskQueue

namespace QueueMachine

variable {ρ ω : Type} (opts : AsyncTaskQueueOptions) (hooks : Hooks ρ ω)

/-- A step of the queue machine. A label that does not apply changes nothing. -/
def step (m : QueueMachine ρ ω) : QueueLabel ρ → QueueMachine ρ ω
  | .enqueue params =>
      { m with queue := (m.queue.enqueue opts params).2 }
  | .microtask =>
      let (q, w) := AsyncTaskQueue.runMicrotask opts hooks m.now (m.queue, m.outer)
      { m with queue := q, outer := w }
  | .settle id outcome fault =>
      let (q, w) := AsyncTaskQueue.settle opts hooks m.now id outcome fault (m.queue, m.outer)
      { m with queue := q, outer := w }
  | .retryTimer id fault =>
      let (q, w) := AsyncTaskQueue.fireTimer opts hooks m.now id fault (m.queue, m.outer)
      { m with queue := q, outer := w }
  | .setTenantQuota tenantId quota => { m with queue := m.queue.setTenantQuota tenantId quota }
  | .stop => { m with queue := m.queue.stop }
  | .processOutbox =>
      let (q, w) := AsyncTaskQueue.processOutbox hooks (m.queue, m.outer)
      { m with queue := q, outer := w }
  | .tick ms => { m with now := m.now + ms }

/-- A fresh machine over a stored dead-letter file. -/
def init (stored : List DeadLetterRecord) (outer : ω) (now : Millis) : QueueMachine ρ ω :=
  ⟨AsyncTaskQueue.init opts stored, outer, now⟩

/-- The machine after the labels `ls`. -/
def run (m : QueueMachine ρ ω) (ls : List (QueueLabel ρ)) : QueueMachine ρ ω :=
  Transition.run (step opts hooks) m ls

/-- Closures that do nothing outside the queue. -/
def inert : Hooks Unit Unit where
  run _ w := w
  onDeadLetter _ _ w := (.ok (), w)

/-- The `enqueue` call for a job of the default tenant. -/
def job (taskId : String) (idempotencyToken : Option String) : QueueLabel Unit :=
  .enqueue ⟨taskId, none, idempotencyToken, ()⟩

end QueueMachine

end MapProtocol
