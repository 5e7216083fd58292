import MapProtocol.ControlPlane.Orchestrator

/-!
# The orchestrator at work

A method of the orchestrator runs until it awaits the core executor, and the event loop resumes it
when the promise settles; in between any other call may run. `Runtime` keeps the two stores, the two
copies of the policy, and the calls that are suspended. The asynchronous queue is a component with
its own state, so the whole is a queue machine whose outer state is a `Runtime`: the queue's jobs
run the orchestrator's closures through `hooks`.

One label of `Orchestrator.step` is one turn of the event loop: a method called, a promise settled,
a microtask or a timer of the queue. `Faults` says what the file system or the database throws in
that turn.

`Runtime.history` records what happened, newest first; no branch reads it. A task is `created` when
it is on record and the dispatch that put it there is over with it: a dispatch whose job the queue
refuses takes the record back and creates nothing.
-/

namespace MapProtocol

open Js

/-- Who awaits the executor: a `dispatch`, an `approve`, or the closure of a queued job. -/
inductive Origin where
  | dispatch
  | approve (reference : String)
  | job (id : Nat)
  deriving DecidableEq, Repr

/-- A call suspended in `await this.coreExecutor.execute(intent)` or `executeApproved(intent)`. -/
structure Call where
  id          : Nat
  origin      : Origin
  envelope    : TaskEnvelope
  capability  : String
  negotiation : InvocationNegotiation
  invocation  : Invocation

/-- A dispatch suspended in `waitForStoredResult`, after `checks` looks at the store. -/
structure Waiter where
  id     : Nat
  taskId : String
  checks : Nat

/-- A method of the orchestrator that a caller awaits. -/
inductive Method where
  | dispatch
  | approve
  | cancelTask
  deriving DecidableEq, Repr

/-- What a promise was rejected with: the message, where it is an `Error`. -/
abbrev Rejection := Option String

inductive Event where
  /-- The dispatch numbered `call` put the task on record. -/
  | created (call : Nat) (submission : Orchestrator.Submission) (envelope : TaskEnvelope)
      (capability : String)
  /-- The approval numbered `call` calls `executeApproved`. -/
  | approving (call : Nat) (approval : Orchestrator.Approval)
  /-- The adapter starts on the intent, under the policy then in force. -/
  | executed (call : Nat) (origin : Origin) (taskId : String) (intent : Intent)
      (policy : PolicyDocument)
  /-- The adapter returned, and the receipt of that execution gets the id. -/
  | returned (call : Nat) (origin : Origin) (taskId : String) (status : ExecutionStatus)
      (receiptId : String)
  | answered (call : Nat) (result : InvokeResult)
  | threw (call : Nat) (method : Method) (taskId : String) (rejection : Rejection)
  /-- `queued`: the task's job waited in the queue or for its retry. -/
  | cancelled (taskId : String) (queued : Bool) (result : InvokeResult)

structure Runtime where
  policy         : PolicyDocument
  executorPolicy : PolicyDocument
  taskStore      : TaskStore
  receiptStore   : ReceiptStore
  calls          : List Call
  waiters        : List Waiter
  /-- The closures of jobs that are over, with what their promise settles to. -/
  settledRuns    : List (Nat × Except Rejection Unit)
  nextCall       : Nat
  nextUuid       : Nat
  history        : List Event

/-- What the file system or the database throws, at each kind of write of one turn. -/
structure Faults where
  save       : Option String := none
  update     : Option String := none
  delete     : Option String := none
  append     : Option String := none
  deadLetter : Option String := none

namespace Orchestrator

variable (env : OrchestratorEnv) (now : Millis) (faults : Faults)

def log (event : Event) (w : Runtime) : Runtime := { w with history := event :: w.history }

def executor (w : Runtime) : Executor := ⟨w.executorPolicy, env.adapters, env.coreSignReceipt⟩

/-- The call waits for the executor; the adapter has started if the executor got that far. -/
def suspend (call : Call) (w : Runtime) : Runtime :=
  { w with
    calls := w.calls ++ [call]
    history := match call.invocation with
      | .adapter intent _ =>
          .executed call.id call.origin call.envelope.taskId intent w.policy :: w.history
      | _ => w.history }

/-! ## Writing -/

/-- `taskStore.save` for a submission. -/
def saveTask (ready : Ready) (submitted : InvokeResult) (w : Runtime) :
    Except String TaskRecord × Runtime :=
  let (saved, store) := w.taskStore.save now faults.save (ready.saveParams submitted)
  (saved, { w with taskStore := store })

/-- `receiptStore.append`. -/
def appendReceipt (receipt : ExecutionReceipt) (w : Runtime) : Except String Unit × Runtime :=
  let (appended, store) := w.receiptStore.append faults.append receipt
  (appended, { w with receiptStore := store })

/-- `{ status, result, receipt }`. -/
def outcomeUpdate (outcome : InvokeResult) : TaskUpdate :=
  { status := some (some outcome.result.status)
    result := some (some outcome.result)
    receipt := some (some outcome.receipt) }

/-- `taskStore.update` with an outcome. -/
def updateTask (taskId : String) (outcome : InvokeResult) (w : Runtime) :
    Except String (Option TaskRecord) × Runtime :=
  let (updated, store) := w.taskStore.update now faults.update taskId (outcomeUpdate outcome)
  (updated, { w with taskStore := store })

/-- `taskStore.update` with an outcome, then `receiptStore.append` of its receipt. -/
def recordOutcome (taskId : String) (outcome : InvokeResult) (w : Runtime) :
    Except String Unit × Runtime :=
  match updateTask now faults taskId outcome w with
  | (.error e, w) => (.error e, w)
  | (.ok _, w)    => appendReceipt faults outcome.receipt w

/-! ## Dispatch -/

/-- The event of a task that stays on record. -/
def createdEvent (call : Nat) (submission : Submission) (ready : Ready) : Event :=
  .created call submission ready.envelope ready.capability

/-- The end of `dispatch` for a task that needs approval. -/
def submitForApproval (call : Nat) (ready : Ready) (submitted : InvokeResult) (w : Runtime) :
    Runtime :=
  let fail (message : String) (w : Runtime) : Runtime :=
    log (.threw call .dispatch ready.envelope.taskId (some message)) w
  match w.taskStore.checkSave (ready.saveParams submitted) with
  | .error e => fail e w
  | .ok _    =>
      match saveTask now faults ready submitted (log (createdEvent call .approval ready) w) with
      | (.error e, w) => fail e w
      | (.ok _, w)    =>
          match appendReceipt faults submitted.receipt w with
          | (.error e, w) => fail e w
          | (.ok _, w)    =>
              if notifyThrows env ready.envelope then
                fail "Cannot convert undefined or null to object" w
              else log (.answered call submitted) w

/-- The parameters of `enqueue` for a submission. -/
def enqueueParams (ready : Ready) : EnqueueParams Ready where
  taskId := ready.envelope.taskId
  tenantId := some (TaskStore.resolveTenantId ready.envelope.requesterIdentity.tenantId)
  idempotencyToken := ready.envelope.idempotencyToken
  run := ready

/-- The end of `dispatch` for a task that runs asynchronously. A job that the queue refuses is taken
off the task store, not off the receipt store. -/
def submitAsync (call : Nat) (ready : Ready) (submitted : InvokeResult)
    (s : AsyncTaskQueue Ready × Runtime) : AsyncTaskQueue Ready × Runtime :=
  let fail (message : String) (w : Runtime) : Runtime :=
    log (.threw call .dispatch ready.envelope.taskId (some message)) w
  let created := log (createdEvent call .async ready)
  match s.2.taskStore.checkSave (ready.saveParams submitted) with
  | .error e => (s.1, fail e s.2)
  | .ok _    =>
      match saveTask now faults ready submitted s.2 with
      | (.error e, w) => (s.1, fail e (created w))
      | (.ok _, w)    =>
          match appendReceipt faults submitted.receipt w with
          | (.error e, w) => (s.1, fail e (created w))
          | (.ok _, w)    =>
              match s.1.enqueue env.queueOptions (enqueueParams ready) with
              | (true, q)  => (q, log (.answered call submitted) (created w))
              | (false, q) =>
                  let (deleted, store) := w.taskStore.delete faults.delete ready.envelope.taskId
                  let w := { w with taskStore := store }
                  match deleted with
                  | .error e => (q, fail e w)
                  | .ok _    => (q, fail "Async queue capacity exceeded." w)

/-- The end of `dispatch` for a task that runs now, up to its wait for the executor. The task id is
not empty, so that the executor has no id to generate. -/
def submitSync (call : Nat) (ready : Ready) (submitted : InvokeResult) (w : Runtime) : Runtime :=
  let fail (message : String) (w : Runtime) : Runtime :=
    log (.threw call .dispatch ready.envelope.taskId (some message)) w
  match w.taskStore.checkSave (ready.saveParams submitted) with
  | .error e => fail e w
  | .ok _    =>
      match saveTask now faults ready submitted (log (createdEvent call .sync ready) w) with
      | (.error e, w) => fail e w
      | (.ok _, w)    =>
          suspend
            { id := call
              origin := .dispatch
              envelope := ready.envelope
              capability := ready.capability
              negotiation := ready.negotiation
              invocation := (executor env w).executeApproved (env.uuids.uuid w.nextUuid)
                ready.intent } w

/-- `dispatch` up to its first wait. -/
def dispatch (request : DispatchRequest) (s : AsyncTaskQueue Ready × Runtime) :
    AsyncTaskQueue Ready × Runtime :=
  let call := s.2.nextCall
  let w := { s.2 with nextCall := call + 1 }
  match planDispatch env w.policy w.taskStore now (s.1.hasCapacity env.queueOptions) w.nextUuid
      request with
  | .error e => (s.1, log (.threw call .dispatch request.envelope.taskId (some e)) w)
  | .ok (.stored (.answer result)) => (s.1, log (.answered call result) w)
  | .ok (.stored (.wait taskId))   => (s.1, { w with waiters := w.waiters ++ [⟨call, taskId, 1⟩] })
  | .ok (.submit submission ready submitted) =>
      let w := { w with nextUuid := w.nextUuid + 2 }
      match submission with
      | .approval => (s.1, submitForApproval env now faults call ready submitted w)
      | .async    => submitAsync env now faults call ready submitted (s.1, w)
      | .sync     => (s.1, submitSync env now faults call ready submitted w)

/-- One more look of a waiting dispatch at the store, or the end of its patience. -/
def poll (id : Nat) (w : Runtime) : Runtime :=
  match w.waiters.find? (·.id == id) with
  | none        => w
  | some waiter =>
      let polled := { w with waiters := w.waiters.eraseP (·.id == id) }
      if waiter.checks ≥ 200 then
        log (.threw id .dispatch waiter.taskId
          (some ("Timed out waiting for task completion: " ++ waiter.taskId))) polled
      else match (w.taskStore.get waiter.taskId).bind storedAnswer with
        | some (.answer result) => log (.answered id result) polled
        | _                     =>
            { polled with waiters := polled.waiters ++ [{ waiter with checks := waiter.checks + 1 }] }

/-! ## Approve and cancel -/

/-- `approve` up to its wait for the executor. -/
def approve (request : ApprovalRequest) (w : Runtime) : Runtime :=
  let call := w.nextCall
  let w := { w with nextCall := call + 1 }
  match checkApproval env w.taskStore request with
  | .error e     => log (.threw call .approve request.taskId (some e)) w
  | .ok approval =>
      suspend
        { id := call
          origin := .approve approval.reference
          envelope := approval.envelope
          capability := approval.capability
          negotiation := approval.negotiation
          invocation := (executor env w).executeApproved (env.uuids.uuid w.nextUuid)
            approval.intent }
        (log (.approving call approval) w)

/-- Does a job of the task wait in the queue or for its retry timer? -/
def queuedJob (q : AsyncTaskQueue Ready) (taskId : String) : Bool :=
  (q.queue ++ q.retryTimers.map Prod.fst).any fun job => job.taskId == taskId

/-- `cancelTask`. The receipt goes to the record only. -/
def cancelTask (q : AsyncTaskQueue Ready) (taskId : String) (tenantId : Option String)
    (w : Runtime) : Runtime :=
  let call := w.nextCall
  let w := { w with nextCall := call + 1 }
  match planCancel env w.taskStore now taskId tenantId with
  | .error e    => log (.threw call .cancelTask taskId (some e)) w
  | .ok outcome =>
      match updateTask now faults taskId outcome w with
      | (.error e, w) => log (.threw call .cancelTask taskId (some e)) w
      | (.ok _, w)    => log (.cancelled taskId (queuedJob q taskId) outcome) w

def setPolicy (policy : PolicyDocument) (w : Runtime) : Runtime :=
  { w with policy := policy, executorPolicy := policy }

/-! ## After the executor -/

/-- What the awaited promise settles to; `outcome` is the adapter's, if it was reached. -/
def settledAnswer (invocation : Invocation) (outcome : Except Rejection ExecutionResult) :
    Except Rejection CoreResult :=
  match invocation with
  | .rejected message => .error (some message)
  | .refused receipt  => .ok (.receipt receipt)
  | .adapter _ _      => outcome.map .result

def returnedEvents (uuid : Nat) (call : Call) : CoreResult → List Event
  | .receipt _     => []
  | .result result =>
      [.returned call.id call.origin call.envelope.taskId result.status
        (freshReceiptId env now uuid call.envelope.taskId)]

/-- `approve` writes its reference into the receipt after it was signed; the others keep it. -/
def Origin.stamp (origin : Origin) (normalized : InvokeResult) : InvokeResult :=
  match origin with
  | .approve reference =>
      { normalized with receipt := { normalized.receipt with approvalUsed := some reference } }
  | _ => normalized

/-- The call is over: its caller gets the answer or the rejection, or the queue does. -/
def finish (call : Call) (outcome : Except Rejection InvokeResult) (w : Runtime) : Runtime :=
  match call.origin, outcome with
  | .job id, outcome         =>
      { w with settledRuns := w.settledRuns ++ [(id, outcome.map fun _ => ())] }
  | .dispatch, .ok result    => log (.answered call.id result) w
  | .dispatch, .error e      => log (.threw call.id .dispatch call.envelope.taskId e) w
  | .approve _, .ok result   => log (.answered call.id result) w
  | .approve _, .error e     => log (.threw call.id .approve call.envelope.taskId e) w

/-- The end of a call, once the executor has answered: normalise, update, append. -/
def complete (call : Call) (coreResult : CoreResult) (w : Runtime) : Runtime :=
  let uuid := w.nextUuid
  let w := { w with
    nextUuid := uuid + 1
    history := returnedEvents env now uuid call coreResult ++ w.history }
  match normalizeCoreResult env now uuid coreResult call.envelope call.capability
      call.negotiation with
  | .error e       => finish call (.error (some e)) w
  | .ok normalized =>
      let normalized := Origin.stamp call.origin normalized
      match recordOutcome now faults call.envelope.taskId normalized w with
      | (.error e, w) => finish call (.error (some e)) w
      | (.ok _, w)    => finish call (.ok normalized) w

/-- The call numbered `id` is resumed. -/
def resume (id : Nat) (outcome : Except Rejection ExecutionResult) (w : Runtime) : Runtime :=
  match w.calls.find? (·.id == id) with
  | none      => w
  | some call =>
      let w := { w with calls := w.calls.eraseP (·.id == id) }
      match settledAnswer call.invocation outcome with
      | .error e       => finish call (.error e) w
      | .ok coreResult => complete env now faults call coreResult w

/-! ## The closures of a queued job -/

/-- `run` up to its wait for the executor. -/
def runJob (job : QueueJob Ready) (w : Runtime) : Runtime :=
  suspend
    { id := w.nextCall
      origin := .job job.id
      envelope := job.run.envelope
      capability := job.run.capability
      negotiation := job.run.negotiation
      invocation := (executor env w).execute env.regExp now (env.uuids.uuid w.nextUuid)
        job.run.intent }
    { w with nextCall := w.nextCall + 1 }

def onDeadLetter (job : QueueJob Ready) (deadLetter : DeadLetterRecord) (w : Runtime) :
    Except String Unit × Runtime :=
  let ready := job.run
  let uuid := w.nextUuid
  let w := { w with nextUuid := uuid + 1 }
  match ready.stageReceipt env now uuid "dead_lettered" with
  | .error e    => (.error e, w)
  | .ok receipt =>
      match updateTask now faults ready.envelope.taskId
          ⟨ready.deadLetterResult deadLetter.error, receipt⟩ w with
      | (.error e, w) => (.error e, w)
      | (.ok _, w)    =>
          match (w.taskStore.get ready.envelope.taskId).bind (·.receipt) with
          | some receipt => appendReceipt faults receipt w
          | none         => (.ok (), w)

def hooks : Hooks Ready Runtime where
  run := runJob env now
  onDeadLetter := onDeadLetter env now faults

end Orchestrator

/-! ## The machine -/

/-- The turns of the event loop that belong to the queue alone. -/
inductive QueueTurn where
  | microtask
  | retryTimer (id : Nat)
  | processOutbox
  | setTenantQuota (tenantId : String) (quota : Nat)
  | stop

def QueueTurn.toLabel (fault : Option String) : QueueTurn → QueueLabel Orchestrator.Ready
  | .microtask                     => .microtask
  | .retryTimer id                 => .retryTimer id fault
  | .processOutbox                 => .processOutbox
  | .setTenantQuota tenantId quota => .setTenantQuota tenantId quota
  | .stop                          => .stop

/-- One turn of the event loop. -/
inductive Label where
  | dispatch (request : DispatchRequest) (faults : Faults)
  | approve (request : ApprovalRequest)
  | cancelTask (taskId : String) (tenantId : Option String) (faults : Faults)
  | setPolicy (policy : PolicyDocument)
  /-- The promise that the call numbered `id` awaits settles; `outcome` is the adapter's. -/
  | resume (id : Nat) (outcome : Except Rejection ExecutionResult) (faults : Faults)
  /-- The timer of a waiting dispatch fires. -/
  | poll (id : Nat)
  /-- The queue sees the promise of the job numbered `id` settle. -/
  | jobSettles (id : Nat) (faults : Faults)
  | queue (turn : QueueTurn) (faults : Faults)
  | tick (ms : Nat)

/-- The orchestrator, its queue and the clock. -/
abbrev World := QueueMachine Orchestrator.Ready Runtime

namespace Orchestrator

variable (env : OrchestratorEnv)

def queueStep (faults : Faults) (s : World) (label : QueueLabel Ready) : World :=
  QueueMachine.step env.queueOptions (hooks env s.now faults) s label

/-- The queue's turn after the closure of the job numbered `id`. -/
def jobSettles (faults : Faults) (id : Nat) (s : World) : World :=
  match s.outer.settledRuns.find? (·.1 == id) with
  | none              => s
  | some (_, outcome) =>
      let settled := { s.outer with settledRuns := s.outer.settledRuns.eraseP (·.1 == id) }
      queueStep env faults { s with outer := settled } (.settle id outcome faults.deadLetter)

/-- A step of the orchestrator. A label that does not apply changes nothing. -/
def step (s : World) : Label → World
  | .dispatch request faults =>
      let (q, w) := dispatch env s.now faults request (s.queue, s.outer)
      { s with queue := q, outer := w }
  | .approve request => { s with outer := approve env request s.outer }
  | .cancelTask taskId tenantId faults =>
      { s with outer := cancelTask env s.now faults s.queue taskId tenantId s.outer }
  | .setPolicy policy => { s with outer := setPolicy policy s.outer }
  | .resume id outcome faults => { s with outer := resume env s.now faults id outcome s.outer }
  | .poll id => { s with outer := poll id s.outer }
  | .jobSettles id faults => jobSettles env faults id s
  | .queue turn faults => queueStep env faults s (turn.toLabel faults.deadLetter)
  | .tick ms => queueStep env {} s (.tick ms)

/-- A runtime over empty stores. -/
def freshRuntime (policy : PolicyDocument) : Runtime where
  policy := policy
  executorPolicy := policy
  taskStore := .empty
  receiptStore := .empty
  calls := []
  waiters := []
  settledRuns := []
  nextCall := 0
  nextUuid := 0
  history := []

/-- The orchestrator as it starts, over the dead letters its file held. -/
def init (policy : PolicyDocument) (deadLetters : List DeadLetterRecord) (now : Millis) : World :=
  QueueMachine.init env.queueOptions deadLetters (freshRuntime policy) now

/-- The orchestrator after the labels `ls`. -/
def run (s : World) (ls : List Label) : World := Transition.run (step env) s ls

/-! ## A sample deployment

One agent with one capability, and an adapter that takes any input. The witnesses run it. -/

def counterUuids : UuidSource where
  uuid n := toString (10000000 + n) ++ "-0000-4000-8000-000000000000"
  injective m n h := by
    have hs : toString (10000000 + m) = toString (10000000 + n) := by
      have hl := congrArg String.toList h
      rw [String.toList_append, String.toList_append] at hl
      exact String.toList_injective (List.append_cancel_right hl)
    exact Nat.add_left_cancel (toString_injective hs)
  noColon n h := by
    rw [String.toList_append, List.mem_append] at h
    rcases h with hd | hs
    · rw [Nat.toString_eq_ofList_toDigits, String.toList_ofList] at hd
      have hdigit := Nat.isDigit_of_mem_toDigits (by decide) (by decide) hd
      exact absurd hdigit (by decide)
    · exact absurd hs (by decide)

def sampleAgent (capability : String) : AgentDescriptor where
  agentId := "agent:ops"
  domain := "ops"
  capabilities := [capability]
  visibilityModes := [.full]
  capabilityDescriptors := none
  registryStatus := none
  extensions := none

def sampleRegistry (capability : String) : AgentRegistry where
  agents := OrderedMap.empty.set "agent:ops" (sampleAgent capability)
  keyed := by
    intro id descriptor h
    rw [OrderedMap.get_set] at h
    split at h
    · rename_i hid
      cases h
      exact hid
    · exact absurd h (by simp)

/-- The keys that `getSigningKeys` gives where none are configured. -/
def sampleSigning (crypto : Crypto) : SigningConfig where
  keys := [⟨"map-dev-key-1", .active, ["receipt"], .hmac "secret"⟩]
  activeKid := none
  profile := .open
  crypto := crypto

/-- Signatures that nothing is computed for. -/
def noCrypto : Crypto := ⟨fun _ _ => [], fun _ => .error "", fun _ _ _ => false⟩

def sampleEnv (capability : String) (crypto : Crypto) : OrchestratorEnv where
  registry := sampleRegistry capability
  adapters := OrderedMap.empty.set capability ⟨fun _ => ⟨true, []⟩⟩
  coreSignReceipt := none
  signing := sampleSigning crypto
  regExp _ := .error ""
  dateParses _ := true
  uuids := counterUuids
  defaultWebhookUrl := none
  queueOptions := {}

def sampleEnvelope (requester intent : String) (metadata : Option JsObject) : TaskEnvelope where
  taskId := "t1"
  orderId := none
  parentTaskId := none
  contextId := none
  requesterIdentity := ⟨.user, requester, none⟩
  targetAgent := "agent:ops"
  intent := intent
  constraints := ⟨none, none⟩
  riskClass := .low
  deadline := none
  delegationToken := "token"
  requestedOutputMode := .full
  metadata := metadata
  idempotencyToken := none
  extensions := none

/-- A policy without rules. -/
def defaultPolicy (action : PolicyAction) : PolicyDocument := ⟨[], some action⟩

/-- The dispatch of the task `t1`, and its approval. -/
def sampleDispatch (capability : String) (metadata : Option JsObject) (faults : Faults) : Label :=
  .dispatch ⟨sampleEnvelope "alice" "restart web" metadata, capability, none, none⟩ faults

def sampleApprove (requester intent : String) : Label :=
  .approve ⟨"t1", "approval:t1", "ops.restart", sampleEnvelope requester intent none, none, none⟩

/-- What the adapter answers. -/
def sampleResult : ExecutionResult := ⟨"t1", "ops.restart", .ok, [], "done"⟩

/-- The deployment for the capability `ops.restart`, as it starts. -/
def sampleInit (action : PolicyAction) : World :=
  init (sampleEnv "ops.restart" noCrypto) (defaultPolicy action) [] 0

end Orchestrator

end MapProtocol
