import MapProtocol.Lib.OrderedMap
import MapProtocol.Lib.RoundRobin
import MapProtocol.Lib.Transition
import MapProtocol.Sdk.Webhooks

/-!
# The queue of webhooks

`WebhookDispatcher.processQueue` delivers the event at the head of the queue to each endpoint in turn.
Where one of them fails, the event goes back to the end of the queue, with a count of its retries that
`enqueue` sets to zero again, and the next time it begins with the first endpoint. So the queue is
processed as it should be exactly if each endpoint but the first accepts an event at once, and the
first within the retries that are allowed (`queue_delivers_iff`).
-/

namespace MapProtocol.Sdk.TypeScript

open Transition

/-- An event in the queue, and which of the events that were enqueued it is. No code reads the
number. -/
structure QueuedEvent (Data : Type) extends WebhookEvent Data where
  number : Nat

structure WebhookEndpoint where
  id      : String
  url     : String
  events  : List WebhookEventType
  secret  : String
  enabled : Bool

structure WebhookDeliveryResult where
  ok         : Bool
  statusCode : Option Nat    := none
  error      : Option String := none
  durationMs : Nat

structure WebhookOptions where
  maxRetries   : Option Nat := none
  maxQueueSize : Option Nat := none

/-! ## The queue -/

/-- What is in the queue was put there by `enqueue`. -/
structure WebhookQueue (Data : Type) where
  queue        : List (QueuedEvent Data)
  maxQueueSize : Nat
  maxRetries   : Nat
  bounded      : queue.length ≤ maxQueueSize
  unretried    : ∀ event ∈ queue, event.retryCount = some 0

namespace WebhookQueue

variable {Data : Type}

def new (options : WebhookOptions) : WebhookQueue Data where
  queue        := []
  maxQueueSize := options.maxQueueSize.getD 10000
  maxRetries   := options.maxRetries.getD 3
  bounded      := Nat.zero_le _
  unretried    := nofun

def enqueue (q : WebhookQueue Data) (event : QueuedEvent Data) : WebhookQueue Data × Bool :=
  if h : q.queue.length ≥ q.maxQueueSize then (q, false)
  else
    ({ q with
        queue := q.queue ++ [{ event with retryCount := some 0 }]
        bounded := by
          rw [List.length_append, List.length_singleton]
          omega
        unretried := by
          intro e he
          rcases List.mem_append.mp he with he | he
          · exact q.unretried e he
          · rw [List.mem_singleton.mp he] }, true)

def dequeue (q : WebhookQueue Data) : WebhookQueue Data :=
  { q with
    queue := q.queue.tail
    bounded := by
      have hbounded := q.bounded
      rw [List.length_tail]
      omega
    unretried := fun e he => q.unretried e (List.mem_of_mem_tail he) }

def peek (q : WebhookQueue Data) : Option (QueuedEvent Data) := q.queue.head?

def size (q : WebhookQueue Data) : Nat := q.queue.length

def shouldRetry (q : WebhookQueue Data) (event : QueuedEvent Data) : Bool :=
  event.retryCount.getD 0 < q.maxRetries

def markRetried (event : QueuedEvent Data) : QueuedEvent Data :=
  { event with retryCount := some (event.retryCount.getD 0 + 1) }

end WebhookQueue

/-! ## The dispatcher -/

/-- What an endpoint makes of a request: a status, or an error that `fetch` throws; and how long it
takes. -/
inductive Fetched where
  | response (status durationMs : Nat)
  | error (message : String) (durationMs : Nat)

/-- How the endpoints behave: what becomes of each attempt to deliver an event to an endpoint. -/
abbrev Network := Nat → String → Nat → Fetched

/-- A `Set` keeps its elements in the order in which they came. -/
structure WebhookDispatcher (Data : Type) where
  endpoints          : OrderedMap String WebhookEndpoint
  eventSubscriptions : OrderedMap WebhookEventType (OrderedMap String Unit)
  queue              : WebhookQueue Data
  isProcessing       : Bool
  /-- How many events were enqueued. -/
  arrivals           : Nat

structure Attempt where
  number     : Nat
  endpointId : String
  result     : WebhookDeliveryResult

/-- How often the delivery of an event to an endpoint was attempted. -/
def attempts (log : List Attempt) (number : Nat) (endpointId : String) : Nat :=
  log.countP fun a => a.number = number ∧ a.endpointId = endpointId

namespace WebhookDispatcher

variable {Data : Type}

def new (options : WebhookOptions) : WebhookDispatcher Data where
  endpoints          := .empty
  eventSubscriptions := .empty
  queue              := .new options
  isProcessing       := false
  arrivals           := 0

/-- `this.eventSubscriptions.get(type)`, or no ids. -/
def subscribers (d : WebhookDispatcher Data) (type : WebhookEventType) : OrderedMap String Unit :=
  (d.eventSubscriptions.get type).getD .empty

def registerEndpoint (d : WebhookDispatcher Data) (endpoint : WebhookEndpoint) :
    WebhookDispatcher Data :=
  { d with
    endpoints := d.endpoints.set endpoint.id endpoint
    eventSubscriptions := endpoint.events.foldl
      (fun subscriptions type => subscriptions.set type
        (((subscriptions.get type).getD .empty).set endpoint.id ()))
      d.eventSubscriptions }

def unregisterEndpoint (d : WebhookDispatcher Data) (endpointId : String) :
    WebhookDispatcher Data :=
  match d.endpoints.get endpointId with
  | none          => d
  | some endpoint =>
      { d with
        endpoints := d.endpoints.delete endpointId
        eventSubscriptions := endpoint.events.foldl
          (fun subscriptions type => match subscriptions.get type with
            | some ids => subscriptions.set type (ids.delete endpointId)
            | none     => subscriptions)
          d.eventSubscriptions }

def enqueue (d : WebhookDispatcher Data) (event : WebhookEvent Data) :
    WebhookDispatcher Data × Bool :=
  let (queue, accepted) := d.queue.enqueue { event with number := d.arrivals }
  ({ d with queue, arrivals := d.arrivals + 1 }, accepted)

def deliverToEndpoint (fetched : Fetched) : WebhookDeliveryResult :=
  match fetched with
  | .response status durationMs =>
      if 200 ≤ status ∧ status ≤ 299 then { ok := true, statusCode := some status, durationMs }
      else
        { ok := false, statusCode := some status, error := some ("HTTP " ++ toString status)
          durationMs }
  | .error message durationMs => { ok := false, error := some message, durationMs }

/-- The loop over the endpoints of an event: the deliveries attempted so far, and `allDelivered`. -/
def deliverAll (network : Network) (d : WebhookDispatcher Data) (event : QueuedEvent Data) :
    List String → List Attempt → List Attempt × Bool
  | [], log                => (log, true)
  | endpointId :: ids, log =>
      match (d.endpoints.get endpointId).filter (·.enabled) with
      | none   => deliverAll network d event ids log
      | some _ =>
          let result := deliverToEndpoint
            (network event.number endpointId (attempts log event.number endpointId))
          let log := log ++ [⟨event.number, endpointId, result⟩]
          if !result.ok && d.queue.shouldRetry event then (log, false)
          else deliverAll network d event ids log

/-- One turn of the loop over the queue. -/
def processNext (network : Network) (d : WebhookDispatcher Data) (event : QueuedEvent Data)
    (log : List Attempt) : WebhookDispatcher Data × List Attempt :=
  match d.eventSubscriptions.get event.type with
  | none     => ({ d with queue := d.queue.dequeue }, log)
  | some ids =>
      if ids.entries.length = 0 then ({ d with queue := d.queue.dequeue }, log)
      else
        match deliverAll network d event (ids.entries.map Prod.fst) log with
        | (log, true)  => ({ d with queue := d.queue.dequeue }, log)
        | (log, false) =>
            ({ d with queue := (d.queue.dequeue.enqueue (WebhookQueue.markRetried event)).1 }, log)

/-- The loop over the queue, with at most `fuel` turns. -/
def processAll (network : Network) :
    Nat → WebhookDispatcher Data → List Attempt → Option (WebhookDispatcher Data × List Attempt)
  | fuel, d, log =>
      match d.queue.peek, fuel with
      | none, _              => some (d, log)
      | some _, 0            => none
      | some event, fuel + 1 =>
          let (d, log) := processNext network d event log
          processAll network fuel d log

/-- `processQueue`: the attempts, whose results are returned. -/
def processQueue (network : Network) (fuel : Nat) (d : WebhookDispatcher Data) :
    Option (WebhookDispatcher Data × List Attempt) :=
  if d.isProcessing then some (d, [])
  else (processAll network fuel { d with isProcessing := true } []).map fun (d, log) =>
    ({ d with isProcessing := false }, log)

/-! ## Delivering a queue -/

/-- The endpoints that an event of a type is for: subscribed, registered and enabled. -/
def targets (d : WebhookDispatcher Data) (type : WebhookEventType) : List String :=
  ((d.subscribers type).entries.map Prod.fst).filter fun id =>
    ((d.endpoints.get id).filter (·.enabled)).isSome

def accepts (network : Network) (event : QueuedEvent Data) (endpointId : String) (attempt : Nat) :
    Bool :=
  (deliverToEndpoint (network event.number endpointId attempt)).ok

/-- The attempts to deliver one event. -/
def attemptsAt (number : Nat) (log : List Attempt) : List Attempt :=
  log.filter fun a => a.number = number

/-- What the attempts to deliver an event should be: few enough at each endpoint, none at one that
has accepted the event, and one at each that is enabled and subscribed. -/
structure EventDelivered (d : WebhookDispatcher Data) (event : QueuedEvent Data)
    (made : List Attempt) : Prop where
  limited : ∀ endpointId, attempts made event.number endpointId ≤ d.queue.maxRetries + 1
  once    : made.Pairwise fun a b => a.result.ok = true → a.endpointId ≠ b.endpointId
  reached : ∀ endpointId endpoint, d.endpoints.get endpointId = some endpoint →
    endpoint.enabled = true →
    endpointId ∈ (d.subscribers event.type).entries.map Prod.fst ∨ event.type ∈ endpoint.events →
    ∃ a ∈ made, a.endpointId = endpointId

/-- `processQueue` returns, and has delivered every event of the queue. -/
def Delivers (network : Network) (d : WebhookDispatcher Data) : Prop :=
  ∃ fuel after log, processQueue network fuel d = some (after, log) ∧
    ∀ event ∈ d.queue.queue, EventDelivered d event (attemptsAt event.number log)

/-- An event that can be retried is accepted by the first of its endpoints within the retries that are
allowed, and by the others at the first attempt. -/
def Accepting (network : Network) (d : WebhookDispatcher Data) : Prop :=
  ∀ event ∈ d.queue.queue, d.queue.shouldRetry event = true →
    ∀ first rest, d.targets event.type = first :: rest →
      (∃ n ≤ d.queue.maxRetries, (∀ m < n, accepts network event first m = false) ∧
        accepts network event first n = true) ∧
      ∀ endpointId ∈ rest, accepts network event endpointId 0 = true

/-- What is done with a dispatcher before its queue is processed. -/
inductive Call (Data : Type) where
  | registerEndpoint (endpoint : WebhookEndpoint)
  | unregisterEndpoint (endpointId : String)
  | enqueue (event : WebhookEvent Data)

def call (d : WebhookDispatcher Data) : Call Data → WebhookDispatcher Data
  | .registerEndpoint endpoint     => d.registerEndpoint endpoint
  | .unregisterEndpoint endpointId => d.unregisterEndpoint endpointId
  | .enqueue event                 => (d.enqueue event).1

/-! ## One pass over the endpoints

A pass asks each target once, in order; endpoints that are gone or disabled are passed over. -/

variable {network : Network} {d d' : WebhookDispatcher Data} {event : QueuedEvent Data}
  {ids : List String} {log : List Attempt}

theorem deliverAll_filter (ids : List String) (log : List Attempt) :
    deliverAll network d event ids log = deliverAll network d event
      (ids.filter fun id => ((d.endpoints.get id).filter (·.enabled)).isSome) log := by
  induction ids generalizing log with
  | nil => rfl
  | cons id ids ih =>
      cases hid : (d.endpoints.get id).filter (·.enabled) with
      | none =>
          rw [List.filter_cons_of_neg (by simp [hid]), deliverAll, hid]
          exact ih log
      | some endpoint =>
          rw [List.filter_cons_of_pos (by simp [hid]), deliverAll, deliverAll, hid]
          dsimp only
          split
          · rfl
          · exact ih _

theorem attempts_attemptsAt (number : Nat) (endpointId : String) (log : List Attempt) :
    attempts (attemptsAt number log) number endpointId = attempts log number endpointId := by
  unfold attempts attemptsAt
  rw [List.countP_filter]
  refine List.countP_congr fun a _ => ?_
  simp
  tauto

theorem deliverAll_own (ids : List String) (log : List Attempt) :
    (attemptsAt event.number (deliverAll network d event ids log).1,
      (deliverAll network d event ids log).2) =
      deliverAll network d event ids (attemptsAt event.number log) := by
  induction ids generalizing log with
  | nil => rfl
  | cons id ids ih =>
      rw [deliverAll, deliverAll]
      cases (d.endpoints.get id).filter (·.enabled) with
      | none => exact ih log
      | some endpoint =>
          dsimp only
          rw [attempts_attemptsAt]
          have hown : ∀ a : Attempt, a.number = event.number →
              attemptsAt event.number (log ++ [a]) = attemptsAt event.number log ++ [a] := by
            intro a ha
            simp [attemptsAt, ha]
          split
          · dsimp only
            rw [hown _ rfl]
          · rw [ih, hown _ rfl]

theorem deliverAll_other {number : Nat} (hne : event.number ≠ number) (ids : List String)
    (log : List Attempt) :
    attemptsAt number (deliverAll network d event ids log).1 = attemptsAt number log := by
  induction ids generalizing log with
  | nil => rfl
  | cons id ids ih =>
      rw [deliverAll]
      cases (d.endpoints.get id).filter (·.enabled) with
      | none => exact ih log
      | some endpoint =>
          dsimp only
          have hother : ∀ a : Attempt, a.number = event.number →
              attemptsAt number (log ++ [a]) = attemptsAt number log := by
            intro a ha
            simp [attemptsAt, ha, hne]
          split
          · exact hother _ rfl
          · rw [ih]
            exact hother _ rfl

/-- The endpoints of an event, in the order of the loop. -/
def pass (network : Network) (d : WebhookDispatcher Data) (event : QueuedEvent Data)
    (log : List Attempt) : List Attempt × Bool :=
  deliverAll network d event ((d.subscribers event.type).entries.map Prod.fst) log

/-- The events of a queue as jobs, each with the attempts at it. -/
def jobs (network : Network) (d : WebhookDispatcher Data) :
    Jobs (QueuedEvent Data) Nat (List Attempt) (List Attempt) where
  key   := QueuedEvent.number
  act   := pass network d
  view  := fun event => attemptsAt event.number
  turn  := pass network d
  own   := fun _ log => deliverAll_own _ log
  frame := fun _ _ log hne => deliverAll_other hne _ log

/-! ## The loop serves the events in turn

The loop is the round robin of the library, with the attempts at an event as its view. -/

/-- Two dispatchers that differ in what is in their queues at most. -/
structure SameTargets (d d' : WebhookDispatcher Data) : Prop where
  endpoints     : d.endpoints = d'.endpoints
  subscriptions : d.eventSubscriptions = d'.eventSubscriptions
  maxRetries    : d.queue.maxRetries = d'.queue.maxRetries

theorem deliverAll_same (h : SameTargets d d') (ids : List String) (log : List Attempt) :
    deliverAll network d event ids log = deliverAll network d' event ids log := by
  induction ids generalizing log with
  | nil => rfl
  | cons id ids ih =>
      rw [deliverAll, deliverAll, h.endpoints]
      have hretry : d.queue.shouldRetry event = d'.queue.shouldRetry event := by
        unfold WebhookQueue.shouldRetry
        rw [h.maxRetries]
      cases (d'.endpoints.get id).filter (·.enabled) with
      | none => exact ih log
      | some endpoint =>
          dsimp only
          rw [hretry, ih]

theorem pass_same (h : SameTargets d d') (event : QueuedEvent Data) (log : List Attempt) :
    pass network d event log = pass network d' event log := by
  unfold pass subscribers
  rw [h.subscriptions]
  exact deliverAll_same h _ log

/-- An event that is put back is as it was: its count of retries is zero again. -/
theorem enqueue_markRetried {q : WebhookQueue Data} {rest : List (QueuedEvent Data)}
    (hqueue : q.queue = event :: rest) :
    (q.dequeue.enqueue (WebhookQueue.markRetried event)).1.queue = rest ++ [event] ∧
      (q.dequeue.enqueue (WebhookQueue.markRetried event)).1.maxRetries = q.maxRetries := by
  have hunretried : event.retryCount = some 0 :=
    q.unretried event (hqueue ▸ List.mem_cons_self ..)
  have hsame : ({ WebhookQueue.markRetried event with retryCount := some 0 } : QueuedEvent Data) =
      event := by
    obtain ⟨⟨id, type, timestamp, data, retryCount⟩, number⟩ := event
    cases hunretried
    rfl
  have hroom : ¬ q.dequeue.queue.length ≥ q.dequeue.maxQueueSize := by
    have hbounded := q.bounded
    show ¬ q.queue.tail.length ≥ q.maxQueueSize
    rw [hqueue] at hbounded ⊢
    rw [List.length_cons] at hbounded
    rw [List.tail_cons]
    omega
  unfold WebhookQueue.enqueue
  rw [dif_neg hroom]
  refine ⟨?_, rfl⟩
  show q.queue.tail ++ [_] = _
  rw [hsame, hqueue]
  rfl

/-- **One turn of the loop** takes the event off the queue, or puts it behind the others. -/
theorem processNext_spec (network : Network) {rest : List (QueuedEvent Data)}
    (hqueue : d.queue.queue = event :: rest) (log : List Attempt) :
    (processNext network d event log).2 = (pass network d event log).1 ∧
      (processNext network d event log).1.queue.queue =
        (if (pass network d event log).2 then rest else rest ++ [event]) ∧
      SameTargets (processNext network d event log).1 d := by
  have hdequeue : d.queue.dequeue.queue = rest := by
    show d.queue.queue.tail = rest
    rw [hqueue]
    rfl
  have hempty : ∀ {ids : OrderedMap String Unit}, ids.entries.length = 0 →
      deliverAll network d event (ids.entries.map Prod.fst) log = (log, true) := by
    intro ids hids
    rw [List.length_eq_zero_iff.mp hids]
    rfl
  unfold processNext pass subscribers
  cases d.eventSubscriptions.get event.type with
  | none => exact ⟨rfl, hdequeue, rfl, rfl, rfl⟩
  | some ids =>
      rw [Option.getD_some]
      dsimp only
      by_cases hids : ids.entries.length = 0
      · rw [if_pos hids, hempty hids]
        exact ⟨rfl, hdequeue, rfl, rfl, rfl⟩
      · rw [if_neg hids]
        generalize deliverAll network d event (ids.entries.map Prod.fst) log = passed
        obtain ⟨log', done⟩ := passed
        cases done with
        | true => exact ⟨rfl, hdequeue, rfl, rfl, rfl⟩
        | false =>
            -- a failed event goes to the back of the queue
            obtain ⟨hback, hmax⟩ := enqueue_markRetried hqueue
            exact ⟨rfl, hback, rfl, rfl, hmax⟩

/-- **The loop over the queue** serves the events in turn. -/
theorem processAll_eq_serve (network : Network) (fuel : Nat) (d d' : WebhookDispatcher Data)
    (hsame : SameTargets d' d) (log : List Attempt) :
    (processAll network fuel d' log).map Prod.snd =
      (jobs network d).serve fuel d'.queue.queue log := by
  induction fuel generalizing d' log with
  | zero =>
      unfold processAll WebhookQueue.peek
      cases d'.queue.queue <;> rfl
  | succ fuel ih =>
      unfold processAll WebhookQueue.peek
      cases hqueue : d'.queue.queue with
      | nil => rfl
      | cons event rest =>
          obtain ⟨hlog, hrest, htargets⟩ := processNext_spec network hqueue log
          -- the next pass runs on another dispatcher, with the same targets
          have hnext := ih (processNext network d' event log).1
            ⟨htargets.endpoints.trans hsame.endpoints,
              htargets.subscriptions.trans hsame.subscriptions,
              htargets.maxRetries.trans hsame.maxRetries⟩ (processNext network d' event log).2
          rw [hrest, hlog, pass_same hsame] at hnext
          show (processAll network fuel (processNext network d' event log).1
            (processNext network d' event log).2).map Prod.snd = _
          rw [hlog, pass_same hsame, hnext, Jobs.serve]
          have hact : (jobs network d).act event log = pass network d event log := rfl
          rw [hact]
          generalize pass network d event log = passed
          obtain ⟨log', done⟩ := passed
          cases done <;> rfl

/-! ## An event alone

What becomes of one event does not depend on the others. -/

/-- An attempt at an endpoint, by its number among those at that endpoint. -/
def attemptAt (network : Network) (event : QueuedEvent Data) (endpointId : String) (n : Nat) :
    Attempt :=
  ⟨event.number, endpointId, deliverToEndpoint (network event.number endpointId n)⟩

def firstAttempts (network : Network) (event : QueuedEvent Data) (endpointId : String) (n : Nat) :
    List Attempt :=
  (List.range n).map (attemptAt network event endpointId)

variable {first endpointId : String} {rest : List String} {n : Nat} {made : List Attempt}

theorem nodup_targets (d : WebhookDispatcher Data) (type : WebhookEventType) :
    (d.targets type).Nodup :=
  (d.subscribers type).nodup.filter _

theorem isSome_of_mem_targets {type : WebhookEventType} (h : endpointId ∈ d.targets type) :
    ((d.endpoints.get endpointId).filter (·.enabled)).isSome = true :=
  (List.mem_filter.mp h).2

theorem pass_eq (log : List Attempt) :
    pass network d event log = deliverAll network d event (d.targets event.type) log :=
  deliverAll_filter _ log

/-- The attempt at an endpoint that is registered and enabled. -/
theorem deliverAll_cons
    (h : ((d.endpoints.get endpointId).filter (·.enabled)).isSome = true)
    (hcount : attempts log event.number endpointId = n) (ids : List String) :
    deliverAll network d event (endpointId :: ids) log =
      if !accepts network event endpointId n && d.queue.shouldRetry event then
        (log ++ [attemptAt network event endpointId n], false)
      else deliverAll network d event ids (log ++ [attemptAt network event endpointId n]) := by
  obtain ⟨endpoint, hendpoint⟩ := Option.isSome_iff_exists.mp h
  rw [deliverAll, hendpoint]
  dsimp only
  rw [hcount]
  rfl

theorem attempts_append (a b : List Attempt) (number : Nat) :
    attempts (a ++ b) number endpointId =
      attempts a number endpointId + attempts b number endpointId :=
  List.countP_append

theorem attempts_firstAttempts (network : Network) (event : QueuedEvent Data)
    (first endpointId : String) (n : Nat) :
    attempts (firstAttempts network event first n) event.number endpointId =
      if first = endpointId then n else 0 := by
  unfold attempts firstAttempts
  rw [List.countP_map]
  by_cases h : first = endpointId
  · rw [if_pos h, List.countP_eq_length.mpr, List.length_range]
    simp [attemptAt, h]
  · rw [if_neg h, List.countP_eq_zero]
    simp [attemptAt, h]

theorem firstAttempts_succ (n : Nat) : firstAttempts network event first (n + 1) =
    firstAttempts network event first n ++ [attemptAt network event first n] := by
  unfold firstAttempts
  rw [List.range_succ, List.map_append]
  rfl

theorem prefix_deliverAll (network : Network) (d : WebhookDispatcher Data)
    (event : QueuedEvent Data) (ids : List String) (log : List Attempt) :
    log <+: (deliverAll network d event ids log).1 := by
  induction ids generalizing log with
  | nil => exact List.prefix_refl _
  | cons id ids ih =>
      rw [deliverAll]
      cases (d.endpoints.get id).filter (·.enabled) with
      | none => exact ih log
      | some endpoint =>
          dsimp only
          split
          · exact List.prefix_append _ _
          · exact (List.prefix_append _ _).trans (ih _)

theorem extends_of_deliverAll {done : Bool}
    (h : deliverAll network d event ids log = (made, done)) : ∃ more, made = log ++ more := by
  obtain ⟨more, hmore⟩ := prefix_deliverAll network d event ids log
  rw [h] at hmore
  exact ⟨more, hmore.symm⟩

theorem untried_append {ids : List String} (hid : endpointId ∉ ids)
    (huntried : ∀ id ∈ ids, attempts log event.number id = 0) :
    ∀ id ∈ ids,
      attempts (log ++ [attemptAt network event endpointId n]) event.number id = 0 := by
  intro id hmem
  have hne : endpointId ≠ id := by
    rintro rfl
    exact hid hmem
  rw [attempts_append, huntried id hmem]
  simp [attempts, attemptAt, hne]

/-- At endpoints that were not tried before, a pass comes to its end exactly if each of them accepts,
or the event is not retried. -/
theorem deliverAll_untried {ids : List String} (hids : ids.Nodup)
    (henabled : ∀ id ∈ ids, ((d.endpoints.get id).filter (·.enabled)).isSome = true)
    (huntried : ∀ id ∈ ids, attempts log event.number id = 0) :
    (deliverAll network d event ids log).2 = true ↔
      ∀ id ∈ ids, accepts network event id 0 = true ∨ d.queue.shouldRetry event = false := by
  induction ids generalizing log with
  | nil => simp [deliverAll]
  | cons id ids ih =>
      obtain ⟨hid, hnodup⟩ := List.nodup_cons.mp hids
      obtain ⟨hfirst, hrest⟩ := List.forall_mem_cons.mp henabled
      obtain ⟨hcount, hothers⟩ := List.forall_mem_cons.mp huntried
      rw [deliverAll_cons hfirst hcount, List.forall_mem_cons]
      split
      · rename_i hfails
        simp only [Bool.and_eq_true, Bool.not_eq_true'] at hfails
        simp [hfails.1, hfails.2]
      · rename_i hgoes
        have hgood : accepts network event id 0 = true ∨ d.queue.shouldRetry event = false := by
          simpa [or_iff_not_imp_left] using hgoes
        rw [ih hnodup hrest (untried_append hid hothers)]
        exact (and_iff_right hgood).symm

/-- Such a pass attempts each of them once. -/
theorem deliverAll_once {ids : List String} (hids : ids.Nodup)
    (henabled : ∀ id ∈ ids, ((d.endpoints.get id).filter (·.enabled)).isSome = true)
    (huntried : ∀ id ∈ ids, attempts log event.number id = 0)
    (hgood : ∀ id ∈ ids, accepts network event id 0 = true ∨ d.queue.shouldRetry event = false) :
    deliverAll network d event ids log =
      (log ++ ids.map fun id => attemptAt network event id 0, true) := by
  induction ids generalizing log with
  | nil => simp [deliverAll]
  | cons id ids ih =>
      obtain ⟨hid, hnodup⟩ := List.nodup_cons.mp hids
      obtain ⟨hfirst, hrest⟩ := List.forall_mem_cons.mp henabled
      obtain ⟨hcount, hothers⟩ := List.forall_mem_cons.mp huntried
      obtain ⟨haccepts, hgood⟩ := List.forall_mem_cons.mp hgood
      have hgoes : ¬ (!accepts network event id 0 && d.queue.shouldRetry event) = true := by
        simpa [or_iff_not_imp_left] using haccepts
      rw [deliverAll_cons hfirst hcount, if_neg hgoes,
        ih hnodup hrest (untried_append hid hothers) hgood, List.map_cons, List.append_assoc]
      rfl

/-- The attempts at endpoints that are tried once. -/
theorem eventDelivered_append {ids : List String} (before : List Attempt) (hids : ids.Nodup)
    (hlimited : ∀ id, attempts before event.number id ≤ d.queue.maxRetries + 1)
    (honce : before.Pairwise fun a b => a.result.ok = true → a.endpointId ≠ b.endpointId)
    (hother : ∀ a ∈ before, a.number = event.number ∧ a.endpointId ∉ ids)
    (hreached : ∀ id ∈ d.targets event.type, (∃ a ∈ before, a.endpointId = id) ∨ id ∈ ids)
    (hsubscribed : ∀ id endpoint, d.endpoints.get id = some endpoint →
      event.type ∈ endpoint.events → id ∈ (d.subscribers event.type).entries.map Prod.fst) :
    EventDelivered d event (before ++ ids.map fun id => attemptAt network event id 0) := by
  constructor
  · intro id
    have hcount : attempts (ids.map fun id => attemptAt network event id 0) event.number id =
        ids.count id := by
      unfold attempts List.count
      rw [List.countP_map]
      refine List.countP_congr fun other _ => ?_
      simp [attemptAt]
    rw [attempts_append, hcount]
    by_cases hid : id ∈ ids
    · have hnone : attempts before event.number id = 0 := by
        refine List.countP_eq_zero.mpr fun a ha heq => ?_
        have hsame := (of_decide_eq_true heq).2
        exact (hother a ha).2 (hsame ▸ hid)
      rw [hnone, List.count_eq_one_of_mem hids hid]
      omega
    · rw [List.count_eq_zero_of_not_mem hid]
      exact hlimited id
  · rw [List.pairwise_append]
    refine ⟨honce, ?_, ?_⟩
    · rw [List.pairwise_map]
      refine hids.imp ?_
      intro a b hne _
      exact hne
    · intro a ha b hb _ heq
      obtain ⟨id, hid, rfl⟩ := List.mem_map.mp hb
      have hsame : a.endpointId = id := heq
      exact (hother a ha).2 (hsame ▸ hid)
  · intro id endpoint hget henabled hsub
    have hmem : id ∈ d.targets event.type := by
      refine List.mem_filter.mpr ⟨?_, by simp [hget, Option.filter, henabled]⟩
      exact hsub.elim (fun h => h) (hsubscribed id endpoint hget)
    rcases hreached id hmem with ⟨a, ha, heq⟩ | hid
    · exact ⟨a, List.mem_append_left _ ha, heq⟩
    · exact ⟨_, List.mem_append_right _ (List.mem_map_of_mem hid), rfl⟩

def Subscribed (d : WebhookDispatcher Data) : Prop :=
  ∀ id endpoint type, d.endpoints.get id = some endpoint → type ∈ endpoint.events →
    id ∈ (d.subscribers type).entries.map Prod.fst

def AcceptsEvent (network : Network) (d : WebhookDispatcher Data) (event : QueuedEvent Data) : Prop :=
  d.queue.shouldRetry event = true → ∀ first rest, d.targets event.type = first :: rest →
    (∃ n ≤ d.queue.maxRetries, (∀ m < n, accepts network event first m = false) ∧
      accepts network event first n = true) ∧
    ∀ endpointId ∈ rest, accepts network event endpointId 0 = true

theorem ends_once (hsubscribed : d.Subscribed)
    (hgood : ∀ id ∈ d.targets event.type,
      accepts network event id 0 = true ∨ d.queue.shouldRetry event = false) :
    ∃ n made, (jobs network d).Ends event n [] made ∧ EventDelivered d event made := by
  have hturn : (jobs network d).turn event [] =
      ((d.targets event.type).map fun id => attemptAt network event id 0, true) := by
    show pass network d event [] = _
    rw [pass_eq, deliverAll_once (nodup_targets d event.type)
      (fun id hid => isSome_of_mem_targets hid) (fun _ _ => rfl) hgood]
    rfl
  refine ⟨1, _, .done hturn, ?_⟩
  exact eventDelivered_append [] (nodup_targets d event.type)
    (fun id => Nat.zero_le _) .nil nofun (fun id hid => .inr hid)
    fun id endpoint hget hevent => hsubscribed id endpoint event.type hget hevent

theorem enabled_of_targets (htargets : d.targets event.type = first :: rest) :
    ∀ id ∈ first :: rest, ((d.endpoints.get id).filter (·.enabled)).isSome = true := by
  rw [← htargets]
  exact fun id hid => isSome_of_mem_targets hid

theorem nodup_of_targets (htargets : d.targets event.type = first :: rest) :
    first ∉ rest ∧ rest.Nodup :=
  List.nodup_cons.mp (htargets ▸ nodup_targets d event.type)

theorem untried_firstAttempts (htargets : d.targets event.type = first :: rest) (n : Nat) :
    ∀ id ∈ rest, attempts (firstAttempts network event first n) event.number id = 0 := by
  intro id hid
  rw [attempts_firstAttempts, if_neg]
  rintro rfl
  exact (nodup_of_targets htargets).1 hid

/-- The pass after some attempts at the first endpoint. -/
theorem turn_firstAttempts (htargets : d.targets event.type = first :: rest) (n : Nat) :
    (jobs network d).turn event (firstAttempts network event first n) =
      if !accepts network event first n && d.queue.shouldRetry event then
        (firstAttempts network event first (n + 1), false)
      else deliverAll network d event rest (firstAttempts network event first (n + 1)) := by
  show pass network d event _ = _
  have hcount := attempts_firstAttempts network event first first n
  have henabled := (List.forall_mem_cons.mp (enabled_of_targets htargets)).1
  rw [if_pos rfl] at hcount
  rw [pass_eq, htargets, deliverAll_cons henabled hcount, firstAttempts_succ]

/-- The passes of an event whose first endpoint fails for a while and whose others accept at once. -/
theorem ends_retried (htargets : d.targets event.type = first :: rest)
    (hretry : d.queue.shouldRetry event = true) {k : Nat}
    (hfails : ∀ m < n + k, accepts network event first m = false)
    (haccepts : accepts network event first (n + k) = true)
    (hrest : ∀ id ∈ rest, accepts network event id 0 = true) :
    (jobs network d).Ends event (k + 1) (firstAttempts network event first n)
      (firstAttempts network event first (n + k + 1) ++
        rest.map fun id => attemptAt network event id 0) := by
  have henabled := (List.forall_mem_cons.mp (enabled_of_targets htargets)).2
  induction k generalizing n with
  | zero =>
      rw [Nat.add_zero] at haccepts
      refine .done ?_
      rw [turn_firstAttempts htargets, haccepts, if_neg (by simp),
        deliverAll_once (nodup_of_targets htargets).2 henabled (untried_firstAttempts htargets _)
          fun id hid => .inl (hrest id hid)]
  | succ k ih =>
      have hfails' : ∀ m < n + 1 + k, accepts network event first m = false := fun m hm =>
        hfails m (by omega)
      have hshift : n + (k + 1) = n + 1 + k := by omega
      rw [hshift] at haccepts ⊢
      refine .again ?_ (ih hfails' haccepts)
      rw [turn_firstAttempts htargets, hfails n (by omega), hretry]
      rfl

/-- Retried attempts are limited, and none follows one that was accepted. -/
theorem eventDelivered_retried (hsubscribed : d.Subscribed)
    (htargets : d.targets event.type = first :: rest) (hmax : n ≤ d.queue.maxRetries)
    (hfails : ∀ m < n, accepts network event first m = false) :
    EventDelivered d event (firstAttempts network event first (n + 1) ++
      rest.map fun id => attemptAt network event id 0) := by
  have hnodup : (first :: rest).Nodup := htargets ▸ nodup_targets d event.type
  obtain ⟨hfirst, hrest⟩ := List.nodup_cons.mp hnodup
  refine eventDelivered_append _ hrest ?_ ?_ ?_ ?_
    fun id endpoint hget hevent => hsubscribed id endpoint event.type hget hevent
  · intro id
    rw [attempts_firstAttempts]
    split <;> omega
  · unfold firstAttempts
    rw [List.pairwise_map]
    refine List.pairwise_lt_range.imp_of_mem ?_
    intro k m hk hm hlt hok
    -- only the last of them may be accepted
    have hfail := hfails k (by have := List.mem_range.mp hm; omega)
    exact absurd (hok.symm.trans hfail) (by simp)
  · intro a ha
    obtain ⟨k, -, rfl⟩ := List.mem_map.mp ha
    exact ⟨rfl, hfirst⟩
  · intro id hid
    rw [htargets] at hid
    rcases List.mem_cons.mp hid with rfl | hid
    · exact .inl ⟨_, List.mem_map_of_mem (List.mem_range.mpr (Nat.succ_pos n)), rfl⟩
    · exact .inr hid

theorem pass_begins (network : Network) (htargets : d.targets event.type = first :: rest)
    (log : List Attempt) :
    ∃ a more, (pass network d event log).1 = log ++ a :: more ∧ a.endpointId = first := by
  have hmem : first ∈ d.targets event.type := htargets ▸ List.mem_cons_self ..
  rw [pass_eq, htargets, deliverAll_cons (isSome_of_mem_targets hmem) rfl]
  split
  · exact ⟨_, [], rfl, rfl⟩
  · obtain ⟨more, hmore⟩ := prefix_deliverAll network d event rest
      (log ++ [attemptAt network event first (attempts log event.number first)])
    rw [List.append_assoc] at hmore
    exact ⟨_, more, hmore.symm, rfl⟩

theorem ends_begins (htargets : d.targets event.type = first :: rest) {k : Nat}
    (h : (jobs network d).Ends event k log made) :
    ∃ a more, made = log ++ a :: more ∧ a.endpointId = first := by
  induction h with
  | @done v v' hturn =>
      obtain ⟨a, more, heq, ha⟩ := pass_begins network htargets v
      have hmade : (pass network d event v).1 = v' := congrArg Prod.fst hturn
      exact ⟨a, more, hmade.symm.trans heq, ha⟩
  | @again k v v' v'' hturn _ ih =>
      obtain ⟨a, more, heq, ha⟩ := pass_begins network htargets v
      obtain ⟨b, rest, hrest, -⟩ := ih
      have hmade : (pass network d event v).1 = v' := congrArg Prod.fst hturn
      rw [← hmade, heq, List.append_assoc] at hrest
      exact ⟨a, more ++ b :: rest, hrest, ha⟩

/-- **What a delivered event needs**: while its first endpoint fails it is retried, and when that has
accepted nothing may fail any more. -/
theorem accepts_of_ends (htargets : d.targets event.type = first :: rest)
    (hretry : d.queue.shouldRetry event = true) {k m : Nat}
    (hends : (jobs network d).Ends event k (firstAttempts network event first m) made)
    (hmade : EventDelivered d event made)
    (hfails : ∀ i < m, accepts network event first i = false) :
    (∃ n ≤ d.queue.maxRetries, (∀ i < n, accepts network event first i = false) ∧
      accepts network event first n = true) ∧
    ∀ id ∈ rest, accepts network event id 0 = true := by
  have henabled := (List.forall_mem_cons.mp (enabled_of_targets htargets)).2
  generalize hbefore : firstAttempts network event first m = before at hends
  induction hends generalizing m with
  | @done _ made hturn =>
      rw [← hbefore, turn_firstAttempts htargets, hretry, Bool.and_true] at hturn
      cases haccepts : accepts network event first m with
      | false =>
          rw [haccepts] at hturn
          cases hturn
      | true =>
          rw [haccepts, if_neg (by simp)] at hturn
          have hall := (deliverAll_untried (nodup_of_targets htargets).2 henabled
            (untried_firstAttempts htargets (m + 1))).mp (congrArg Prod.snd hturn)
          refine ⟨⟨m, ?_, hfails, haccepts⟩, fun id hid => (hall id hid).resolve_right ?_⟩
          · obtain ⟨more, hmore⟩ := extends_of_deliverAll hturn
            have hlimited := hmade.limited first
            rw [hmore, attempts_append, attempts_firstAttempts, if_pos rfl] at hlimited
            omega
          · rw [hretry]
            simp
  | @again k _ v made hturn hends ih =>
      rw [← hbefore, turn_firstAttempts htargets, hretry, Bool.and_true] at hturn
      cases haccepts : accepts network event first m with
      | false =>
          rw [haccepts] at hturn
          refine ih hmade ?_ (congrArg Prod.fst hturn)
          intro i hi
          rcases Nat.lt_succ_iff_lt_or_eq.mp hi with hi | rfl
          · exact hfails i hi
          · exact haccepts
      | true =>
          -- the first endpoint has accepted, and the next pass would begin with it again
          rw [haccepts, if_neg (by simp)] at hturn
          obtain ⟨more, hmore⟩ := extends_of_deliverAll hturn
          obtain ⟨a, rest', hrest', ha⟩ := ends_begins htargets hends
          have honce := hmade.once
          rw [hrest', hmore, firstAttempts_succ, List.append_assoc, List.append_assoc,
            List.pairwise_append] at honce
          have hpairs := List.pairwise_append.mp honce.2.1
          exact absurd ha.symm (hpairs.2.2 (attemptAt network event first m) (by simp) a (by simp)
            haccepts)

/-- **When an event is delivered as it should be.** -/
theorem event_delivered_iff (hsubscribed : d.Subscribed) :
    (∃ n made, (jobs network d).Ends event n [] made ∧ EventDelivered d event made) ↔
      d.AcceptsEvent network event := by
  constructor
  · rintro ⟨k, made, hends, hmade⟩ hretry first rest htargets
    exact accepts_of_ends (m := 0) htargets hretry hends hmade nofun
  · intro h
    cases hretry : d.queue.shouldRetry event with
    | false => exact ends_once hsubscribed fun _ _ => .inr hretry
    | true =>
        cases htargets : d.targets event.type with
        | nil =>
            refine ends_once hsubscribed ?_
            rw [htargets]
            nofun
        | cons first rest =>
            obtain ⟨⟨n, hmax, hfails, haccepts⟩, hrest⟩ := h hretry first rest htargets
            have hends := ends_retried (n := 0) (k := n) htargets hretry
              (by simpa using hfails) (by simpa using haccepts) hrest
            rw [Nat.zero_add] at hends
            exact ⟨n + 1, _, hends, eventDelivered_retried hsubscribed htargets hmax hfails⟩

/-! ## The dispatchers that are used

Between calls a dispatcher is idle, and no two of its events have a number. -/

/-- What holds of a dispatcher before its queue is processed. -/
structure Formed (d : WebhookDispatcher Data) : Prop where
  idle       : d.isProcessing = false
  numbered   : (d.queue.queue.map QueuedEvent.number).Nodup
  arrived    : ∀ event ∈ d.queue.queue, event.number < d.arrivals
  subscribed : d.Subscribed

theorem processQueue_eq (network : Network) (hidle : d.isProcessing = false) (fuel : Nat) :
    (processQueue network fuel d).map Prod.snd =
      (jobs network d).serve fuel d.queue.queue [] := by
  have hserve := processAll_eq_serve network fuel d { d with isProcessing := true }
    ⟨rfl, rfl, rfl⟩ []
  unfold processQueue
  rw [hidle, if_neg Bool.false_ne_true, Option.map_map]
  exact hserve

/-- **When the queue is processed as it should be.** -/
theorem Formed.delivers_iff (h : d.Formed) : d.Delivers network ↔ d.Accepting network := by
  have hserves := (jobs network d).serves_iff h.numbered []
    fun event made => EventDelivered d event made
  have hreturns : d.Delivers network ↔ ∃ fuel log,
      (jobs network d).serve fuel d.queue.queue [] = some log ∧
        ∀ event ∈ d.queue.queue, EventDelivered d event (attemptsAt event.number log) := by
    constructor
    · rintro ⟨fuel, after, log, hprocess, hall⟩
      have hserve := processQueue_eq network h.idle fuel
      rw [hprocess, Option.map_some] at hserve
      exact ⟨fuel, log, hserve.symm, hall⟩
    · rintro ⟨fuel, log, hserve, hall⟩
      rw [← processQueue_eq network h.idle] at hserve
      obtain ⟨⟨after, log'⟩, hprocess, hlog⟩ := Option.map_eq_some_iff.mp hserve
      refine ⟨fuel, after, log', hprocess, ?_⟩
      rwa [show log' = log from hlog]
  refine hreturns.trans (hserves.trans ?_)
  exact forall₂_congr fun event _ => event_delivered_iff h.subscribed

def SubscribedTo (subscriptions : OrderedMap WebhookEventType (OrderedMap String Unit))
    (type : WebhookEventType) (id : String) : Prop :=
  ((subscriptions.get type).getD .empty).get id ≠ none

theorem mem_subscribers {type : WebhookEventType} {id : String} :
    id ∈ (d.subscribers type).entries.map Prod.fst ↔ SubscribedTo d.eventSubscriptions type id :=
  (not_iff_comm.mp OrderedMap.getEntries_eq_none.symm).symm

variable {subscriptions : OrderedMap WebhookEventType (OrderedMap String Unit)}
  {types : List WebhookEventType} {type : WebhookEventType} {id id' : String}

theorem subscribedTo_subscribe (t : WebhookEventType) (h : SubscribedTo subscriptions type id) :
    SubscribedTo (subscriptions.set t (((subscriptions.get t).getD .empty).set id' ())) type id := by
  unfold SubscribedTo at h ⊢
  rw [OrderedMap.get_set]
  split
  · rename_i heq
    subst heq
    rw [Option.getD_some, OrderedMap.get_set]
    split
    · nofun
    · exact h
  · exact h

theorem subscribedTo_subscribeAll (h : SubscribedTo subscriptions type id) :
    SubscribedTo (types.foldl (fun subscriptions type => subscriptions.set type
      (((subscriptions.get type).getD .empty).set id' ())) subscriptions) type id := by
  induction types generalizing subscriptions with
  | nil => exact h
  | cons t types ih => exact ih (subscribedTo_subscribe t h)

theorem subscribedTo_of_mem (h : type ∈ types) :
    SubscribedTo (types.foldl (fun subscriptions type => subscriptions.set type
      (((subscriptions.get type).getD .empty).set id ())) subscriptions) type id := by
  induction types generalizing subscriptions with
  | nil => cases h
  | cons t types ih =>
      rw [List.foldl_cons]
      rcases List.mem_cons.mp h with rfl | h
      · refine subscribedTo_subscribeAll ?_
        unfold SubscribedTo
        rw [OrderedMap.get_set_self, Option.getD_some, OrderedMap.get_set_self]
        nofun
      · exact ih h

theorem subscribedTo_unsubscribeAll (h : SubscribedTo subscriptions type id) (hne : id' ≠ id) :
    SubscribedTo (types.foldl (fun subscriptions type => match subscriptions.get type with
      | some ids => subscriptions.set type (ids.delete id')
      | none     => subscriptions) subscriptions) type id := by
  induction types generalizing subscriptions with
  | nil => exact h
  | cons t types ih =>
      refine ih ?_
      unfold SubscribedTo at h ⊢
      dsimp only
      cases hids : subscriptions.get t with
      | none => exact h
      | some ids =>
          dsimp only
          rw [OrderedMap.get_set]
          split
          · rename_i heq
            subst heq
            rw [hids, Option.getD_some] at h
            rw [Option.getD_some, OrderedMap.get_delete, if_neg hne]
            exact h
          · exact h

theorem Subscribed.register (h : d.Subscribed) (endpoint : WebhookEndpoint) :
    (d.registerEndpoint endpoint).Subscribed := by
  intro id e type hget hevent
  rw [mem_subscribers]
  have hget : (d.endpoints.set endpoint.id endpoint).get id = some e := hget
  rw [OrderedMap.get_set] at hget
  split at hget
  · rename_i heq
    cases hget
    exact heq ▸ subscribedTo_of_mem hevent
  · exact subscribedTo_subscribeAll (mem_subscribers.mp (h id e type hget hevent))

theorem Subscribed.unregister (h : d.Subscribed) (endpointId : String) :
    (d.unregisterEndpoint endpointId).Subscribed := by
  unfold unregisterEndpoint
  split
  · exact h
  · intro id e type hget hevent
    rw [mem_subscribers]
    have hget : (d.endpoints.delete endpointId).get id = some e := hget
    rw [OrderedMap.get_delete] at hget
    split at hget
    · cases hget
    · rename_i hne
      exact subscribedTo_unsubscribeAll (mem_subscribers.mp (h id e type hget hevent)) hne

theorem formed_new (options : WebhookOptions) : (new options : WebhookDispatcher Data).Formed where
  idle       := rfl
  numbered   := List.nodup_nil
  arrived    := nofun
  subscribed := nofun

theorem Formed.enqueue (h : d.Formed) (event : WebhookEvent Data) : (d.enqueue event).1.Formed := by
  have hqueue : (d.enqueue event).1.queue.queue = d.queue.queue ∨
      (d.enqueue event).1.queue.queue =
        d.queue.queue ++ [{ event with number := d.arrivals, retryCount := some 0 }] := by
    by_cases hfull : d.queue.queue.length ≥ d.queue.maxQueueSize
    · exact .inl (by simp [WebhookDispatcher.enqueue, WebhookQueue.enqueue, hfull])
    · exact .inr (by simp [WebhookDispatcher.enqueue, WebhookQueue.enqueue, hfull])
  refine ⟨h.idle, ?_, ?_, h.subscribed⟩
  · rcases hqueue with hqueue | hqueue
    · exact hqueue ▸ h.numbered
    · rw [hqueue, List.map_append, List.map_singleton, List.nodup_append]
      refine ⟨h.numbered, List.nodup_singleton _, ?_⟩
      intro n hn m hm
      obtain ⟨e, he, rfl⟩ := List.mem_map.mp hn
      rw [List.mem_singleton.mp hm]
      exact (h.arrived e he).ne
  · intro e he
    show e.number < d.arrivals + 1
    rcases hqueue with hqueue | hqueue
    · have harrived := h.arrived e (hqueue ▸ he)
      omega
    · rw [hqueue] at he
      rcases List.mem_append.mp he with he | he
      · have harrived := h.arrived e he
        omega
      · rw [List.mem_singleton.mp he]
        exact Nat.lt_succ_self _

theorem Formed.call (h : d.Formed) (c : Call Data) : (d.call c).Formed := by
  cases c with
  | registerEndpoint endpoint =>
      exact ⟨h.idle, h.numbered, h.arrived, h.subscribed.register endpoint⟩
  | unregisterEndpoint endpointId =>
      have hsame : (d.unregisterEndpoint endpointId).isProcessing = d.isProcessing ∧
          (d.unregisterEndpoint endpointId).queue = d.queue ∧
          (d.unregisterEndpoint endpointId).arrivals = d.arrivals := by
        unfold unregisterEndpoint
        split <;> exact ⟨rfl, rfl, rfl⟩
      obtain ⟨hidle, hqueue, harrivals⟩ := hsame
      refine ⟨hidle.trans h.idle, ?_, ?_, h.subscribed.unregister endpointId⟩
      · show (List.map _ (d.unregisterEndpoint endpointId).queue.queue).Nodup
        rw [hqueue]
        exact h.numbered
      · show ∀ e ∈ (d.unregisterEndpoint endpointId).queue.queue,
          e.number < (d.unregisterEndpoint endpointId).arrivals
        rw [hqueue, harrivals]
        exact h.arrived
  | enqueue event => exact h.enqueue event

theorem formed_run (options : WebhookOptions) (calls : List (Call Data)) :
    (run call (.new options) calls).Formed :=
  run_preserves (I := Formed) (fun _ c h => h.call c) calls (formed_new options)

/-- **The queue is processed as it should be** exactly if an event that can be retried is accepted by
the first of its endpoints within the retries that are allowed, and by the others at once: whatever
was registered and enqueued, and whatever the endpoints do. -/
theorem queue_delivers_iff (options : WebhookOptions) (calls : List (Call Data))
    (network : Network) :
    (run call (.new options) calls).Delivers network ↔
      (run call (.new options) calls).Accepting network :=
  (formed_run options calls).delivers_iff

/-- With one endpoint that always fails the queue is not processed to its end. -/
theorem queue_retries_forever :
    ¬ (run call (.new {} : WebhookDispatcher Unit)
        [.registerEndpoint
          { id := "a", url := "https://a", events := [.taskCompleted], secret := "s"
            enabled := true },
        .enqueue { id := "e", type := .taskCompleted, timestamp := "t", data := () }]).Delivers
      (fun _ _ _ => .response 500 0) := by
  intro h
  have haccepting := (formed_run {} _).delivers_iff.mp h
  obtain ⟨⟨n, -, -, haccepts⟩, -⟩ := haccepting _ (List.mem_singleton_self _) rfl "a" [] rfl
  exact Bool.false_ne_true haccepts

end WebhookDispatcher

end MapProtocol.Sdk.TypeScript
