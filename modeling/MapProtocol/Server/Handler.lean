import MapProtocol.Server.ControlCalls
import MapProtocol.Server.MutationRoutes
import MapProtocol.Server.PolicyRoutes

/-!
# The request handler

Every request goes through the read routes, the admin routes, the policy routes, the cancellation of
a task and the mutation routes, in this order, to the first that takes it. What a request can change
is the orchestrator with its policy, stores and queue, and the runtime controls. Alerts, audit events
and metrics are left out, and so is what a response holds.
-/

namespace MapProtocol

open Js Transition

/-- What a handler is created with: the orchestrator, and for the mutation routes the options, the
schemes and the schema checks. The rest of the context comes with a request. -/
structure HandlerEnv where
  server       : ServerEnv
  orchestrator : OrchestratorEnv
  options      : MutationContext

structure ServerState where
  world    : World
  controls : RuntimeControls

/-- A request that arrives with its body, the id it is given, what the rate limiter says of it, and
what the writes of its turn throw. -/
structure HttpExchange where
  request                : IncomingMessage
  requestId              : String
  checkMutationRateLimit : Option String → RateLimitDecision
  faults                 : Faults

/-- The request at the instant that the clock shows. -/
def HttpExchange.call (exchange : HttpExchange) (s : ServerState) : HttpCall :=
  ⟨exchange.request, s.world.now⟩

/-- One turn of the server: a request, or a turn of the orchestrator that no request asks for. -/
inductive ServerLabel where
  | http (exchange : HttpExchange)
  | turn (label : Label)

def cancelledTask (url : String) : Option String :=
  if startsWith url "/tasks/" && endsWith url "/cancel" then some (between url "/tasks/" "/cancel")
  else none

/-- The orchestrator's step for a mutation. -/
def Mutation.label (mutation : Mutation) (faults : Faults) : Label :=
  match mutation with
  | .dispatch request => .dispatch request faults
  | .approve request  => .approve request

namespace HandlerEnv

variable (env : HandlerEnv) (nonces : NonceCache)

def mutationContext (s : ServerState) (exchange : HttpExchange) : MutationContext :=
  { env.options with
    checkMutationRateLimit := exchange.checkMutationRateLimit
    asyncQueueMaxQueueDepth := env.orchestrator.queueOptions.queueDepth
    asyncQueueDepth := s.world.queue.queue.length
    requestId := exchange.requestId }

def advance (s : ServerState) (label : Label) : ServerState :=
  { s with world := Orchestrator.step env.orchestrator s.world label }

/-- `POST /policy`. -/
def installPolicy (s : ServerState) (exchange : HttpExchange) : ServerState :=
  match readJsonBody exchange.request with
  | .error _ => s
  | .ok body =>
      match PolicyRoutes.validatePolicyDocument body.parsed with
      | .error _   => s
      | .ok policy => env.advance s (.setPolicy policy)

/-- `POST /tasks/:id/cancel`. -/
def cancel (s : ServerState) (exchange : HttpExchange) (taskId : String) : ServerState :=
  if taskId = "" ∨ includes taskId "/" = true then s
  else env.advance s
    (.cancelTask taskId (exchange.request.headers "x-map-tenant-id") exchange.faults)

/-- `POST /dispatch` and `POST /approve`. -/
def mutate (s : ServerState) (exchange : HttpExchange) : ServerState :=
  match env.server.handleMutationRoutes (env.mutationContext s exchange) nonces s.controls
      (exchange.call s) with
  | .ok (.calls mutation) => env.advance s (mutation.label exchange.faults)
  | _                     => s

/-- The routes of a `POST`, without those of the alerts, which change nothing here. -/
def post (s : ServerState) (exchange : HttpExchange) (url : String) : ServerState :=
  match env.server.handleAdminRoutes nonces s.controls (exchange.call s) with
  | some (.ok (_, controls)) => { s with controls := controls }
  | some (.error _)          => s
  | none                     =>
      if url = "/policy" then env.installPolicy s exchange
      else match cancelledTask url with
        | some taskId => env.cancel s exchange taskId
        | none        => env.mutate nonces s exchange

/-- A request without a URL or a method is refused, and a `GET` only reads. -/
def handle (s : ServerState) (exchange : HttpExchange) : ServerState :=
  match exchange.request.method, exchange.request.url with
  | some "POST", some url => env.post nonces s exchange url
  | _, _                  => s

def step (s : ServerState) : ServerLabel → ServerState
  | .http exchange => env.handle nonces s exchange
  | .turn label    => env.advance s label

/-! ## Requests without a valid signature -/

/-- The request has a valid signature. -/
def Signed (s : ServerState) (exchange : HttpExchange) : Prop :=
  ∃ body, readJsonBody exchange.request = .ok body ∧
    env.server.ValidSignedRequest s.world.now exchange.request body.raw
      (env.server.getEffectiveRevokedKeyIds s.controls)

def InstallsPolicy (exchange : HttpExchange) : Prop :=
  exchange.request.method = some "POST" ∧ exchange.request.url = some "/policy" ∧
    ∃ body policy, readJsonBody exchange.request = .ok body ∧
      PolicyRoutes.validatePolicyDocument body.parsed = .ok policy

/-- The request cancels a task that is there to be cancelled. -/
def CancelsTask (s : ServerState) (exchange : HttpExchange) : Prop :=
  exchange.request.method = some "POST" ∧ ∃ url taskId record, exchange.request.url = some url ∧
    cancelledTask url = some taskId ∧
      Orchestrator.cancelTarget s.world.outer.taskStore taskId
        (exchange.request.headers "x-map-tenant-id") = .ok (some record) ∧
          record.status ∈ Orchestrator.cancellableStates

/-- The request is for a mutation route, and no signature is demanded of all of them. -/
def MutatesUnenforced (exchange : HttpExchange) : Prop :=
  (exchange.request.url = some "/dispatch" ∨ exchange.request.url = some "/approve") ∧
    env.options.enforceSignedRequests = false

/-- The policy, the stores, the queue and the controls are as they were. -/
structure Unchanged (s s' : ServerState) : Prop where
  policy         : s'.world.outer.policy = s.world.outer.policy
  executorPolicy : s'.world.outer.executorPolicy = s.world.outer.executorPolicy
  taskStore      : s'.world.outer.taskStore = s.world.outer.taskStore
  receiptStore   : s'.world.outer.receiptStore = s.world.outer.receiptStore
  queue          : s'.world.queue = s.world.queue
  controls       : s'.controls = s.controls

variable {env nonces}

@[simp] theorem Unchanged.refl (s : ServerState) : Unchanged s s := ⟨rfl, rfl, rfl, rfl, rfl, rfl⟩

theorem signed_of_admitted {s : ServerState} {exchange : HttpExchange}
    (h : env.server.Admitted nonces s.controls (exchange.call s)) : env.Signed s exchange := by
  obtain ⟨body, hbody, hadmin⟩ := h
  exact ⟨body, hbody, ServerEnv.validSignedRequest_iff.mp (ServerEnv.getAdminTokenError_iff.mp hadmin).2⟩

theorem controls_of_admin {s : ServerState} {exchange : HttpExchange} {reply : AdminReply}
    {controls : RuntimeControls}
    (h : env.server.handleAdminRoutes nonces s.controls (exchange.call s) = some (.ok (reply, controls)))
    (hunsigned : ¬ env.Signed s exchange) : controls = s.controls := by
  unfold ServerEnv.handleAdminRoutes at h
  split at h
  · obtain ⟨route, -, hrun⟩ := Option.map_eq_some_iff.mp h
    rcases ServerEnv.runControl_cases hrun with ⟨_, _, hsame⟩ | ⟨_, _, _, _, hadmitted, _⟩
    · exact hsame
    · exact absurd (signed_of_admitted hadmitted) hunsigned
  · cases h

theorem signed_of_calls {s : ServerState} {exchange : HttpExchange} {mutation : Mutation}
    (h : env.server.handleMutationRoutes (env.mutationContext s exchange) nonces s.controls
      (exchange.call s) = .ok (.calls mutation))
    (henforced : env.options.enforceSignedRequests = true) : env.Signed s exchange := by
  obtain ⟨-, validate, idempotencyKey, hrun⟩ := ServerEnv.route_of_calls h
  obtain ⟨body, admitted, hbody, -, -, -, hauth⟩ := ServerEnv.admitted_of_calls hrun
  exact ⟨body, hbody, (ServerEnv.checkAuth_passed hauth).1 (.inl henforced)⟩

/-- A cancellation that finds nothing to cancel throws. -/
theorem planCancel_error {env : OrchestratorEnv} {store : TaskStore} {now : Millis} {taskId : String}
    {tenantId : Option String}
    (h : ∀ record, Orchestrator.cancelTarget store taskId tenantId = .ok (some record) →
      record.status ∉ Orchestrator.cancellableStates) :
    ∃ e, Orchestrator.planCancel env store now taskId tenantId = .error e := by
  cases hplan : Orchestrator.planCancel env store now taskId tenantId with
  | error e => exact ⟨e, rfl⟩
  | ok outcome =>
      obtain ⟨record, hcancellable⟩ := Orchestrator.planCancel_eq_ok hplan
      exact absurd hcancellable.status (h record hcancellable.target)

theorem unchanged_cancel {s : ServerState} {exchange : HttpExchange} {taskId : String}
    (h : ∀ record, Orchestrator.cancelTarget s.world.outer.taskStore taskId
      (exchange.request.headers "x-map-tenant-id") = .ok (some record) →
        record.status ∉ Orchestrator.cancellableStates) :
    Unchanged s (env.cancel s exchange taskId) := by
  unfold cancel
  split
  · exact .refl s
  · obtain ⟨e, hplan⟩ := @planCancel_error env.orchestrator _ s.world.now _ _ h
    unfold advance Orchestrator.step Orchestrator.cancelTask
    dsimp only
    rw [hplan]
    exact ⟨rfl, rfl, rfl, rfl, rfl, rfl⟩

/-- What a request may be without a signature. -/
def Harmless (env : HandlerEnv) (s : ServerState) (exchange : HttpExchange) : Prop :=
  ¬ InstallsPolicy exchange ∧ ¬ CancelsTask s exchange ∧ ¬ env.MutatesUnenforced exchange

theorem unchanged_handle {s : ServerState} {exchange : HttpExchange}
    (hharmless : env.Harmless s exchange) (hunsigned : ¬ env.Signed s exchange) :
    Unchanged s (env.handle nonces s exchange) := by
  obtain ⟨hpolicy, hcancel, hmutates⟩ := hharmless
  unfold handle
  split
  · rename_i url hmethod hurl
    unfold post
    split
    · rename_i reply controls hadmin
      obtain rfl := controls_of_admin hadmin hunsigned
      exact .refl s
    · exact .refl s
    · split
      · rename_i hroute
        subst hroute
        unfold installPolicy
        split
        · exact .refl s
        · rename_i body hbody
          split
          · exact .refl s
          · rename_i policy hvalid
            exact absurd ⟨hmethod, hurl, body, policy, hbody, hvalid⟩ hpolicy
      · split
        · rename_i taskId htask
          refine unchanged_cancel fun record hrecord hstatus => hcancel ?_
          exact ⟨hmethod, url, taskId, record, hurl, htask, hrecord, hstatus⟩
        · unfold mutate
          split
          · rename_i mutation hcalls
            have hroute := (ServerEnv.route_of_calls hcalls).1
            cases henforced : env.options.enforceSignedRequests with
            | false => exact absurd ⟨hroute, henforced⟩ hmutates
            | true => exact absurd (signed_of_calls hcalls henforced) hunsigned
          · exact .refl s
  · exact .refl s

/-- **Requests without a valid signature change nothing**, in every run of a server: whatever the
other turns are, no such request changes the policy, the stores, the queue or the controls where it
neither installs a policy nor cancels a task, and signatures are demanded of the mutations. -/
theorem unsigned_unchanged {s : ServerState} {labels : List ServerLabel}
    (h : StepsMeet (env.step nonces)
      (fun s label => ∀ exchange, label = .http exchange → env.Harmless s exchange) s labels) :
    StepsMeet (env.step nonces)
      (fun s label => ∀ exchange, label = .http exchange → ¬ env.Signed s exchange →
        Unchanged s (env.step nonces s label)) s labels := by
  refine h.mono fun s label hlabel exchange hexchange hunsigned => ?_
  subst hexchange
  exact unchanged_handle (hlabel exchange rfl) hunsigned

/-! ## Requests that nobody signed -/

open Orchestrator (sampleEnv sampleInit sampleDispatch noCrypto)

/-- A server that demands signatures. -/
def enforcingEnv : HandlerEnv where
  server := sampleServer
  orchestrator := sampleEnv "ops.restart" noCrypto
  options := { ServerEnv.sampleContext ServerEnv.sampleRequest with enforceSignedRequests := true }

/-- A `POST` without any header. -/
def unsignedPost (url body : String) : HttpExchange where
  request := ⟨some "POST", some url, fun _ => none, .ok (utf8 body)⟩
  requestId := "r1"
  checkMutationRateLimit _ := ⟨true, none⟩
  faults := {}

/-- A task that waits for its approval, under a policy that demands one. -/
def awaitingState : ServerState where
  world := Orchestrator.run (sampleEnv "ops.restart" noCrypto) (sampleInit .requireApproval)
    [sampleDispatch "ops.restart" none {}]
  controls := noControls

theorem not_signed_unsignedPost (s : ServerState) (url body : String) :
    ¬ enforcingEnv.Signed s (unsignedPost url body) := by
  rintro ⟨_, _, r, hr, -⟩
  have hscheme := (ServerEnv.signedRequest_eq_some.mp hr).1
  cases hscheme

theorem unsigned_unchanged_dispatch :
    Unchanged awaitingState
      (enforcingEnv.step .empty awaitingState (.http (unsignedPost "/dispatch" "\x7b\x7d"))) := by
  have hmeets : StepsMeet (enforcingEnv.step .empty)
      (fun s label => ∀ exchange, label = .http exchange → enforcingEnv.Harmless s exchange)
      awaitingState [.http (unsignedPost "/dispatch" "\x7b\x7d")] := by
    refine ⟨fun exchange hexchange => ?_, trivial⟩
    cases hexchange
    refine ⟨?_, ?_, ?_⟩
    · rintro ⟨-, hurl, -⟩
      exact absurd (Option.some.inj hurl) (by decide)
    · rintro ⟨-, url, taskId, record, hurl, htask, -⟩
      cases hurl
      cases htask
    · rintro ⟨-, henforced⟩
      cases henforced
  exact (unsigned_unchanged hmeets).1 _ rfl (not_signed_unsignedPost _ _ _)

/-- Without a signature the policy is replaced, and the task of another caller is cancelled. -/
theorem unsigned_changes :
    ¬ enforcingEnv.Signed awaitingState
        (unsignedPost "/policy" "\x7b\"version\":\"1.0\",\"rules\":[]\x7d") ∧
      (enforcingEnv.step .empty awaitingState (.http (unsignedPost "/policy"
        "\x7b\"version\":\"1.0\",\"rules\":[]\x7d"))).world.outer.policy ≠
          awaitingState.world.outer.policy ∧
      ¬ enforcingEnv.Signed awaitingState (unsignedPost "/tasks/t1/cancel" "") ∧
      ((enforcingEnv.step .empty awaitingState (.http (unsignedPost "/tasks/t1/cancel"
        ""))).world.outer.taskStore.get "t1").map (·.status) ≠
          (awaitingState.world.outer.taskStore.get "t1").map (·.status) := by
  refine ⟨not_signed_unsignedPost _ _ _, ?_, not_signed_unsignedPost _ _ _, ?_⟩
  · intro h
    have hrules := congrArg PolicyDocument.defaultAction h
    revert hrules
    decide +kernel
  · decide +kernel

end HandlerEnv

end MapProtocol
