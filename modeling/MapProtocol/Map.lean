import MapProtocol.ControlPlane.Approvals

/-!
# The `map()` instance

The small entry point over the core executor: handlers are registered with `can`, intents are
executed with `run`, and an intent that needs approval is kept under its reference until `approve`
executes it. `run` and `approve` await the executor, and other calls may come in between. A `run` that
has kept an intent also awaits the `onApprovalRequired` hook before it returns, and rejects if the
hook does; what the hook approves meanwhile is a call of `approve` like any other.

`setPolicy` takes the compiled document here. `MapInstance.history` records what happened, newest
first; no branch reads it.
-/

namespace MapProtocol

open Js

inductive MapStatus where
  | executed
  | denied
  | approvalRequired
  deriving DecidableEq, Repr

/-- The receipt in a `MapResult`. -/
structure MapReceipt where
  id         : String
  capability : String
  action     : ReceiptAction
  timestamp  : String
  signature  : Option String
  deriving DecidableEq, Repr

structure MapResult where
  status            : MapStatus
  output            : Option JsObject
  summary           : String
  receipt           : MapReceipt
  approvalReference : Option String

/-- The options of `run`. -/
structure RunOptions where
  requester   : Option IntentRequester
  risk        : Option RiskLevel
  environment : Option String

/-- What an instance is built over. `onDecision`, `onApprovalRequired`: is that hook configured? -/
structure MapEnv where
  requester          : Option IntentRequester
  onDecision         : Bool
  onApprovalRequired : Bool
  regExp             : RegExpEngine
  uuid               : Nat → String

inductive MapOrigin where
  | run
  | approve (reference : String)
  deriving DecidableEq, Repr

/-- A `run` or an `approve` that awaits the executor. -/
structure MapCall where
  id         : Nat
  origin     : MapOrigin
  intent     : Intent
  invocation : Invocation

inductive MapEvent where
  /-- The handler starts on the intent, under the policy then in force. -/
  | executed (call : Nat) (origin : MapOrigin) (intent : Intent) (policy : PolicyDocument)
  /-- The call has come to the result; a `run` has kept the intent, where it needs approval. -/
  | answered (call : Nat) (result : MapResult)
  | returned (call : Nat) (result : MapResult)
  | threw (call : Nat) (message : Option String)

structure MapInstance where
  policyDoc        : PolicyDocument
  /-- The executor's own copy. -/
  executorPolicy   : PolicyDocument
  adapters         : OrderedMap String ExecutionAdapter
  pendingApprovals : OrderedMap String Intent
  calls            : List MapCall
  /-- The runs that await the `onApprovalRequired` hook, with their results. -/
  notifying        : List (Nat × MapResult)
  nextCall         : Nat
  nextUuid         : Nat
  now              : Nat
  history          : List MapEvent

namespace MapInstance

variable (env : MapEnv)

def buildIntent (uuid : Nat) (capability : String) (input : JsObject) (options : RunOptions) :
    Intent where
  capability := capability
  input := input
  requester := options.requester.getD (env.requester.getD ⟨.service, "default", none⟩)
  constraints := match options.environment with
    | some environment =>
        if environment = "" then none
        else some ⟨.str environment, .undefined, .undefined, .undefined⟩
    | none => none
  metadata := some ⟨env.uuid uuid, none, none⟩
  riskClass := options.risk

def executor (m : MapInstance) : Executor := ⟨m.executorPolicy, m.adapters, none⟩

/-- `toMapResult` of a receipt. -/
def resultOfReceipt (receipt : CoreReceipt) (intent : Intent) : MapResult where
  status := match receipt.action with
    | .executed         => .executed
    | .denied           => .denied
    | .approvalRequired => .approvalRequired
  output := none
  summary :=
    if receipt.action = .approvalRequired then "Approval required for " ++ intent.capability
    else intent.capability ++ " was " ++ receipt.action.text
  receipt := ⟨receipt.receiptId, receipt.capability, receipt.action, receipt.timestamp,
    some receipt.signature⟩
  approvalReference :=
    if receipt.action = .approvalRequired then some ("approval:" ++ receipt.intentId) else none

/-- `toMapResult` of a handler's result. -/
def resultOfExecution (now : Nat) (result : ExecutionResult) : MapResult where
  status := if result.status = .ok then .executed else .denied
  output := some result.output
  summary := result.summary
  receipt := ⟨"receipt:" ++ result.intentId ++ ":" ++ toString now, result.capability,
    if result.status = .ok then .executed else .denied, toISOString now, none⟩
  approvalReference := none

/-! ## Calls

`run` and `approve` up to their first wait, and what follows each wait. -/

def log (event : MapEvent) (m : MapInstance) : MapInstance :=
  { m with history := event :: m.history }

/-- The call waits for the executor; the handler has started if the executor got that far. -/
def suspend (call : MapCall) (m : MapInstance) : MapInstance :=
  { m with
    calls := m.calls ++ [call]
    history := match call.invocation with
      | .adapter intent _ => .executed call.id call.origin intent m.policyDoc :: m.history
      | _                 => m.history }

/-- `can`: the adapter takes any input. -/
def can (capability : String) (m : MapInstance) : MapInstance :=
  { m with adapters := m.adapters.set capability ⟨fun _ => ⟨true, []⟩⟩ }

/-- `run` up to its wait. The intent has an id, so the executor has none to generate. -/
def run (capability : String) (input : JsObject) (options : RunOptions) (m : MapInstance) :
    MapInstance :=
  let call := m.nextCall
  let intent := buildIntent env m.nextUuid capability input options
  let m := { m with nextCall := call + 1, nextUuid := m.nextUuid + 1 }
  let decision := if env.onDecision then (evaluate env.regExp intent m.policyDoc).map some
    else .ok none
  match decision with
  | .error message => log (.threw call (some message)) m
  | .ok _          =>
      suspend ⟨call, .run, intent,
        m.executor.execute env.regExp m.now (env.uuid m.nextUuid) intent⟩ m

/-- `approve` up to its wait: the entry is taken out first. -/
def approve (approvalReference : String) (m : MapInstance) : MapInstance :=
  let call := m.nextCall
  let m := { m with nextCall := call + 1 }
  match m.pendingApprovals.get approvalReference with
  | none        =>
      log (.threw call (some ("No pending approval found for reference: " ++ approvalReference ++
        ". Make sure you're using the approval_reference from the original run() result."))) m
  | some intent =>
      suspend ⟨call, .approve approvalReference, intent,
          m.executor.executeApproved (env.uuid m.nextUuid) intent⟩
        { m with pendingApprovals := m.pendingApprovals.delete approvalReference }

def setPolicy (policy : PolicyDocument) (m : MapInstance) : MapInstance :=
  { m with policyDoc := policy, executorPolicy := policy }

/-- `run` and `approve` have a result; a `run` keeps the intent that needs approval. -/
def complete (call : MapCall) (result : MapResult) (m : MapInstance) : MapInstance :=
  let m := log (.answered call.id result) m
  match call.origin, result.status, result.approvalReference with
  | .run, .approvalRequired, some reference =>
      { m with pendingApprovals := m.pendingApprovals.set reference call.intent }
  | _, _, _ => m

/-- The end of `run` and of `approve`, but for the hook that a `run` awaits. -/
def conclude (call : MapCall) (result : MapResult) (m : MapInstance) : MapInstance :=
  if env.onApprovalRequired = true ∧ call.origin = .run ∧ result.status = .approvalRequired then
    { m with notifying := m.notifying ++ [(call.id, result)] }
  else log (.returned call.id result) m

/-- The call numbered `id` is resumed; `outcome` is what its handler gave, if it was reached. -/
def resume (id : Nat) (outcome : Except (Option String) (Option JsObject)) (m : MapInstance) :
    MapInstance :=
  match m.calls.find? (·.id == id) with
  | none      => m
  | some call =>
      let m := { m with calls := m.calls.eraseP (·.id == id) }
      match call.invocation, outcome with
      | .rejected message, _         => log (.threw call.id (some message)) m
      | .refused receipt, _          =>
          let result := resultOfReceipt receipt call.intent
          conclude env call result (complete call result m)
      | .adapter _ _, .error message => log (.threw call.id message) m
      | .adapter intent context, .ok output =>
          let result : ExecutionResult :=
            ⟨context.intentId, intent.capability, .ok, output.getD [],
              intent.capability ++ " executed"⟩
          let result := resultOfExecution m.now result
          conclude env call result (complete call result m)

/-- The hook that the run numbered `id` awaits is done. -/
def notified (id : Nat) (outcome : Except (Option String) Unit) (m : MapInstance) : MapInstance :=
  match m.notifying.find? (·.1 == id) with
  | none             => m
  | some (_, result) =>
      let m := { m with notifying := m.notifying.eraseP (·.1 == id) }
      match outcome with
      | .error message => log (.threw id message) m
      | .ok _          => log (.returned id result) m

end MapInstance

/-- One turn of the event loop. -/
inductive MapLabel where
  | can (capability : String)
  | run (capability : String) (input : JsObject) (options : RunOptions)
  | approve (approvalReference : String)
  | setPolicy (policy : PolicyDocument)
  | resume (id : Nat) (outcome : Except (Option String) (Option JsObject))
  | notified (id : Nat) (outcome : Except (Option String) Unit)
  | tick (ms : Nat)

namespace MapInstance

variable (env : MapEnv)

def step (m : MapInstance) : MapLabel → MapInstance
  | .can capability               => can capability m
  | .run capability input options => run env capability input options m
  | .approve reference            => approve env reference m
  | .setPolicy policy             => setPolicy policy m
  | .resume id outcome            => resume env id outcome m
  | .notified id outcome          => notified id outcome m
  | .tick ms                      => { m with now := m.now + ms }

def init (policy : PolicyDocument) (now : Nat) : MapInstance where
  policyDoc := policy
  executorPolicy := policy
  adapters := .empty
  pendingApprovals := .empty
  calls := []
  notifying := []
  nextCall := 0
  nextUuid := 0
  now := now
  history := []

/-! ## Approvals and the policy

`map()` approves as the orchestrator does, without asking the policy again. -/

open Orchestrator (Denies executeApproved_adapter executeApproved_ne_refused)

/-- No approval started a handler on an intent that the policy then in force denies. -/
def ApprovesWithinPolicy (m : MapInstance) : Prop :=
  ∀ call reference intent policy,
    .executed call (.approve reference) intent policy ∈ m.history → ¬ Denies env.regExp policy intent

/-- The intents that wait for approval: the pending ones, and those of the runs that are about to
make them pending. -/
def Waits (m : MapInstance) (intent : Intent) : Prop :=
  (∃ reference, m.pendingApprovals.get reference = some intent) ∨
    ∃ call ∈ m.calls, call.intent = intent ∧
      ∃ receipt, call.invocation = .refused receipt ∧ receipt.action = .approvalRequired

/-- The policy does not deny what waits for approval. -/
def Spares (m : MapInstance) (policy : PolicyDocument) : Prop :=
  ∀ intent, m.Waits intent → ¬ Denies env.regExp policy (normalizeIntent intent)

def Allowed (m : MapInstance) : MapLabel → Prop
  | .setPolicy policy => Spares env m policy
  | _                 => True

/-- The invariant of an instance whose policies spare what waits. -/
structure Orderly (m : MapInstance) : Prop where
  policy : m.executorPolicy = m.policyDoc
  spares : Spares env m m.policyDoc
  within : ApprovesWithinPolicy env m

variable {env} {m : MapInstance}

/-- Nothing is executed, and nothing waits that did not wait before. -/
theorem Orderly.onward (h : Orderly env m) {m' : MapInstance}
    (hpolicy : m'.policyDoc = m.policyDoc) (hexecutor : m'.executorPolicy = m.executorPolicy)
    (hwaits : ∀ intent, m'.Waits intent → m.Waits intent)
    (hhistory : ∀ call reference intent policy,
      MapEvent.executed call (.approve reference) intent policy ∈ m'.history →
        MapEvent.executed call (.approve reference) intent policy ∈ m.history) :
    Orderly env m' where
  policy := by rw [hpolicy, hexecutor, h.policy]
  spares := by
    intro intent hwait
    rw [hpolicy]
    exact h.spares intent (hwaits intent hwait)
  within call reference intent policy hmem := h.within _ _ _ _ (hhistory _ _ _ _ hmem)

theorem suspend_executed {call : MapCall} {m : MapInstance} {id : Nat} {reference : String}
    {intent : Intent} {policy : PolicyDocument}
    (h : MapEvent.executed id (.approve reference) intent policy ∈ (suspend call m).history) :
    MapEvent.executed id (.approve reference) intent policy ∈ m.history ∨
      (call.origin = .approve reference ∧ policy = m.policyDoc ∧
        ∃ context, call.invocation = .adapter intent context) := by
  unfold suspend at h
  dsimp only at h
  split at h
  · rename_i handed context hinvocation
    rcases List.mem_cons.mp h with heq | hold
    · simp only [MapEvent.executed.injEq] at heq
      obtain ⟨-, horigin, rfl, rfl⟩ := heq
      exact .inr ⟨horigin.symm, rfl, context, hinvocation⟩
    · exact .inl hold
  · exact .inl h

/-- The executor refuses for approval only what its policy wants approved. -/
theorem execute_refused {executor : Executor} {regExp : RegExpEngine} {now : Nat}
    {generatedId : String} {intent : Intent} {receipt : CoreReceipt}
    (h : executor.execute regExp now generatedId intent = .refused receipt)
    (haction : receipt.action = .approvalRequired) :
    ¬ Denies regExp executor.policy (normalizeIntent intent) := by
  rintro ⟨decision, hdecision, hdeny⟩
  unfold Executor.execute at h
  dsimp only at h
  split at h
  · cases h
  · rw [hdecision] at h
    dsimp only at h
    rw [hdeny] at h
    obtain rfl := Invocation.refused.inj h
    rw [Executor.buildReceipt_action] at haction
    cases haction

/-! ## One step -/

theorem orderly_run (h : Orderly env m) (capability : String) (input : JsObject)
    (options : RunOptions) : Orderly env (run env capability input options m) := by
  unfold run
  dsimp only
  split
  · exact h.onward rfl rfl (fun _ hw => hw) (fun _ _ _ _ hmem => List.mem_of_ne_of_mem (by simp) hmem)
  · constructor
    · exact h.policy
    · rintro intent (⟨reference, hpending⟩ | ⟨call, hcall, rfl, receipt, hrefused, haction⟩)
      · exact h.spares intent (.inl ⟨reference, hpending⟩)
      · rcases List.mem_append.mp hcall with hold | hnew
        · exact h.spares _ (.inr ⟨call, hold, rfl, receipt, hrefused, haction⟩)
        · -- the new run: its intent is the one that was decided
          rw [List.mem_singleton.mp hnew] at hrefused ⊢
          show ¬ Denies env.regExp m.policyDoc _
          rw [← h.policy]
          exact execute_refused hrefused haction
    · intro id reference intent policy hmem
      rcases suspend_executed hmem with hold | ⟨horigin, _⟩
      · exact h.within _ _ _ _ hold
      · cases horigin

theorem orderly_approve (h : Orderly env m) (reference : String) :
    Orderly env (approve env reference m) := by
  unfold approve
  dsimp only
  split
  · exact h.onward rfl rfl (fun _ hw => hw) (fun _ _ _ _ hmem => List.mem_of_ne_of_mem (by simp) hmem)
  · rename_i intent hpending
    constructor
    · exact h.policy
    · rintro intent' (⟨reference', hpending'⟩ | ⟨call, hcall, rfl, receipt, hrefused, haction⟩)
      · have hget : (m.pendingApprovals.delete reference).get reference' = some intent' := hpending'
        rw [OrderedMap.get_delete] at hget
        split at hget
        · cases hget
        · exact h.spares intent' (.inl ⟨reference', hget⟩)
      · rcases List.mem_append.mp hcall with hold | hnew
        · exact h.spares _ (.inr ⟨call, hold, rfl, receipt, hrefused, haction⟩)
        · rw [List.mem_singleton.mp hnew] at hrefused
          exact absurd hrefused executeApproved_ne_refused
    · intro id reference' handed policy hmem
      rcases suspend_executed hmem with hold | ⟨_, rfl, context, hinvocation⟩
      · exact h.within _ _ _ _ hold
      · rw [executeApproved_adapter hinvocation]
        exact h.spares intent (.inl ⟨reference, hpending⟩)

theorem orderly_complete (h : Orderly env m) {call : MapCall} {result : MapResult}
    (hspared : call.origin = .run → result.status = .approvalRequired →
      ¬ Denies env.regExp m.policyDoc (normalizeIntent call.intent)) :
    Orderly env (complete call result m) := by
  have hold : ∀ id reference intent policy, MapEvent.executed id (.approve reference) intent policy ∈
      (log (.answered call.id result) m).history →
        MapEvent.executed id (.approve reference) intent policy ∈ m.history :=
    fun _ _ _ _ hmem => List.mem_of_ne_of_mem (by simp) hmem
  unfold complete
  dsimp only
  split
  · rename_i reference horigin hstatus _
    refine ⟨h.policy, ?_, fun _ _ _ _ hmem => h.within _ _ _ _ (hold _ _ _ _ hmem)⟩
    rintro intent (⟨reference', hpending⟩ | hcalls)
    · have hget : (m.pendingApprovals.set reference call.intent).get reference' = some intent :=
        hpending
      rw [OrderedMap.get_set] at hget
      split at hget
      · cases hget
        exact hspared horigin hstatus
      · exact h.spares intent (.inl ⟨reference', hget⟩)
    · exact h.spares intent (.inr hcalls)
  · exact h.onward rfl rfl (fun _ hw => hw) hold

theorem orderly_log (h : Orderly env m) {event : MapEvent}
    (hevent : ∀ call reference intent policy, event ≠ .executed call (.approve reference) intent policy) :
    Orderly env (log event m) :=
  h.onward rfl rfl (fun _ hw => hw) fun _ _ _ _ hmem =>
    List.mem_of_ne_of_mem (fun heq => hevent _ _ _ _ heq.symm) hmem

theorem Orderly.threw (h : Orderly env m) (id : Nat) (message : Option String) :
    Orderly env (log (.threw id message) m) :=
  orderly_log h fun _ _ _ _ heq => MapEvent.noConfusion heq

theorem Orderly.returned (h : Orderly env m) (id : Nat) (result : MapResult) :
    Orderly env (log (.returned id result) m) :=
  orderly_log h fun _ _ _ _ heq => MapEvent.noConfusion heq

theorem orderly_conclude (h : Orderly env m) (call : MapCall) (result : MapResult) :
    Orderly env (conclude env call result m) := by
  unfold conclude
  split
  · exact h.onward rfl rfl (fun _ hw => hw) (fun _ _ _ _ hmem => hmem)
  · exact h.returned _ _

theorem orderly_notified (h : Orderly env m) (id : Nat) (outcome : Except (Option String) Unit) :
    Orderly env (notified id outcome m) := by
  unfold notified
  split
  · exact h
  · have hover : ∀ notifying, Orderly env { m with notifying := notifying } :=
      fun _ => h.onward rfl rfl (fun _ hw => hw) (fun _ _ _ _ hmem => hmem)
    dsimp only
    split
    · exact (hover _).threw _ _
    · exact (hover _).returned _ _

theorem orderly_resume (h : Orderly env m) (id : Nat)
    (outcome : Except (Option String) (Option JsObject)) : Orderly env (resume env id outcome m) := by
  unfold resume
  split
  · exact h
  · rename_i call hfind
    have hcall : call ∈ m.calls := List.mem_of_find?_eq_some hfind
    have hover : Orderly env { m with calls := m.calls.eraseP (·.id == id) } := by
      refine h.onward rfl rfl ?_ (fun _ _ _ _ hmem => hmem)
      rintro intent (hpending | ⟨c, hc, hwaits⟩)
      · exact .inl hpending
      · exact .inr ⟨c, List.mem_of_mem_eraseP hc, hwaits⟩
    dsimp only
    split
    · exact hover.threw _ _
    · rename_i receipt hrefused
      refine orderly_conclude (orderly_complete hover fun _ hstatus => h.spares _
        (.inr ⟨call, hcall, rfl, receipt, hrefused, ?_⟩)) _ _
      revert hstatus
      unfold resultOfReceipt
      cases receipt.action <;> simp
    · exact hover.threw _ _
    · refine orderly_conclude (orderly_complete hover fun _ hstatus => ?_) _ _
      cases hstatus

theorem orderly_step (h : Orderly env m) {l : MapLabel} (hallowed : Allowed env m l) :
    Orderly env (step env m l) := by
  cases l with
  | can capability => exact h.onward rfl rfl (fun _ hw => hw) (fun _ _ _ _ hmem => hmem)
  | run capability input options => exact orderly_run h capability input options
  | approve reference => exact orderly_approve h reference
  | setPolicy policy => exact ⟨rfl, hallowed, h.within⟩
  | resume id outcome => exact orderly_resume h id outcome
  | notified id outcome => exact orderly_notified h id outcome
  | tick ms => exact h.onward rfl rfl (fun _ hw => hw) (fun _ _ _ _ hmem => hmem)

theorem init_orderly (env : MapEnv) (policy : PolicyDocument) (now : Nat) :
    Orderly env (init policy now) where
  policy := rfl
  spares := by
    rintro intent (⟨reference, hpending⟩ | ⟨call, hcall, _⟩)
    · cases hpending
    · cases hcall
  within := by simp [ApprovesWithinPolicy, init]

end MapInstance

/-- **Approvals stay within the policy in force**, for the orchestrator and for `map()`: in every
run in which no policy is installed that denies what waits for approval and, for the orchestrator,
approvals bring the submitted intent. -/
theorem approvals_respect_policy (env : OrchestratorEnv) (mapEnv : MapEnv)
    (policy : PolicyDocument) (deadLetters : List DeadLetterRecord) (now : Nat) (ls : List Label)
    (ms : List MapLabel) :
    (Transition.StepsMeet (Orchestrator.step env)
        (Orchestrator.Allowed (Orchestrator.sparing env) env)
        (Orchestrator.init env policy deadLetters now) ls →
      Orchestrator.ApprovesWithinPolicy env
        (Orchestrator.run env (Orchestrator.init env policy deadLetters now) ls).outer) ∧
    (Transition.StepsMeet (MapInstance.step mapEnv) (MapInstance.Allowed mapEnv)
        (MapInstance.init policy now) ms →
      MapInstance.ApprovesWithinPolicy mapEnv
        (Transition.run (MapInstance.step mapEnv) (MapInstance.init policy now) ms)) := by
  constructor
  · exact Orchestrator.approvals_within_policy env policy deadLetters now ls
  · intro hms
    exact (Transition.run_invariant (I := MapInstance.Orderly mapEnv)
      (fun _ _ h hallowed => MapInstance.orderly_step h hallowed)
      (MapInstance.init_orderly mapEnv policy now) hms).within

/-! ## A sample instance -/

open Orchestrator (sampleEnv noCrypto sampleInit sampleDispatch sampleApprove defaultPolicy
  counterUuids)

def sampleMapEnv : MapEnv where
  requester := none
  onDecision := false
  onApprovalRequired := false
  regExp _ := .error ""
  uuid := counterUuids.uuid

/-- A handler is registered and run, and its intent waits for approval. -/
def sampleMapRun : List MapLabel :=
  [.can "ops.restart", .run "ops.restart" [] ⟨none, none, none⟩, .resume 0 (.ok none)]

/-- The reference that the sample run is answered with. -/
def sampleReference : String := "approval:10000000-0000-4000-8000-000000000000"

/-- Both samples are approved after a policy that allows everything was installed. -/
theorem approvals_respect_policy_sample :
    Orchestrator.ApprovesWithinPolicy (sampleEnv "ops.restart" noCrypto)
      (Orchestrator.run (sampleEnv "ops.restart" noCrypto) (sampleInit .requireApproval)
        [sampleDispatch "ops.restart" none {}, .setPolicy (defaultPolicy .allow),
          sampleApprove "alice" "restart web"]).outer ∧
      MapInstance.ApprovesWithinPolicy sampleMapEnv
        (Transition.run (MapInstance.step sampleMapEnv)
          (MapInstance.init (defaultPolicy .requireApproval) 0)
          (sampleMapRun ++ [.setPolicy (defaultPolicy .allow), .approve sampleReference])) := by
  constructor
  · refine (approvals_respect_policy _ sampleMapEnv _ _ _ _ []).1 ⟨?_, ?_, ?_, trivial⟩
    · exact fun _ _ _ _ => trivial
    · rintro envelope capability record hcreated hget hstatus ⟨decision, hdecision, hdeny⟩
      cases hdecision
      cases hdeny
    · intro approval hcheck envelope capability hcreated _
      obtain ⟨rfl, rfl⟩ := Orchestrator.sampleSubmitted_created hcreated
      obtain ⟨negotiation, hchecked⟩ := Orchestrator.sampleApprove_checked
      obtain rfl := Except.ok.inj (hchecked.symm.trans hcheck)
      rfl
  · refine (approvals_respect_policy (sampleEnv "ops.restart" noCrypto) _ _ [] _ [] _).2
      ⟨trivial, trivial, trivial, ?_, trivial, trivial⟩
    rintro intent hwaits ⟨decision, hdecision, hdeny⟩
    cases hdecision
    cases hdeny

/-- Both samples are approved after a policy that denies everything was installed. -/
theorem approvals_past_denial :
    (¬ Orchestrator.ApprovesWithinPolicy (sampleEnv "ops.restart" noCrypto)
      (Orchestrator.run (sampleEnv "ops.restart" noCrypto) (sampleInit .requireApproval)
        [sampleDispatch "ops.restart" none {}, .setPolicy (defaultPolicy .deny),
          sampleApprove "alice" "restart web"]).outer) ∧
      ¬ MapInstance.ApprovesWithinPolicy sampleMapEnv
        (Transition.run (MapInstance.step sampleMapEnv)
          (MapInstance.init (defaultPolicy .requireApproval) 0)
          (sampleMapRun ++ [.setPolicy (defaultPolicy .deny), .approve sampleReference])) := by
  constructor
  · have hhistory : ∃ intent rest,
        (Orchestrator.run (sampleEnv "ops.restart" noCrypto) (sampleInit .requireApproval)
          [sampleDispatch "ops.restart" none {}, .setPolicy (defaultPolicy .deny),
            sampleApprove "alice" "restart web"]).outer.history =
          .executed 1 (.approve "approval:t1") "t1" intent (defaultPolicy .deny) :: rest :=
      ⟨_, _, rfl⟩
    obtain ⟨intent, rest, hhistory⟩ := hhistory
    intro h
    refine h 1 "approval:t1" "t1" intent (defaultPolicy .deny) (by rw [hhistory]; simp) ?_
    exact ⟨_, rfl, rfl⟩
  · have hhistory : ∃ intent rest,
        (Transition.run (MapInstance.step sampleMapEnv)
          (MapInstance.init (defaultPolicy .requireApproval) 0)
          (sampleMapRun ++ [.setPolicy (defaultPolicy .deny), .approve sampleReference])).history =
          .executed 1 (.approve sampleReference) intent (defaultPolicy .deny) :: rest :=
      ⟨_, _, rfl⟩
    obtain ⟨intent, rest, hhistory⟩ := hhistory
    intro h
    refine h 1 sampleReference intent (defaultPolicy .deny) (by rw [hhistory]; simp) ?_
    exact ⟨_, rfl, rfl⟩

end MapProtocol
