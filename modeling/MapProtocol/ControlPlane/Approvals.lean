import MapProtocol.ControlPlane.World

/-!
# Approvals

A task record does not hold the envelope it was submitted with, and an approval brings its own.
`approve` compares the capability and the target agent with the record and takes the rest from its
caller. It reads the status before it awaits the executor and writes it after, so a second approval
may pass in between. And it executes past the policy.

Each of the three is settled the same way: a guard names what the callers must do for the approval
to be sound, and a run that keeps to the guard is shown to be sound.
-/

namespace MapProtocol

open Js

namespace Orchestrator

variable {env : OrchestratorEnv} {g : Guard} {now : Millis}
variable {w w' : Runtime} {request : ApprovalRequest} {approval : Approval} {record : TaskRecord}

/-! ## What an approval executes

`approve` compares some parts of the envelope with the record and takes the others from its caller.
The condition names just those others. -/

/-- The approval executes the intent of the envelope, for the same agent and requester. -/
structure Approval.Repeats (approval : Approval) (envelope : TaskEnvelope) (cap : String) :
    Prop where
  capability  : approval.intent.capability = (mapEnvelopeToIntent envelope cap).capability
  input       : approval.intent.input = (mapEnvelopeToIntent envelope cap).input
  constraints : approval.envelope.constraints = envelope.constraints
  targetAgent : approval.envelope.targetAgent = envelope.targetAgent
  requester   : approval.envelope.requesterIdentity = envelope.requesterIdentity

/-- Every approval that went ahead repeats the dispatch that created its task. -/
def ApprovesSubmitted (w : Runtime) : Prop :=
  ∀ call approval, .approving call approval ∈ w.history → ∃ envelope capability,
    Created w.history .approval envelope capability ∧
      envelope.taskId = approval.envelope.taskId ∧ approval.Repeats envelope capability

/-- The approval brings the parts of the submitted envelope that `approve` does not compare. -/
def Approval.Resubmits (w : Runtime) (approval : Approval) : Prop :=
  ∀ envelope capability, Created w.history .approval envelope capability →
    envelope.taskId = approval.envelope.taskId →
      approval.envelope.intent = envelope.intent ∧
        approval.envelope.constraints = envelope.constraints ∧
        approval.envelope.requestedOutputMode = envelope.requestedOutputMode ∧
        approval.envelope.requesterIdentity = envelope.requesterIdentity

def resubmitting : Guard := { Guard.any with approves := Approval.Resubmits }

theorem mapIntentInput_congr {a b : TaskEnvelope} (hintent : a.intent = b.intent)
    (hconstraints : a.constraints = b.constraints)
    (hmode : a.requestedOutputMode = b.requestedOutputMode) (capability : String) :
    mapIntentInput a capability = mapIntentInput b capability := by
  unfold mapIntentInput
  rw [hintent, hconstraints, hmode]

/-- What `approve` checks and what its caller brings make up the submitted intent. -/
theorem Checked.repeats (h : Ledger env w)
    (hchecked : Checked env w.taskStore request approval record) (hsame : approval.Resubmits w) :
    ∃ envelope capability, Created w.history .approval envelope capability ∧
      envelope.taskId = approval.envelope.taskId ∧ approval.Repeats envelope capability := by
  obtain ⟨e, cap, hc, htask, hcap, hagent⟩ := hchecked.created h
  obtain ⟨hintent, hconstraints, hmode, hrequester⟩ := hsame e cap hc htask
  refine ⟨e, cap, hc, htask, ⟨hcap.symm, ?_, hconstraints, hagent.symm, hrequester⟩⟩
  show mapIntentInput approval.envelope approval.capability = mapIntentInput e cap
  rw [hcap]
  exact mapIntentInput_congr hintent hconstraints hmode _

theorem approvesSubmitted_move (hledger : Ledger env w) (h : ApprovesSubmitted w)
    (hm : Move env resubmitting now w w') : ApprovesSubmitted w' := by
  intro call approval hmem
  have hcreated : ∃ envelope capability, Created w.history .approval envelope capability ∧
      envelope.taskId = approval.envelope.taskId ∧ approval.Repeats envelope capability := by
    rcases hm.logged hmem with hold | hnew
    · exact h call approval hold
    · cases hnew with
      | approving hchecked hguard => exact hchecked.repeats hledger hguard
  obtain ⟨e, cap, hc, htask, hrepeats⟩ := hcreated
  exact ⟨e, cap, hc.mono hm.history_subset, htask, hrepeats⟩

/-- **Approvals execute what was submitted**, in every run whose approvals bring the submitted
intent text, constraints, output mode and requester. -/
theorem approvals_execute_submitted (env : OrchestratorEnv) (policy : PolicyDocument)
    (deadLetters : List DeadLetterRecord) (now : Millis) (ls : List Label)
    (hls : Transition.StepsMeet (step env) (Allowed resubmitting env)
      (init env policy deadLetters now) ls) :
    ApprovesSubmitted (run env (init env policy deadLetters now) ls).outer :=
  (run_of_moves (fun _ _ _ hledger h hm => approvesSubmitted_move hledger h hm)
    (init_worldLedger env policy deadLetters now) (by simp [ApprovesSubmitted]) hls).2

/-- The sample deployment after the sample task was submitted for approval. -/
def sampleSubmitted : World :=
  step (sampleEnv "ops.restart" noCrypto) (sampleInit .requireApproval)
    (sampleDispatch "ops.restart" none {})

theorem sampleSubmitted_history : ∃ outcome, sampleSubmitted.outer.history =
    [.answered 0 outcome,
      .created 0 .approval (sampleEnvelope "alice" "restart web" none) "ops.restart"] :=
  ⟨_, rfl⟩

theorem sampleSubmitted_created {submission : Submission} {envelope : TaskEnvelope}
    {capability : String}
    (h : Created sampleSubmitted.outer.history submission envelope capability) :
    envelope = sampleEnvelope "alice" "restart web" none ∧ capability = "ops.restart" := by
  obtain ⟨call, hmem⟩ := h
  obtain ⟨outcome, hhistory⟩ := sampleSubmitted_history
  rw [hhistory] at hmem
  simp only [List.mem_cons, Event.created.injEq, reduceCtorEq, List.not_mem_nil, or_false,
    false_or] at hmem
  exact ⟨hmem.2.2.1, hmem.2.2.2⟩

theorem sampleApprove_checked : ∃ negotiation,
    checkApproval (sampleEnv "ops.restart" noCrypto) sampleSubmitted.outer.taskStore
      ⟨"t1", "approval:t1", "ops.restart", sampleEnvelope "alice" "restart web" none, none, none⟩ =
        .ok ⟨sampleEnvelope "alice" "restart web" none, "ops.restart", negotiation,
          "approval:t1"⟩ :=
  ⟨_, rfl⟩

/-- The sample task is submitted, approved as submitted, and executed. -/
theorem approvals_execute_submitted_sample : ApprovesSubmitted
    (run (sampleEnv "ops.restart" noCrypto) (sampleInit .requireApproval)
      [sampleDispatch "ops.restart" none {}, sampleApprove "alice" "restart web",
        .resume 1 (.ok sampleResult) {}]).outer := by
  refine approvals_execute_submitted _ _ _ _ _ ⟨?_, ?_, ?_, trivial⟩
  · exact fun _ _ _ _ => trivial
  · intro approval hcheck envelope capability hcreated _
    obtain ⟨rfl, rfl⟩ := sampleSubmitted_created hcreated
    obtain ⟨negotiation, hchecked⟩ := sampleApprove_checked
    obtain rfl := Except.ok.inj (hchecked.symm.trans hcheck)
    exact ⟨rfl, rfl, rfl, rfl⟩
  · exact fun _ _ _ _ => trivial

/-- An approval by another requester, of another intent, goes ahead. -/
theorem approval_of_unsubmitted_intent : ¬ ApprovesSubmitted
    (run (sampleEnv "ops.restart" noCrypto) (sampleInit .requireApproval)
      [sampleDispatch "ops.restart" none {}, sampleApprove "mallory" "restart all"]).outer := by
  have hhistory : ∃ executed negotiation outcome,
      (run (sampleEnv "ops.restart" noCrypto) (sampleInit .requireApproval)
        [sampleDispatch "ops.restart" none {},
          sampleApprove "mallory" "restart all"]).outer.history =
        [executed, .approving 1 ⟨sampleEnvelope "mallory" "restart all" none, "ops.restart",
          negotiation, "approval:t1"⟩, .answered 0 outcome,
          .created 0 .approval (sampleEnvelope "alice" "restart web" none) "ops.restart"] ∧
        isCreation executed = false :=
    ⟨_, _, _, rfl, rfl⟩
  obtain ⟨executed, negotiation, outcome, hhistory, hexecuted⟩ := hhistory
  intro h
  obtain ⟨envelope, capability, ⟨call, hc⟩, _, hrepeats⟩ := h 1
    ⟨sampleEnvelope "mallory" "restart all" none, "ops.restart", negotiation, "approval:t1"⟩
    (by rw [hhistory]; simp)
  rw [hhistory] at hc
  have henvelope : envelope = sampleEnvelope "alice" "restart web" none := by
    rcases List.mem_cons.mp hc with rfl | hc
    · cases hexecuted
    · simp only [List.mem_cons, Event.created.injEq, reduceCtorEq, List.not_mem_nil, or_false,
        false_or] at hc
      exact hc.2.2.1
  rw [henvelope] at hrepeats
  -- another requester than the one who submitted
  have hrequester : (sampleEnvelope "mallory" "restart all" none).requesterIdentity =
      (sampleEnvelope "alice" "restart web" none).requesterIdentity := hrepeats.requester
  exact absurd hrequester (by decide)

/-! ## How often an approval executes

The invariant follows the status: before the first execution a task awaits approval, and after a
result that was saved it does so no more. In between a second approval finds it waiting still. -/

def isExecutionOf (t : String) : Event → Bool
  | .executed _ _ taskId _ _ => taskId == t
  | _                        => false

def isCancellationOf (t : String) : Event → Bool
  | .cancelled taskId _ _ => taskId == t
  | _                     => false

/-- The adapter was started on the task once at most, and not after a cancellation of the task. -/
structure ExecutedOnce (history : List Event) (t : String) : Prop where
  once            : history.countP (isExecutionOf t) ≤ 1
  notWhenCancelled : history.Pairwise fun later earlier =>
    isExecutionOf t later = true → isCancellationOf t earlier = false

/-- Every earlier execution of the task has been answered with a result. -/
def Approval.Settled (w : Runtime) (approval : Approval) : Prop :=
  ∀ call origin intent policy,
    .executed call origin approval.envelope.taskId intent policy ∈ w.history →
      ∃ status receiptId,
        .returned call origin approval.envelope.taskId status receiptId ∈ w.history

def oneByOne : Guard := { Guard.any with approves := Approval.Settled }

theorem ExecutedOnce.append {history events : List Event} {t : String}
    (h : ExecutedOnce history t) (hnew : ∀ event ∈ events, isExecutionOf t event = false) :
    ExecutedOnce (events ++ history) t := by
  have hnone : events.countP (isExecutionOf t) = 0 := by
    rw [List.countP_eq_zero]
    intro event hevent
    rw [hnew event hevent]
    exact Bool.false_ne_true
  constructor
  · rw [List.countP_append, hnone, Nat.zero_add]
    exact h.once
  · rw [List.pairwise_append]
    refine ⟨?_, h.notWhenCancelled, ?_⟩
    · refine List.pairwise_of_forall_mem_list fun later hlater earlier _ hexecution => ?_
      rw [hnew later hlater] at hexecution
      cases hexecution
    · intro later hlater earlier _ hexecution
      rw [hnew later hlater] at hexecution
      cases hexecution

/-- The first execution of a task that was not cancelled. -/
theorem ExecutedOnce.first {history events : List Event} {t : String}
    (hnone : ∀ event ∈ history, isExecutionOf t event = false)
    (hlive : ∀ event ∈ history, isCancellationOf t event = false)
    (hone : ∀ event ∈ events.tail, ∃ call approval, event = .approving call approval) :
    ExecutedOnce (events ++ history) t := by
  have htail : ∀ event ∈ events.tail ++ history,
      isExecutionOf t event = false ∧ isCancellationOf t event = false := by
    intro event hevent
    rcases List.mem_append.mp hevent with hnote | hold
    · obtain ⟨call, approval, rfl⟩ := hone event hnote
      exact ⟨rfl, rfl⟩
    · exact ⟨hnone event hold, hlive event hold⟩
  have hempty : ExecutedOnce [] t := ⟨Nat.zero_le _, List.Pairwise.nil⟩
  have hrest : ExecutedOnce (events.tail ++ history) t := by
    have happend : ExecutedOnce ((events.tail ++ history) ++ []) t :=
      hempty.append fun e he => (htail e he).1
    rwa [List.append_nil] at happend
  cases events with
  | nil => exact hrest
  | cons event rest =>
      have hcount : (rest ++ history).countP (isExecutionOf t) = 0 := by
        rw [List.countP_eq_zero]
        intro e he
        rw [(htail e he).1]
        exact Bool.false_ne_true
      constructor
      · rw [List.cons_append, List.countP_cons, hcount]
        split <;> decide
      · rw [List.cons_append, List.pairwise_cons]
        exact ⟨fun e he _ => (htail e he).2, hrest.notWhenCancelled⟩

/-- The invariant that carries `ExecutedOnce` over a run. -/
structure ApprovalsOnce (w : Runtime) : Prop where
  settled : ReturnedOver w
  revoked : CancelledRevoked w
  once    : ∀ t, (∀ submission envelope capability, Created w.history submission envelope capability →
    envelope.taskId = t → submission = .approval) → ExecutedOnce w.history t

/-- A task that awaits approval has not been executed, if its earlier executions have returned, and
has not been cancelled. -/
theorem ApprovalsOnce.untouched (h : ApprovalsOnce w)
    (hchecked : Checked env w.taskStore request approval record) (hsettled : approval.Settled w) :
    (∀ event ∈ w.history, isExecutionOf approval.envelope.taskId event = false) ∧
      ∀ event ∈ w.history, isCancellationOf approval.envelope.taskId event = false := by
  constructor
  · intro event hevent
    by_contra hexecution
    cases event with
    | executed call origin taskId intent policy =>
        obtain rfl : taskId = approval.envelope.taskId := by simpa [isExecutionOf] using hexecution
        -- the earlier execution is over, so its task is at an end
        obtain ⟨status, receiptId, hreturned⟩ := hsettled call origin intent policy hevent
        obtain ⟨old, hget, hterminal⟩ := h.settled _ _ _ _ _ hreturned
        rw [hchecked.found] at hget
        cases hget
        rw [hchecked.status] at hterminal
        cases hterminal
    | _ => exact hexecution rfl
  · intro event hevent
    by_contra hcancellation
    cases event with
    | cancelled taskId queued outcome =>
        obtain rfl : taskId = approval.envelope.taskId := by
          simpa [isCancellationOf] using hcancellation
        obtain ⟨old, hget, hrevoked⟩ := h.revoked _ _ _ hevent
        rw [hchecked.found] at hget
        cases hget
        rw [hchecked.status] at hrevoked
        cases hrevoked
    | _ => exact hcancellation rfl

theorem approvalsOnce_move (hledger : Ledger env w) (h : ApprovalsOnce w)
    (hm : Move env oneByOne now w w') : ApprovalsOnce w' := by
  refine ⟨returnedOver_move hledger h.settled hm, cancelledRevoked_move hledger h.revoked hm, ?_⟩
  intro t happroval
  have honce := h.once t fun k e cap hc => happroval k e cap (hc.mono hm.history_subset)
  obtain ⟨events, hlogs⟩ := hm.logs
  rw [hlogs.history]
  by_cases hexecutes : ∃ event ∈ events, isExecutionOf t event = true
  · -- only an approval executes a task that was created for one
    obtain ⟨event, hevent, hexecution⟩ := hexecutes
    cases hlogs.logged event hevent with
    | @executed _ origin _ _ _ _ horigin hc htask =>
        obtain rfl := by simpa [isExecutionOf] using hexecution
        have hsubmission := happroval _ _ _ (hc.mono hm.history_subset) htask
        cases origin with
        | dispatch => cases hsubmission
        | job id => cases hsubmission
        | approve reference => exact absurd rfl (horigin reference)
    | approved hchecked hguard =>
        obtain rfl := by simpa [isExecutionOf] using hexecution
        obtain ⟨hnone, hlive⟩ := h.untouched hchecked hguard
        exact .first hnone hlive hlogs.one
    | _ => cases hexecution
  · refine honce.append fun event hevent => ?_
    by_contra hexecution
    exact hexecutes ⟨event, hevent, by simpa using hexecution⟩

/-- **An approval executes once**, and not after a cancellation, in every run whose approvals come
only after every earlier execution of the task has returned. -/
theorem approval_executes_once (env : OrchestratorEnv) (policy : PolicyDocument)
    (deadLetters : List DeadLetterRecord) (now : Millis) (ls : List Label)
    (hls : Transition.StepsMeet (step env) (Allowed oneByOne env)
      (init env policy deadLetters now) ls) :
    ∀ envelope capability,
      Created (run env (init env policy deadLetters now) ls).outer.history .approval envelope
        capability →
      ExecutedOnce (run env (init env policy deadLetters now) ls).outer.history
        envelope.taskId := by
  have hinit : ApprovalsOnce (init env policy deadLetters now).outer :=
    ⟨by simp [ReturnedOver], by simp [CancelledRevoked], fun _ _ =>
      ⟨Nat.zero_le _, List.Pairwise.nil⟩⟩
  obtain ⟨hledger, h⟩ := run_of_moves (I := ApprovalsOnce)
    (fun _ _ _ hledger h hm => approvalsOnce_move hledger h hm)
    (init_worldLedger env policy deadLetters now) hinit hls
  intro envelope capability hcreated
  refine h.once _ fun k e cap hc htask => ?_
  exact (hledger.ledger.created_unique hc hcreated htask).1

theorem sampleApprove_settled (htask : request.taskId = "t1")
    (hnone : w.history.countP (isExecutionOf "t1") = 0)
    (h : checkApproval (sampleEnv "ops.restart" noCrypto) w.taskStore request = .ok approval) :
    approval.Settled w := by
  obtain ⟨record, hchecked⟩ := checkApproval_eq_ok h
  intro call origin intent policy hexecuted
  have hid : approval.envelope.taskId = "t1" := hchecked.task.symm.trans htask
  exact absurd (by simp [isExecutionOf, hid]) (List.countP_eq_zero.mp hnone _ hexecuted)

/-- The sample task is approved, its adapter answers, and a second approval is refused. -/
theorem approval_executes_once_sample :
    ExecutedOnce (run (sampleEnv "ops.restart" noCrypto) (sampleInit .requireApproval)
      [sampleDispatch "ops.restart" none {}, sampleApprove "alice" "restart web",
        .resume 1 (.ok sampleResult) {}, sampleApprove "alice" "restart web"]).outer.history
      "t1" := by
  refine approval_executes_once _ _ _ _ _ ?_ (sampleEnvelope "alice" "restart web" none)
    "ops.restart" ⟨0, List.mem_of_getLast? rfl⟩
  refine ⟨?_, ?_, ?_, ?_, trivial⟩
  · exact fun _ _ _ _ => trivial
  · exact fun approval hcheck => sampleApprove_settled rfl (by decide +kernel) hcheck
  · exact fun _ _ _ _ => trivial
  · intro approval hcheck
    have hrefused : (checkApproval (sampleEnv "ops.restart" noCrypto)
        (run (sampleEnv "ops.restart" noCrypto) (sampleInit .requireApproval)
          [sampleDispatch "ops.restart" none {}, sampleApprove "alice" "restart web",
            .resume 1 (.ok sampleResult) {}]).outer.taskStore
        ⟨"t1", "approval:t1", "ops.restart", sampleEnvelope "alice" "restart web" none, none,
          none⟩).isOk = false := by decide +kernel
    cases hrefused.symm.trans (congrArg Except.isOk hcheck)

/-- The sample task is submitted and approved, and approved again before the executor answers. -/
def overlappingApprovals : List Label :=
  [sampleDispatch "ops.restart" none {}, sampleApprove "alice" "restart web",
    sampleApprove "alice" "restart web"]

/-- The event puts the task `t` on record, to await its approval. -/
def isApprovalOf (t : String) : Event → Bool
  | .created _ .approval envelope _ => envelope.taskId == t
  | _                               => false

/-- Both approvals execute. -/
theorem approval_executes_twice : ¬ ∀ envelope capability,
    Created (run (sampleEnv "ops.restart" noCrypto) (sampleInit .requireApproval)
      overlappingApprovals).outer.history .approval envelope capability →
    ExecutedOnce (run (sampleEnv "ops.restart" noCrypto) (sampleInit .requireApproval)
      overlappingApprovals).outer.history envelope.taskId := by
  intro h
  have hcreates : (run (sampleEnv "ops.restart" noCrypto) (sampleInit .requireApproval)
      overlappingApprovals).outer.history.any (isApprovalOf "t1") = true := by decide +kernel
  have hcount : (run (sampleEnv "ops.restart" noCrypto) (sampleInit .requireApproval)
      overlappingApprovals).outer.history.countP (isExecutionOf "t1") = 2 := by decide +kernel
  obtain ⟨event, hevent, hcreation⟩ := List.any_eq_true.mp hcreates
  unfold isApprovalOf at hcreation
  split at hcreation
  · rename_i call envelope capability
    have honce := (h envelope capability ⟨call, hevent⟩).once
    rw [show envelope.taskId = "t1" by simpa using hcreation, hcount] at honce
    exact absurd honce (by decide)
  · cases hcreation

/-! ## The policy at an approval

`approve` does not ask the policy again. It stays within it as long as no policy is installed that
denies what is waiting. -/

/-- The policy evaluates the intent to `deny`. -/
def Denies (regExp : RegExpEngine) (policy : PolicyDocument) (intent : Intent) : Prop :=
  ∃ decision, evaluate regExp intent policy = .ok decision ∧ decision.action = .deny

/-- No approval executed an intent that the policy then in force denies. -/
def ApprovesWithinPolicy (env : OrchestratorEnv) (w : Runtime) : Prop :=
  ∀ call reference t intent policy,
    .executed call (.approve reference) t intent policy ∈ w.history → ¬ Denies env.regExp policy intent

/-- The policy does not deny what awaits approval. -/
def SparesWaiting (env : OrchestratorEnv) (w : Runtime) (policy : PolicyDocument) : Prop :=
  ∀ envelope capability record, Created w.history .approval envelope capability →
    w.taskStore.get envelope.taskId = some record → record.status = .awaitingApproval →
      ¬ Denies env.regExp policy (normalizeIntent (mapEnvelopeToIntent envelope capability))

/-- The approval brings the submitted intent. -/
def Approval.SameIntent (w : Runtime) (approval : Approval) : Prop :=
  ∀ envelope capability, Created w.history .approval envelope capability →
    envelope.taskId = approval.envelope.taskId →
      approval.intent = mapEnvelopeToIntent envelope capability

/-- Policies spare what awaits approval, and approvals bring what was submitted. -/
def sparing (env : OrchestratorEnv) : Guard :=
  { Guard.any with approves := Approval.SameIntent, sets := SparesWaiting env }

/-- A task submitted for approval is not denied by the policy that submitted it. -/
theorem Planned.not_denied {policy : PolicyDocument} {store : TaskStore} {uuid : Nat}
    {request : DispatchRequest} {submission : Submission} {ready : Ready} {submitted : InvokeResult}
    (hp : Planned env policy store now uuid request submission ready submitted) :
    ¬ Denies env.regExp policy
      (normalizeIntent (mapEnvelopeToIntent ready.envelope ready.capability)) := by
  rintro ⟨decision, hdecision, hdeny⟩
  obtain ⟨decided, hdecided, haction⟩ := evaluatePolicy_eq_ok hp.decided
  rw [hdecided] at hdecision
  cases hdecision
  exact hp.allowed (haction ▸ hdeny)

/-- A task that awaits approval after a move awaited it before. -/
theorem Move.awaited (hledger : Ledger env w) (hm : Move env g now w w') {envelope : TaskEnvelope}
    {capability : String} (hcreated : Created w.history .approval envelope capability)
    (hget : w'.taskStore.get envelope.taskId = some record)
    (hstatus : record.status = .awaitingApproval) :
    ∃ old, w.taskStore.get envelope.taskId = some old ∧ old.status = .awaitingApproval := by
  obtain ⟨old, hold⟩ := hledger.onRecord _ _ _ hcreated
  refine ⟨old, hold, ?_⟩
  cases hterminal : isTerminal old.status with
  | true =>
      obtain ⟨record', hget', hsame⟩ := hm.keeps_terminal hledger hold hterminal
      rw [hget] at hget'
      cases hget'
      rw [← hsame, hstatus] at hterminal
      cases hterminal
  | false =>
      obtain ⟨k, e, cap, hc, htask, hinit⟩ := hledger.live_status hold hterminal
      obtain ⟨rfl, _, _⟩ := hledger.created_unique hc hcreated htask
      exact hinit

theorem Move.policy_cases (hm : Move env g now w w') :
    w'.policy = w.policy ∨
      (g.sets w w'.policy ∧ w'.history = w.history ∧ w'.taskStore = w.taskStore) := by
  cases hm with
  | bookkeeping hpolicy => exact .inl hpolicy
  | policySet hguard => exact .inr ⟨hguard, rfl, rfl⟩
  | _ => exact .inl rfl

theorem sparesWaiting_move (hledger : Ledger env w) (h : SparesWaiting env w w.policy)
    (hm : Move env (sparing env) now w w') :
    SparesWaiting env w' w'.policy := by
  rcases hm.policy_cases with hpolicy | ⟨hsets, hhistory, htasks⟩
  · rw [hpolicy]
    rintro envelope capability record ⟨call, hcreated⟩ hget hstatus
    rcases hm.logged hcreated with hold | hnew
    · obtain ⟨old, hold', hstatus'⟩ := hm.awaited hledger ⟨call, hold⟩ hget hstatus
      exact h envelope capability old ⟨call, hold⟩ hold' hstatus'
    · cases hnew with
      | created hplanned => exact hplanned.not_denied
  · unfold SparesWaiting
    rw [hhistory, htasks]
    exact hsets

theorem approvesWithinPolicy_move (hledger : Ledger env w) (hspares : SparesWaiting env w w.policy)
    (h : ApprovesWithinPolicy env w) (hm : Move env (sparing env) now w w') :
    ApprovesWithinPolicy env w' := by
  intro call reference t intent policy hmem
  rcases hm.logged hmem with hold | hnew
  · exact h _ _ _ _ _ hold
  · cases hnew with
    | executed horigin => exact absurd rfl (horigin reference)
    | approved hchecked hguard hinvocation =>
        obtain ⟨e, cap, hc, htask, _, _⟩ := hchecked.created hledger
        rw [executeApproved_adapter hinvocation, hguard e cap hc htask]
        exact hspares e cap _ hc (htask ▸ hchecked.found) hchecked.status

/-- **Approvals stay within the policy in force**, in every run in which no policy is installed that
denies a task awaiting approval, and approvals bring the submitted intent. -/
theorem approvals_within_policy (env : OrchestratorEnv) (policy : PolicyDocument)
    (deadLetters : List DeadLetterRecord) (now : Millis) (ls : List Label)
    (hls : Transition.StepsMeet (step env) (Allowed (sparing env) env)
      (init env policy deadLetters now) ls) :
    ApprovesWithinPolicy env (run env (init env policy deadLetters now) ls).outer := by
  have hinit : SparesWaiting env (init env policy deadLetters now).outer policy ∧
      ApprovesWithinPolicy env (init env policy deadLetters now).outer :=
    ⟨by simp [SparesWaiting], by simp [ApprovesWithinPolicy]⟩
  exact (run_of_moves (I := fun w => SparesWaiting env w w.policy ∧ ApprovesWithinPolicy env w)
    (fun _ _ _ hledger h hm => ⟨sparesWaiting_move hledger h.1 hm,
      approvesWithinPolicy_move hledger h.1 h.2 hm⟩)
    (init_worldLedger env policy deadLetters now) hinit hls).2.2

end Orchestrator

end MapProtocol
