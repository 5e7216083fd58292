import MapProtocol.ControlPlane.World

/-!
# Where receipts come from

A receipt that a runtime keeps, in its receipt store or on a task record, was issued by one of four
writes. `Issued` lists them, so that what holds of every issued receipt holds of every kept one.

The first use is the truth of receipts. The receipts of `accepted`, `running` and `dead_lettered`
are classified by a text made of the capability and the stage, and read `executed` and `ok` unless
that text happens to contain another word: they say of a task that it was executed when it was not.
-/

namespace MapProtocol

open Js

namespace Orchestrator

variable {env : OrchestratorEnv} {g : Guard} {now : Millis}
variable {w w' : Runtime} {receipt : ExecutionReceipt}

/-! ## Kept and issued receipts -/

/-- The receipt is in the receipt store or on a task record. -/
def Kept (w : Runtime) (receipt : ExecutionReceipt) : Prop :=
  (∃ id, w.receiptStore.get id = some receipt) ∨
    ∃ t record, w.taskStore.get t = some record ∧ record.receipt = some receipt

/-- **The writes that issue a receipt**, from a runtime `w` to a runtime `w'`, with what had been
established before. -/
inductive Issued (env : OrchestratorEnv) (g : Guard) (now : Millis) (w w' : Runtime) :
    ExecutionReceipt → Prop
  | submitted {uuid : Nat} {request : DispatchRequest} {submission : Submission} {ready : Ready}
      {submitted : InvokeResult}
      (hplanned : Planned env w.policy w.taskStore now uuid request submission ready submitted)
      (huuid : uuid + 1 < w.nextUuid) (hguard : g.submits submission ready) :
      Issued env g now w w' submitted.receipt
  | settled {call : Call} {coreResult : CoreResult} {outcome : Except Rejection ExecutionResult}
      {normalized : InvokeResult} {record : TaskRecord} (hcall : call ∈ w.calls)
      (hanswer : settledAnswer call.invocation outcome = .ok coreResult)
      (hguard : g.completes w call coreResult)
      (hnormalized : normalizeCoreResult env now w.nextUuid coreResult call.envelope
        call.capability call.negotiation = .ok normalized)
      (hget : w.taskStore.get call.envelope.taskId = some record)
      (haccepts : Accepts record (Origin.stamp call.origin normalized))
      (hhistory : w'.history = returnedEvents env now w.nextUuid call coreResult ++ w.history) :
      Issued env g now w w' (Origin.stamp call.origin normalized).receipt
  | deadLettered {ready : Ready} {uuid : Nat} {receipt : ExecutionReceipt}
      (hcreated : Created w.history .async ready.envelope ready.capability)
      (hreceipt : ready.stageReceipt env now uuid "dead_lettered" = .ok receipt)
      (huuid : uuid < w.nextUuid) : Issued env g now w w' receipt
  | cancelled {taskId : String} {tenantId : Option String} {outcome : InvokeResult}
      {record : TaskRecord}
      (hcancellable : Cancellable env w.taskStore now taskId tenantId outcome record) :
      Issued env g now w w' outcome.receipt

/-- A kept receipt was kept before an outcome was written, or is the outcome's. -/
theorem kept_of_update (h : Kept w' receipt) {fault : Option String} {t : String}
    {outcome : InvokeResult}
    (htasks : w'.taskStore = (w.taskStore.update now fault t (outcomeUpdate outcome)).2)
    (hreceipts : w'.receiptStore = w.receiptStore) :
    Kept w receipt ∨ (receipt = outcome.receipt ∧
      ∃ record, w.taskStore.get t = some record ∧ Accepts record outcome) := by
  rcases h with ⟨id, hid⟩ | ⟨t', record, hget, hreceipt⟩
  · exact .inl (.inl ⟨id, hreceipts ▸ hid⟩)
  · rw [htasks] at hget
    rcases get_update_outcome hget with hold | ⟨old, rfl, hold, haccepts, rfl⟩
    · exact .inl (.inr ⟨t', record, hold, hreceipt⟩)
    · exact .inr ⟨(Option.some.inj hreceipt).symm, old, hold, haccepts⟩

/-- A kept receipt was kept before an append, or is the one appended. -/
theorem kept_of_append (h : Kept w' receipt) {fault : Option String} {appended : ExecutionReceipt}
    (htasks : w'.taskStore.tasks = w.taskStore.tasks)
    (hreceipts : w'.receiptStore = (w.receiptStore.append fault appended).2) :
    Kept w receipt ∨ receipt = appended := by
  rcases h with ⟨id, hid⟩ | ⟨t, record, hget, hreceipt⟩
  · rw [hreceipts] at hid
    rcases ReceiptStore.get_append hid with rfl | hold
    · exact .inr rfl
    · exact .inl (.inl ⟨id, hold⟩)
  · refine .inl (.inr ⟨t, record, ?_, hreceipt⟩)
    unfold TaskStore.get at hget ⊢
    rw [← htasks]
    exact hget

/-- **Every receipt that a move adds was issued.** -/
theorem Move.kept (hm : Move env g now w w') (h : Kept w' receipt) :
    Kept w receipt ∨ Issued env g now w w' receipt := by
  cases hm with
  | bookkeeping _ _ htasks hreceipts =>
      unfold Kept at h
      rw [htasks, hreceipts] at h
      exact .inl h
  | created hplanned _ huuid hguard =>
      rcases h with hid | ⟨t, record, hget, hreceipt⟩
      · exact .inl (.inl hid)
      · have hget' : (w.taskStore.insert _).get t = some record := hget
        rw [TaskStore.get_insert] at hget'
        split at hget'
        · cases hget'
          cases hreceipt
          exact .inr (.submitted hplanned huuid hguard)
        · exact .inl (.inr ⟨t, record, hget', hreceipt⟩)
  | appended hget hreceipt =>
      rcases kept_of_append (w := w) h rfl rfl with hold | rfl
      · exact .inl hold
      · exact .inl (.inr ⟨_, _, hget, hreceipt⟩)
  | withdrawn hplanned huuid hguard htasks =>
      rcases kept_of_append (w := w) h htasks rfl with hold | rfl
      · exact .inl hold
      · exact .inr (.submitted hplanned huuid hguard)
  | settled hcall hanswer hguard _ hnormalized =>
      rcases kept_of_update (w := w) h rfl rfl with hold | ⟨rfl, record, hget, haccepts⟩
      · exact .inl hold
      · exact .inr (.settled hcall hanswer hguard hnormalized hget haccepts rfl)
  | deadLettered hcreated hreceipt huuid =>
      rcases kept_of_update (w := w) h rfl rfl with hold | ⟨rfl, _⟩
      · exact .inl hold
      · exact .inr (.deadLettered hcreated hreceipt huuid)
  | cancelled hcancellable =>
      rcases kept_of_update (w := w) h rfl rfl with hold | ⟨rfl, _⟩
      · exact .inl hold
      · exact .inr (.cancelled hcancellable)
  | threw => exact .inl h
  | answered => exact .inl h
  | suspended => exact .inl h
  | approved => exact .inl h
  | policySet => exact .inl h

/-! ## What stamping keeps -/

@[simp] theorem Origin.stamp_receipt_action (origin : Origin) (outcome : InvokeResult) :
    (Origin.stamp origin outcome).receipt.action = outcome.receipt.action := by
  cases origin <;> rfl

@[simp] theorem Origin.stamp_receipt_status (origin : Origin) (outcome : InvokeResult) :
    (Origin.stamp origin outcome).receipt.status = outcome.receipt.status := by
  cases origin <;> rfl

/-! ## True receipts -/

/-- The receipt's task was executed, and its adapter returned without an error. -/
def Backed (history : List Event) (receipt : ExecutionReceipt) : Prop :=
  ∃ t call origin receiptId, receipt.taskId = some t ∧
    .returned call origin t .ok receiptId ∈ history ∧
      ∃ intent policy, .executed call origin t intent policy ∈ history

/-- Every kept receipt that says `executed` and `ok` says so of a task that was. -/
def Truthful (w : Runtime) : Prop :=
  ∀ receipt, Kept w receipt → receipt.action = .executed → receipt.status = .ok →
    Backed w.history receipt

/-- The capability's name holds a word that keeps its stages from being classified as executed. -/
def MarksStage (capability : String) : Prop :=
  includes capability "approval_required" = true ∨ includes capability "denied" = true ∨
    includes capability "cancelled" = true

/-- Only tasks that need approval or have a marked capability are submitted. -/
def marking : Guard :=
  { Guard.any with submits := fun submission ready =>
      submission = .approval ∨ MarksStage ready.capability }

theorem coreAction_of_marked {capability text : String} (h : MarksStage capability) :
    coreAction (capability ++ text) ≠ .executed := by
  unfold coreAction
  split
  · simp
  · rename_i hrequired
    rcases h with hmark | hmark | hmark
    · exact absurd (includes_append_left hmark) hrequired
    · simp [includes_append_left hmark]
    · simp [includes_append_left hmark]

theorem coreAction_approvalRequired (capability : String) :
    coreAction (capability ++ "." ++ "approval_required") ≠ .executed := by
  have hincludes : includes "approval_required" "approval_required" = true := by decide
  unfold coreAction
  rw [if_pos (includes_append_right hincludes)]
  simp

theorem stageReceipt_action {ready : Ready} {uuid : Nat} {stage : String}
    (h : ready.stageReceipt env now uuid stage = .ok receipt) :
    receipt.action = coreAction (ready.capability ++ "." ++ stage) :=
  congrArg UnsignedReceipt.action (stageReceipt_eq_ok h)

/-- The invariant that carries the truth of receipts over a run. -/
structure Marked (w : Runtime) : Prop where
  truthful : Truthful w
  marked   : ∀ envelope capability, Created w.history .async envelope capability →
    MarksStage capability

theorem Backed.mono {h h' : List Event} (hsub : h ⊆ h') (hb : Backed h receipt) :
    Backed h' receipt := by
  obtain ⟨t, call, origin, receiptId, htask, hreturned, intent, policy, hexecuted⟩ := hb
  exact ⟨t, call, origin, receiptId, htask, hsub hreturned, intent, policy, hsub hexecuted⟩

/-- The receipt of an adapter's answer is backed by it. -/
theorem backed_of_settled {w w' : Runtime} (hledger : Ledger env w) {call : Call}
    (hcall : call ∈ w.calls) {coreResult : CoreResult}
    {outcome : Except Rejection ExecutionResult} {normalized : InvokeResult}
    (hanswer : settledAnswer call.invocation outcome = .ok coreResult)
    (hnormalized : normalizeCoreResult env now w.nextUuid coreResult call.envelope
      call.capability call.negotiation = .ok normalized)
    (hhistory : w'.history = returnedEvents env now w.nextUuid call coreResult ++ w.history)
    (haction : normalized.receipt.action = .executed) (hstatus : normalized.receipt.status = .ok) :
    Backed w'.history (Origin.stamp call.origin normalized).receipt := by
  have hunsigned := (sign_eq_ok.mp (normalizeCoreResult_eq_ok.mp hnormalized).2).1
  have hknown := (hledger.calls call hcall).1
  cases coreResult with
  | receipt receipt =>
      -- the core's receipts never say `executed`
      have hdenied := (hknown.refused receipt (settledAnswer_receipt hanswer)).2
      exact absurd ((congrArg UnsignedReceipt.action hunsigned).symm.trans haction) hdenied
  | result execResult =>
      obtain ⟨intent, context, hadapter⟩ := settledAnswer_result hanswer
      obtain ⟨policy, hexecuted⟩ := hknown.executed intent context hadapter
      have hok : execResult.status = .ok :=
        (congrArg UnsignedReceipt.status hunsigned).symm.trans hstatus
      rw [hhistory]
      refine ⟨call.envelope.taskId, call.id, call.origin,
        freshReceiptId env now w.nextUuid call.envelope.taskId, ?_, ?_, intent, policy,
        List.mem_append_right _ hexecuted⟩
      · rw [Origin.stamp_receipt_taskId]
        exact congrArg UnsignedReceipt.taskId hunsigned
      · rw [← hok]
        exact List.mem_cons_self

theorem marked_move (hledger : Ledger env w) (h : Marked w) (hm : Move env marking now w w') :
    Marked w' := by
  constructor
  · intro receipt hkept haction hstatus
    rcases hm.kept hkept with hold | hissued
    · exact (h.truthful receipt hold haction hstatus).mono hm.history_subset
    · cases hissued with
      | @submitted _ _ submission ready _ hplanned _ hguard =>
          rw [stageReceipt_action hplanned.receipt] at haction
          -- a receipt that waits for an approval never says executed, nor does one of a marked
          -- capability
          rcases hguard with rfl | hmarks
          · exact absurd haction (coreAction_approvalRequired _)
          · rw [String.append_assoc] at haction
            exact absurd haction (coreAction_of_marked hmarks)
      | settled hcall hanswer _ hnormalized _ _ hhistory =>
          rw [Origin.stamp_receipt_action] at haction
          rw [Origin.stamp_receipt_status] at hstatus
          exact backed_of_settled hledger hcall hanswer hnormalized hhistory haction hstatus
      | deadLettered hcreated hreceipt =>
          rw [stageReceipt_action hreceipt, String.append_assoc] at haction
          exact absurd haction (coreAction_of_marked (h.marked _ _ hcreated))
      | cancelled hcancellable =>
          obtain ⟨_, _, _, _, hsign⟩ := hcancellable.receipt
          -- a cancellation is signed as denied
          have hdenied := congrArg UnsignedReceipt.action (sign_eq_ok.mp hsign).1
          rw [hdenied] at haction
          cases haction
  · rintro envelope capability ⟨call, hcreated⟩
    rcases hm.logged hcreated with hold | hnew
    · exact h.marked envelope capability ⟨call, hold⟩
    · cases hnew with
      | created hplanned hguard =>
          rcases hguard with hsubmission | hmarks
          · cases hsubmission
          · exact hmarks

/-- **Receipts are truthful** in every run that submits only tasks that need approval or whose
capability is marked. -/
theorem receipts_truthful (env : OrchestratorEnv) (policy : PolicyDocument)
    (deadLetters : List DeadLetterRecord) (now : Millis) (ls : List Label)
    (hls : Transition.StepsMeet (step env) (Allowed marking env)
      (init env policy deadLetters now) ls) :
    Truthful (run env (init env policy deadLetters now) ls).outer := by
  have hinit : Marked (init env policy deadLetters now).outer := by
    refine ⟨?_, by simp [Created]⟩
    rintro receipt (⟨id, hid⟩ | ⟨t, record, hget, _⟩)
    · cases hid
    · cases hget
  exact (run_of_moves (fun _ _ _ hledger h hm => marked_move hledger h hm)
    (init_worldLedger env policy deadLetters now) hinit hls).2.truthful

/-- The sample task is submitted for approval, approved and executed. -/
theorem receipts_truthful_sample : Truthful
    (run (sampleEnv "ops.restart" noCrypto) (sampleInit .requireApproval)
      [sampleDispatch "ops.restart" none {}, sampleApprove "alice" "restart web",
        .resume 1 (.ok sampleResult) {}]).outer := by
  refine receipts_truthful _ _ _ _ _ ⟨?_, ?_, ?_, trivial⟩
  · intro submission ready submitted hplan
    have hsample : ∃ ready submitted, planDispatch (sampleEnv "ops.restart" noCrypto)
        (sampleInit .requireApproval).outer.policy (sampleInit .requireApproval).outer.taskStore 0
        true 0 ⟨sampleEnvelope "alice" "restart web" none, "ops.restart", none, none⟩ =
          .ok (.submit .approval ready submitted) := ⟨_, _, rfl⟩
    obtain ⟨_, _, hsample⟩ := hsample
    cases hsample.symm.trans hplan
    exact .inl rfl
  · exact fun _ _ => trivial
  · exact fun _ _ _ _ => trivial

def isReturn : Event → Bool
  | .returned _ _ _ _ _ => true
  | _                   => false

/-- The sample task is accepted, its adapter has not returned, and its receipt says `executed`. -/
theorem accepted_says_executed : ¬ Truthful
    (run (sampleEnv "ops.restart" noCrypto) (sampleInit .allow)
      [sampleDispatch "ops.restart" none {}]).outer := by
  have hreceipt : ∃ record receipt,
      (run (sampleEnv "ops.restart" noCrypto) (sampleInit .allow)
        [sampleDispatch "ops.restart" none {}]).outer.taskStore.get "t1" = some record ∧
        record.receipt = some receipt ∧ receipt.action = .executed ∧ receipt.status = .ok :=
    ⟨_, _, rfl, rfl, rfl, rfl⟩
  have hreturns : (run (sampleEnv "ops.restart" noCrypto) (sampleInit .allow)
      [sampleDispatch "ops.restart" none {}]).outer.history.all (fun e => !isReturn e) = true := by
    decide +kernel
  obtain ⟨record, receipt, hget, hreceipt, haction, hstatus⟩ := hreceipt
  intro h
  obtain ⟨t, call, origin, receiptId, _, hreturned, _⟩ :=
    h receipt (.inr ⟨"t1", record, hget, hreceipt⟩) haction hstatus
  exact absurd (List.all_eq_true.mp hreturns _ hreturned) (by simp [isReturn])

end Orchestrator

end MapProtocol
