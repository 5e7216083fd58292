import MapProtocol.ControlPlane.Receipts
import MapProtocol.Security.Verification

/-!
# Receipts and their signatures

Every receipt is signed when it is made, and one path changes it afterwards: an approval writes its
reference into `approval_used`, which the signature covers. The receipts of a run verify as long as
no approval gets to write one, which is to say that none is answered while its task awaits it.
-/

namespace MapProtocol

open Js

namespace Orchestrator

variable {env : OrchestratorEnv} {g : Guard} {now : Millis}

/-- The receipts that a runtime keeps and those that its callers got verify. -/
structure ReceiptsVerify (env : OrchestratorEnv) (w : Runtime) : Prop where
  kept      : ∀ receipt, Kept w receipt → verifyReceiptSignature env.signing receipt = true
  answered  : ∀ call outcome, .answered call outcome ∈ w.history →
    verifyReceiptSignature env.signing outcome.receipt = true
  cancelled : ∀ t queued outcome, .cancelled t queued outcome ∈ w.history →
    verifyReceiptSignature env.signing outcome.receipt = true

/-- No approval is answered while its task awaits it. -/
def unanswered : Guard :=
  { Guard.any with completes := fun w call _ =>
      ∀ reference, call.origin = .approve reference → ∀ record,
        w.taskStore.get call.envelope.taskId = some record → record.status ≠ .awaitingApproval }

/-- A task submitted for approval waits for it, or was cancelled. -/
def Undecided (w : Runtime) : Prop :=
  ∀ envelope capability record, Created w.history .approval envelope capability →
    w.taskStore.get envelope.taskId = some record →
      record.status = .awaitingApproval ∨ record.status = .revoked

theorem verifies_of_sign (hsound : env.signing.Sound) (hcoherent : env.signing.Coherent)
    {unsigned : UnsignedReceipt} {receipt : ExecutionReceipt} (h : sign env unsigned = .ok receipt) :
    verifyReceiptSignature env.signing receipt = true := by
  obtain ⟨hunsigned, hsign⟩ := sign_eq_ok.mp h
  unfold verifyReceiptSignature
  rw [hunsigned]
  exact verify_of_signReceipt hsound hcoherent hsign

theorem outcomeOf_approvalUsed (uuid : Nat) (coreResult : CoreResult) (envelope : TaskEnvelope)
    (capability : String) (negotiation : InvocationNegotiation) :
    (outcomeOf env now uuid coreResult envelope capability negotiation).2.approvalUsed = none := by
  cases coreResult <;> rfl

/-- **The receipt that an approval writes does not verify.** -/
theorem approval_unverified {uuid : Nat} {coreResult : CoreResult} {envelope : TaskEnvelope}
    {capability : String} {negotiation : InvocationNegotiation} {normalized : InvokeResult}
    (h : normalizeCoreResult env now uuid coreResult envelope capability negotiation =
      .ok normalized) (reference : String) :
    verifyReceiptSignature env.signing
      (Origin.stamp (.approve reference) normalized).receipt = false := by
  obtain ⟨hunsigned, hsign⟩ := sign_eq_ok.mp (normalizeCoreResult_eq_ok.mp h).2
  rw [← hunsigned] at hsign
  have hnone : normalized.receipt.approvalUsed = none := by
    rw [hunsigned]
    exact outcomeOf_approvalUsed _ _ _ _ _
  unfold signReceipt at hsign
  simp only [bind_eq_ok] at hsign
  obtain ⟨_, _, hsignature⟩ := hsign
  rw [Bool.eq_false_iff]
  exact fun hverifies => approvalUsed_covered hnone reference
    (env.signing.payload_of_verify hsignature hverifies)

/-! ## What an approval cannot write

Only an approval answered while its task awaits it writes a receipt that does not verify. -/

theorem Ledger.approval_of_call {w : Runtime} (h : Ledger env w) {call : Call}
    (hcall : call ∈ w.calls) {reference : String} (horigin : call.origin = .approve reference) :
    ∃ envelope capability, Created w.history .approval envelope capability ∧
      envelope.taskId = call.envelope.taskId := by
  obtain ⟨e, cap, hc, htask⟩ := (h.calls call hcall).1.created
  rw [horigin] at hc
  exact ⟨e, cap, hc, htask⟩

theorem origin_of_approval {origin : Origin} (h : originSubmission origin = .approval) :
    ∃ reference, origin = .approve reference := by
  cases origin with
  | approve reference => exact ⟨reference, rfl⟩
  | dispatch => cases h
  | job id => cases h

/-- The record of an undecided task refuses the answer of an approval that it does not await. -/
theorem Undecided.refuses {w : Runtime} (h : Undecided w) (hledger : Ledger env w) {call : Call}
    (hcall : call ∈ w.calls) {reference : String} (horigin : call.origin = .approve reference)
    {coreResult : CoreResult} {outcome : Except Rejection ExecutionResult}
    {normalized : InvokeResult} {record : TaskRecord}
    (hanswer : settledAnswer call.invocation outcome = .ok coreResult)
    (hguard : unanswered.completes w call coreResult)
    (hnormalized : normalizeCoreResult env now w.nextUuid coreResult call.envelope
      call.capability call.negotiation = .ok normalized)
    (hget : w.taskStore.get call.envelope.taskId = some record) :
    ¬ Accepts record (Origin.stamp call.origin normalized) := by
  intro haccepts
  obtain ⟨e, cap, hc, htask⟩ := hledger.approval_of_call hcall horigin
  have hrevoked : record.status = .revoked :=
    (h e cap record hc (htask ▸ hget)).resolve_left (hguard reference horigin record hget)
  cases coreResult with
  | receipt receipt =>
      obtain ⟨⟨id, hjob⟩, _⟩ :=
        (hledger.calls call hcall).1.refused receipt (settledAnswer_receipt hanswer)
      rw [horigin] at hjob
      cases hjob
  | result execResult =>
      rcases haccepts.status with ⟨hsame, _⟩ | ⟨_, hlive, _⟩
      · rw [hrevoked, Origin.stamp_result, (normalizeCoreResult_eq_ok.mp hnormalized).1] at hsame
        -- an adapter's answer completes its task or fails it
        have hstatus : TaskStatus.revoked = statusOfResult execResult.status := hsame
        cases hexec : execResult.status <;> rw [hexec] at hstatus <;> cases hstatus
      · rw [hrevoked] at hlive
        cases hlive

/-! ## What a move writes to a record -/

/-- **The writes that give a record its status.** -/
inductive Written (env : OrchestratorEnv) (g : Guard) (now : Millis) (w w' : Runtime) (t : String) :
    TaskStatus → Prop
  | created {submission : Submission} {envelope : TaskEnvelope} {capability : String}
      (hcreated : Created w'.history submission envelope capability) (htask : envelope.taskId = t) :
      Written env g now w w' t submission.initial
  | settled {call : Call} {coreResult : CoreResult} {outcome : Except Rejection ExecutionResult}
      {normalized : InvokeResult} {record : TaskRecord} (hcall : call ∈ w.calls)
      (htask : call.envelope.taskId = t)
      (hanswer : settledAnswer call.invocation outcome = .ok coreResult)
      (hguard : g.completes w call coreResult)
      (hnormalized : normalizeCoreResult env now w.nextUuid coreResult call.envelope
        call.capability call.negotiation = .ok normalized)
      (hget : w.taskStore.get call.envelope.taskId = some record)
      (haccepts : Accepts record (Origin.stamp call.origin normalized)) :
      Written env g now w w' t (Origin.stamp call.origin normalized).result.status
  | deadLettered {envelope : TaskEnvelope} {capability : String}
      (hcreated : Created w.history .async envelope capability) (htask : envelope.taskId = t) :
      Written env g now w w' t .failed
  | cancelled : Written env g now w w' t .revoked

/-- A record after a move has the status it had, or one that the move wrote. -/
theorem Move.written {w w' : Runtime} (hm : Move env g now w w') {t : String} {record : TaskRecord}
    (hget : w'.taskStore.get t = some record) :
    (∃ old, w.taskStore.get t = some old ∧ old.status = record.status) ∨
      Written env g now w w' t record.status := by
  cases hm with
  | bookkeeping _ _ htasks =>
      rw [htasks] at hget
      exact .inl ⟨record, hget, rfl⟩
  | @created call _ _ submission ready submitted hplanned =>
      have hget' : (w.taskStore.insert _).get t = some record := hget
      rw [TaskStore.get_insert] at hget'
      split at hget'
      · rename_i htask
        cases hget'
        refine .inr ?_
        rw [show ((ready.saveParams submitted).toRecord now).status = submission.initial from
          hplanned.status]
        exact .created ⟨call, List.mem_cons_self⟩ htask
      · exact .inl ⟨record, hget', rfl⟩
  | withdrawn _ _ _ htasks =>
      refine .inl ⟨record, ?_, rfl⟩
      unfold TaskStore.get at hget ⊢
      rw [← htasks]
      exact hget
  | settled hcall hanswer hguard _ hnormalized =>
      rcases get_update_outcome hget with hold | ⟨old, htask, hold, haccepts, rfl⟩
      · exact .inl ⟨record, hold, rfl⟩
      · exact .inr (.settled hcall htask hanswer hguard hnormalized hold haccepts)
  | deadLettered hcreated =>
      rcases get_update_outcome hget with hold | ⟨old, htask, _, _, rfl⟩
      · exact .inl ⟨record, hold, rfl⟩
      · exact .inr (.deadLettered hcreated htask)
  | cancelled hcancellable =>
      rcases get_update_outcome hget with hold | ⟨old, _, _, _, rfl⟩
      · exact .inl ⟨record, hold, rfl⟩
      · refine .inr ?_
        -- the outcome of a cancellation is a revoked result
        show Written env g now w _ t (InvokeResult.result _).status
        rw [hcancellable.result]
        exact .cancelled
  | appended => exact .inl ⟨record, hget, rfl⟩
  | threw => exact .inl ⟨record, hget, rfl⟩
  | answered => exact .inl ⟨record, hget, rfl⟩
  | suspended => exact .inl ⟨record, hget, rfl⟩
  | approved => exact .inl ⟨record, hget, rfl⟩
  | policySet => exact .inl ⟨record, hget, rfl⟩

theorem undecided_move {w w' : Runtime} (hledger : Ledger env w) (h : Undecided w)
    (hm : Move env unanswered now w w') : Undecided w' := by
  intro e cap record hcreated hget
  have hledger' : Ledger env w' := hledger.move hm
  rcases hm.written hget with ⟨old, hold, hsame⟩ | hwritten
  · rw [← hsame]
    obtain ⟨call, hmem⟩ := hcreated
    rcases hm.logged hmem with hbefore | hnew
    · exact h e cap old ⟨call, hbefore⟩ hold
    · cases hnew with
      | created hplanned =>
          rw [hplanned.absent hledger] at hold
          cases hold
  · generalize record.status = status at hwritten ⊢
    cases hwritten with
    | created hcreated' htask =>
        obtain ⟨rfl, _, _⟩ := hledger'.created_unique hcreated' hcreated htask
        exact .inl rfl
    | settled hcall htask hanswer hguard hnormalized hget' haccepts =>
        obtain ⟨e', cap', hcreated', htask'⟩ := (hledger.calls _ hcall).1.created
        obtain ⟨hsubmission, _, _⟩ := hledger'.created_unique (hcreated'.mono hm.history_subset)
          hcreated (htask'.trans htask)
        obtain ⟨reference, horigin⟩ := origin_of_approval hsubmission
        exact absurd haccepts (h.refuses hledger hcall horigin hanswer hguard hnormalized hget')
    | deadLettered hasync htask =>
        cases (hledger'.created_unique (hasync.mono hm.history_subset) hcreated htask).1
    | cancelled => exact .inr rfl

/-! ## Every receipt verifies

Receipts in the store and those that callers got come from the same few writes. -/

/-- The invariant that carries the signatures over a run. -/
structure SignedReceipts (env : OrchestratorEnv) (w : Runtime) : Prop where
  undecided : Undecided w
  verify    : ReceiptsVerify env w

theorem Origin.stamp_of_ne {origin : Origin} (h : ∀ reference, origin ≠ .approve reference)
    (outcome : InvokeResult) : Origin.stamp origin outcome = outcome := by
  cases origin with
  | approve reference => exact absurd rfl (h reference)
  | dispatch => rfl
  | job id => rfl

theorem issued_verifies {w w' : Runtime} (hsound : env.signing.Sound)
    (hcoherent : env.signing.Coherent) (hledger : Ledger env w) (h : Undecided w)
    {receipt : ExecutionReceipt} (hissued : Issued env unanswered now w w' receipt) :
    verifyReceiptSignature env.signing receipt = true := by
  cases hissued with
  | submitted hplanned => exact verifies_of_sign hsound hcoherent hplanned.receipt
  | settled hcall hanswer hguard hnormalized hget haccepts =>
      rw [Origin.stamp_of_ne fun reference horigin =>
        h.refuses hledger hcall horigin hanswer hguard hnormalized hget haccepts]
      exact verifies_of_sign hsound hcoherent (normalizeCoreResult_eq_ok.mp hnormalized).2
  | deadLettered _ hreceipt => exact verifies_of_sign hsound hcoherent hreceipt
  | cancelled hcancellable =>
      obtain ⟨_, _, _, _, hsign⟩ := hcancellable.receipt
      exact verifies_of_sign hsound hcoherent hsign

theorem signedReceipts_move {w w' : Runtime} (hsound : env.signing.Sound)
    (hcoherent : env.signing.Coherent) (hledger : Ledger env w) (h : SignedReceipts env w)
    (hm : Move env unanswered now w w') : SignedReceipts env w' := by
  refine ⟨undecided_move hledger h.undecided hm, ?_, ?_, ?_⟩
  · intro receipt hkept
    rcases hm.kept hkept with hold | hissued
    · exact h.verify.kept receipt hold
    · exact issued_verifies hsound hcoherent hledger h.undecided hissued
  · intro call outcome hmem
    rcases hm.logged hmem with hold | hnew
    · exact h.verify.answered call outcome hold
    · cases hnew with
      | answered hget _ hreceipt =>
          exact h.verify.kept outcome.receipt (.inr ⟨_, _, hget, hreceipt⟩)
  · intro t queued outcome hmem
    rcases hm.logged hmem with hold | hnew
    · exact h.verify.cancelled t queued outcome hold
    · cases hnew with
      | cancelled hcancellable =>
          have hissued : Issued env unanswered now w w' _ := .cancelled hcancellable
          exact issued_verifies hsound hcoherent hledger h.undecided hissued

/-- **Receipts verify** in every run in which no approval is answered while its task awaits it,
under signing keys whose kids find them. -/
theorem receipts_verify (env : OrchestratorEnv) (hsound : env.signing.Sound)
    (hcoherent : env.signing.Coherent) (policy : PolicyDocument)
    (deadLetters : List DeadLetterRecord) (now : Millis) (ls : List Label)
    (hls : Transition.StepsMeet (step env) (Allowed unanswered env)
      (init env policy deadLetters now) ls) :
    ReceiptsVerify env (run env (init env policy deadLetters now) ls).outer := by
  have hinit : SignedReceipts env (init env policy deadLetters now).outer := by
    refine ⟨by simp [Undecided], ?_, by simp, by simp⟩
    rintro receipt (⟨id, hid⟩ | ⟨t, record, hget, _⟩)
    · cases hid
    · cases hget
  exact (run_of_moves (fun _ _ _ hledger h hm => signedReceipts_move hsound hcoherent hledger h hm)
    (init_worldLedger env policy deadLetters now) hinit hls).2.verify

/-! ## A sample of both -/

/-- Signatures that hold the text they are made for. -/
def echoCrypto : Crypto where
  hmacSha256 secret input := utf8 (secret ++ input)
  rsaSign _ := .ok utf8
  rsaVerify _ input signature := signature == utf8 input

theorem sound_echoCrypto : (sampleSigning echoCrypto).Sound := by
  intro key _ privateKeyPem publicKeyPem sign _ hsign input
  cases hsign
  exact beq_self_eq_true _

theorem coherent_sampleSigning (crypto : Crypto) : (sampleSigning crypto).Coherent := by
  intro key h
  cases h
  rfl

/-- The sample task is approved, cancelled before its adapter answers, and then answered. -/
def cancelledApproval : List Label :=
  [sampleDispatch "ops.restart" none {}, sampleApprove "alice" "restart web",
    .cancelTask "t1" none {}, .resume 1 (.ok sampleResult) {}]

theorem receipts_verify_sample : ReceiptsVerify (sampleEnv "ops.restart" echoCrypto)
    (run (sampleEnv "ops.restart" echoCrypto) (sampleInit .requireApproval)
      cancelledApproval).outer := by
  refine receipts_verify _ sound_echoCrypto (coherent_sampleSigning _) _ _ _ _
    ⟨?_, ?_, ?_, ?_, trivial⟩
  · exact fun _ _ _ _ => trivial
  · exact fun _ _ => trivial
  · trivial
  · intro call coreResult hfind _ reference _ record hget
    have hrevoked : (run (sampleEnv "ops.restart" echoCrypto) (sampleInit .requireApproval)
        (cancelledApproval.take 3)).outer.calls.all (fun call => call.envelope.taskId == "t1") =
          true ∧ ((run (sampleEnv "ops.restart" echoCrypto) (sampleInit .requireApproval)
        (cancelledApproval.take 3)).outer.taskStore.get "t1").map (·.status) = some .revoked := by
      decide +kernel
    have htask : call.envelope.taskId = "t1" := by
      simpa using List.all_eq_true.mp hrevoked.1 call (find_call hfind).1
    rw [htask] at hget
    have hstatus : some record.status = some .revoked :=
      (congrArg (Option.map TaskRecord.status) hget).symm.trans hrevoked.2
    intro hawaits
    rw [hawaits] at hstatus
    cases hstatus

/-- The receipt of the sample task, once its approval has been executed, does not verify. -/
theorem approved_receipt_unverified : (sampleSigning echoCrypto).Sound ∧
    (sampleSigning echoCrypto).Coherent ∧
    ¬ ReceiptsVerify (sampleEnv "ops.restart" echoCrypto)
      (run (sampleEnv "ops.restart" echoCrypto) (sampleInit .requireApproval)
        [sampleDispatch "ops.restart" none {}, sampleApprove "alice" "restart web",
          .resume 1 (.ok sampleResult) {}]).outer := by
  refine ⟨sound_echoCrypto, coherent_sampleSigning _, fun h => ?_⟩
  have hstamped : ∃ negotiation normalized record,
      normalizeCoreResult (sampleEnv "ops.restart" echoCrypto) 0 2 (.result sampleResult)
        (sampleEnvelope "alice" "restart web" none) "ops.restart" negotiation = .ok normalized ∧
      (run (sampleEnv "ops.restart" echoCrypto) (sampleInit .requireApproval)
        [sampleDispatch "ops.restart" none {}, sampleApprove "alice" "restart web",
          .resume 1 (.ok sampleResult) {}]).outer.taskStore.get "t1" = some record ∧
        record.receipt = some (Origin.stamp (.approve "approval:t1") normalized).receipt :=
    ⟨_, _, _, rfl, rfl, rfl⟩
  obtain ⟨negotiation, normalized, record, hnormalized, hget, hreceipt⟩ := hstamped
  have hverifies := h.kept _ (.inr ⟨"t1", record, hget, hreceipt⟩)
  exact Bool.false_ne_true ((approval_unverified hnormalized "approval:t1").symm.trans hverifies)

end Orchestrator

end MapProtocol
