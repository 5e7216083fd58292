import MapProtocol.Js.JsonStrings
import MapProtocol.ControlPlane.ReceiptPersistence
import MapProtocol.ControlPlane.World

/-!
# The audit trail

An adapter that returns should leave one receipt of that execution. The orchestrator makes the
receipt, offers the outcome to the task's record, and appends the receipt last; an outcome that the
record refuses, because the task was cancelled or has ended meanwhile, or whose write throws, is
never appended. `executions_recorded` shows that nothing else leaves an execution without a receipt.

Every receipt made here ends in a uuid of its own, so no two executions share one.
-/

namespace MapProtocol

open Js

/-! ## Ids that end in a uuid

A uuid has no colon, so the last colon of an id tells where its uuid begins, whatever stands
before. -/

theorem eq_of_append_separated {α : Type*} {a b u v : List α} {c : α} (hu : c ∉ u) (hv : c ∉ v)
    (h : a ++ c :: u = b ++ c :: v) : u = v := by
  rcases List.append_eq_append_iff.mp h with ⟨rest, -, hrest⟩ | ⟨rest, -, hrest⟩
  · cases rest with
    | nil => exact (List.cons.inj hrest).2
    | cons x xs =>
        obtain ⟨-, rfl⟩ := List.cons.inj hrest
        exact absurd (by simp) hu
  · cases rest with
    | nil => exact (List.cons.inj hrest).2.symm
    | cons x xs =>
        obtain ⟨-, rfl⟩ := List.cons.inj hrest
        exact absurd (by simp) hv

namespace Orchestrator

variable {env : OrchestratorEnv} {g : Guard} {now : Millis}

/-- The id ends in the uuid numbered `k`. -/
def EndsIn (env : OrchestratorEnv) (k : Nat) (id : String) : Prop :=
  ∃ stem, id = stem ++ ":" ++ env.uuids.uuid k

theorem EndsIn.unique {k k' : Nat} {id : String} (h : EndsIn env k id) (h' : EndsIn env k' id) :
    k = k' := by
  obtain ⟨stem, rfl⟩ := h
  obtain ⟨stem', hid⟩ := h'
  have hlists := congrArg String.toList hid
  simp only [String.toList_append, List.append_assoc] at hlists
  have huuid := eq_of_append_separated (env.uuids.noColon k) (env.uuids.noColon k') hlists
  exact env.uuids.injective (String.toList_injective huuid)

theorem endsIn_fresh (uuid : Nat) (taskId : String) :
    EndsIn env uuid (freshReceiptId env now uuid taskId) := ⟨_, rfl⟩

/-- The id ends in a uuid that has been drawn. -/
def Numbered (env : OrchestratorEnv) (w : Runtime) (id : String) : Prop :=
  ∃ k < w.nextUuid, EndsIn env k id

theorem Numbered.mono {w w' : Runtime} {id : String} (h : Numbered env w id)
    (hle : w.nextUuid ≤ w'.nextUuid) : Numbered env w' id := by
  obtain ⟨k, hk, hends⟩ := h
  exact ⟨k, Nat.lt_of_lt_of_le hk hle, hends⟩

theorem Numbered.ne_of_endsIn {w : Runtime} {id id' : String} (h : Numbered env w id) {k : Nat}
    (hends : EndsIn env k id') (hk : w.nextUuid ≤ k) : id ≠ id' := by
  rintro rfl
  obtain ⟨k', hk', hends'⟩ := h
  rw [hends'.unique hends] at hk'
  exact Nat.not_lt.mpr hk hk'

theorem Numbered.ne_fresh {w : Runtime} {id : String} (h : Numbered env w id) (taskId : String) :
    id ≠ freshReceiptId env now w.nextUuid taskId :=
  h.ne_of_endsIn (endsIn_fresh _ _) (Nat.le_refl _)

theorem endsIn_stage {uuid : Nat} {ready : Ready} {stage : String} {receipt : ExecutionReceipt}
    (h : ready.stageReceipt env now uuid stage = .ok receipt) :
    EndsIn env uuid receipt.receiptId := by
  rw [show receipt.receiptId = freshReceiptId env now uuid ready.envelope.taskId from
    congrArg UnsignedReceipt.receiptId (stageReceipt_eq_ok h)]
  exact endsIn_fresh _ _

theorem Origin.stamp_receiptId (origin : Origin) (outcome : InvokeResult) :
    (Origin.stamp origin outcome).receipt.receiptId = outcome.receipt.receiptId := by
  cases origin <;> rfl

theorem receiptId_of_normalized {uuid : Nat} {coreResult : CoreResult} {origin : Origin}
    {envelope : TaskEnvelope} {capability : String} {negotiation : InvocationNegotiation}
    {normalized : InvokeResult}
    (h : normalizeCoreResult env now uuid coreResult envelope capability negotiation =
      .ok normalized) :
    (Origin.stamp origin normalized).receipt.receiptId =
      (outcomeOf env now uuid coreResult envelope capability negotiation).2.receiptId := by
  rw [Origin.stamp_receiptId]
  exact congrArg UnsignedReceipt.receiptId (sign_eq_ok.mp (normalizeCoreResult_eq_ok.mp h).2).1

theorem endsIn_normalized {uuid : Nat} {coreResult : CoreResult} {origin : Origin}
    {envelope : TaskEnvelope} {capability : String} {negotiation : InvocationNegotiation}
    {normalized : InvokeResult}
    (h : normalizeCoreResult env now uuid coreResult envelope capability negotiation =
      .ok normalized) :
    EndsIn env uuid (Origin.stamp origin normalized).receipt.receiptId := by
  rw [receiptId_of_normalized h]
  cases coreResult with
  | receipt receipt => exact ⟨receipt.receiptId, rfl⟩
  | result execResult => exact endsIn_fresh _ _

/-! ## The ids of a runtime

Uuids are numbered in the order in which they are drawn; an id made now is on no record. -/

/-- The receipts on record end in uuids that have been drawn, except for those of cancellations. -/
def ReceiptsNumbered (env : OrchestratorEnv) (w : Runtime) : Prop :=
  ∀ t record receipt, w.taskStore.get t = some record → record.status ≠ .revoked →
    record.receipt = some receipt → Numbered env w receipt.receiptId

theorem ReceiptsNumbered.passes {w w' : Runtime} (h : ReceiptsNumbered env w)
    (htasks : w'.taskStore.tasks = w.taskStore.tasks) (huuid : w.nextUuid ≤ w'.nextUuid) :
    ReceiptsNumbered env w' := by
  intro t record receipt hget hstatus hreceipt
  unfold TaskStore.get at hget
  rw [htasks] at hget
  exact (h t record receipt hget hstatus hreceipt).mono huuid

/-- The numbering of the records after an outcome was offered to one of them. -/
theorem ReceiptsNumbered.offers {w w' : Runtime} (h : ReceiptsNumbered env w)
    {fault : Option String} {t : String} {outcome : InvokeResult}
    (hstore : w'.taskStore = (w.taskStore.update now fault t (outcomeUpdate outcome)).2)
    (huuid : w.nextUuid ≤ w'.nextUuid) (hnumbered : outcome.result.status ≠ .revoked →
      Numbered env w' outcome.receipt.receiptId) : ReceiptsNumbered env w' := by
  intro t' record receipt hget hstatus hreceipt
  rw [hstore] at hget
  rcases get_update_outcome hget with hold | ⟨old, _, _, _, rfl⟩
  · exact (h t' record receipt hold hstatus hreceipt).mono huuid
  · obtain rfl := Option.some.inj hreceipt
    exact hnumbered hstatus

theorem receiptsNumbered_move {w w' : Runtime} (h : ReceiptsNumbered env w)
    (hm : Move env g now w w') : ReceiptsNumbered env w' := by
  cases hm with
  | bookkeeping _ _ htasks _ _ _ _ huuid => exact h.passes (by rw [htasks]) huuid
  | @created call uuid _ submission ready submitted hplanned _ huuid =>
      intro t record receipt hget hstatus hreceipt
      rw [TaskStore.get_insert] at hget
      split at hget
      · obtain rfl := Option.some.inj hget
        obtain rfl := Option.some.inj hreceipt
        exact ⟨uuid + 1, huuid, endsIn_stage hplanned.receipt⟩
      · exact h t record receipt hget hstatus hreceipt
  | withdrawn _ _ _ htasks => exact h.passes htasks (Nat.le_refl _)
  | settled _ _ _ _ hnormalized =>
      exact h.offers rfl (Nat.le_succ _) fun _ =>
        ⟨w.nextUuid, Nat.lt_succ_self _, endsIn_normalized hnormalized⟩
  | deadLettered _ hreceipt huuid =>
      exact h.offers rfl (Nat.le_refl _) fun _ => ⟨_, huuid, endsIn_stage hreceipt⟩
  | cancelled hcancellable =>
      -- a revoked record has no numbered receipt to answer for
      refine h.offers rfl (Nat.le_refl _) fun hstatus => absurd ?_ hstatus
      rw [hcancellable.result]
      rfl
  | threw => exact h
  | answered => exact h
  | appended => exact h
  | suspended => exact h
  | approved => exact h
  | policySet => exact h

/-- Every receipt of the store, and every one that may still get there, ends in a uuid that has been
drawn, and so does the receipt of every execution. The receipt of a cancellation is not appended. -/
structure Numbering (env : OrchestratorEnv) (w : Runtime) : Prop where
  keyed    : w.receiptStore.Keyed
  stored   : ∀ id receipt, w.receiptStore.get id = some receipt → Numbered env w id
  held     : ∀ t record receipt, w.taskStore.get t = some record → record.status ≠ .revoked →
    record.receipt = some receipt → Numbered env w receipt.receiptId
  returned : ∀ call origin t status id, .returned call origin t status id ∈ w.history →
    Numbered env w id

theorem Numbering.unused {w : Runtime} (h : Numbering env w) {k : Nat} {id : String}
    (hends : EndsIn env k id) (hk : w.nextUuid ≤ k) : w.receiptStore.get id = none := by
  by_contra hsome
  obtain ⟨receipt, hget⟩ := Option.ne_none_iff_exists'.mp hsome
  exact (h.stored _ receipt hget).ne_of_endsIn hends hk rfl

theorem Numbering.fresh_receipt {w : Runtime} (h : Numbering env w) (taskId : String) :
    w.receiptStore.get (freshReceiptId env now w.nextUuid taskId) = none :=
  h.unused (endsIn_fresh _ _) (Nat.le_refl _)

theorem Numbering.appends {w : Runtime} (h : Numbering env w) (fault : Option String)
    {receipt : ExecutionReceipt} (hnumbered : Numbered env w receipt.receiptId) :
    Numbering env { w with receiptStore := (w.receiptStore.append fault receipt).2 } := by
  rcases w.receiptStore.append_cases fault receipt with ⟨_, _, heq⟩ | ⟨hnew, heq⟩
  · rw [heq]
    exact h
  · rw [heq]
    refine ⟨h.keyed.push hnew, fun id r hr => ?_, h.held, h.returned⟩
    have hget : (w.receiptStore.push receipt hnew).get id = some r := hr
    rw [ReceiptStore.get_push] at hget
    split at hget
    · rename_i hid
      exact hid ▸ hnumbered
    · exact h.stored id r hget

theorem Numbering.passes {w w' : Runtime} (h : Numbering env w) (hheld : ReceiptsNumbered env w')
    (hreceipts : w'.receiptStore = w.receiptStore) (huuid : w.nextUuid ≤ w'.nextUuid)
    (hreturned : ∀ call origin t status id, .returned call origin t status id ∈ w'.history →
      .returned call origin t status id ∈ w.history) : Numbering env w' := by
  refine ⟨hreceipts ▸ h.keyed, fun id r hr => ?_, hheld, fun call origin t status id hmem => ?_⟩
  · rw [hreceipts] at hr
    exact (h.stored id r hr).mono huuid
  · exact (h.returned call origin t status id (hreturned _ _ _ _ _ hmem)).mono huuid

theorem numbering_move {w w' : Runtime} (h : Numbering env w) (hm : Move env g now w w') :
    Numbering env w' := by
  have hheld : ReceiptsNumbered env w' := receiptsNumbered_move h.held hm
  cases hm with
  | bookkeeping _ _ _ hreceipts hhistory _ _ huuid =>
      exact h.passes hheld hreceipts huuid fun _ _ _ _ _ hmem => hhistory ▸ hmem
  | threw =>
      exact h.passes hheld rfl (Nat.le_refl _) fun _ _ _ _ _ hmem =>
        List.mem_of_ne_of_mem (by simp) hmem
  | answered =>
      exact h.passes hheld rfl (Nat.le_refl _) fun _ _ _ _ _ hmem =>
        List.mem_of_ne_of_mem (by simp) hmem
  | created =>
      exact h.passes hheld rfl (Nat.le_refl _) fun _ _ _ _ _ hmem =>
        List.mem_of_ne_of_mem (by simp [createdEvent]) hmem
  | appended hget hreceipt hstatus => exact h.appends _ (h.held _ _ _ hget hstatus hreceipt)
  | @withdrawn uuid _ _ _ fault store hplanned huuid =>
      have happended := h.appends fault ⟨uuid + 1, huuid, endsIn_stage hplanned.receipt⟩
      exact happended.passes hheld rfl (Nat.le_refl _) fun _ _ _ _ _ hmem => hmem
  | suspended =>
      refine h.passes hheld rfl (Nat.le_refl _) fun _ _ _ _ _ hmem => ?_
      rcases suspend_logged hmem with hold | ⟨_, _, heq⟩
      · exact hold
      · cases heq
  | approved =>
      refine h.passes hheld rfl (Nat.le_refl _) fun _ _ _ _ _ hmem => ?_
      rcases suspend_logged hmem with hold | ⟨_, _, heq⟩
      · exact List.mem_of_ne_of_mem (by simp) hold
      · cases heq
  | @settled call calls coreResult =>
      -- the returned event takes the next number
      refine ⟨h.keyed, fun id r hr => (h.stored id r hr).mono (Nat.le_succ _), hheld,
        fun _ _ _ _ id hmem => ?_⟩
      rcases List.mem_append.mp hmem with hnew | hold
      · cases coreResult with
        | receipt receipt => cases hnew
        | result execResult =>
            cases List.mem_singleton.mp hnew
            exact ⟨w.nextUuid, Nat.lt_succ_self _, endsIn_fresh _ _⟩
      · exact (h.returned _ _ _ _ id hold).mono (Nat.le_succ _)
  | deadLettered => exact h.passes hheld rfl (Nat.le_refl _) fun _ _ _ _ _ hmem => hmem
  | cancelled _ hcancel =>
      exact h.passes hheld rfl (Nat.le_refl _) fun _ _ _ _ _ hmem =>
        List.mem_of_ne_of_mem (by cases hcancel <;> simp) hmem
  | policySet => exact h.passes hheld rfl (Nat.le_refl _) fun _ _ _ _ _ hmem => hmem

/-! ## Executions and receipts

A run keeps the trail complete step by step: receipts are never removed, so only the return of an
adapter can break it. -/

/-- The id that a returned execution's receipt gets. -/
def returnedId : Event → Option String
  | .returned _ _ _ _ id => some id
  | _                    => none

/-- **The audit trail is complete**: the receipt store holds, for each execution that returned,
exactly one receipt with the id made for it, of its task and with its status, and no two executions
were given one id. -/
structure Audited (w : Runtime) : Prop where
  recorded : ∀ call origin t status id, .returned call origin t status id ∈ w.history →
    ∃ receipt, w.receiptStore.list.filter (fun r => r.receiptId = id) = [receipt] ∧
      receipt.taskId = some t ∧ receipt.status = status
  distinct : (w.history.filterMap returnedId).Nodup

/-- **The condition on a step.** The result of an adapter finds the record of its task live, and the
record can be written. -/
def RecordsResult (s : World) : Label → Prop
  | .resume id outcome faults => ∀ call execResult, s.outer.calls.find? (·.id == id) = some call →
      settledAnswer call.invocation outcome = .ok (.result execResult) →
        faults.update = none ∧ ∀ record, s.outer.taskStore.get call.envelope.taskId = some record →
          isTerminal record.status = false
  | _ => True

def noReturns : Guard where
  submits _ _ := True
  approves _ _ := True
  sets _ _ := True
  completes _ _ coreResult := ∀ execResult, coreResult ≠ .result execResult

/-- An id that the store holds stands for one receipt of its list. -/
theorem filter_list_eq {store : ReceiptStore} (h : store.Keyed) {id : String}
    {receipt : ExecutionReceipt} :
    store.list.filter (fun r => r.receiptId = id) = [receipt] ↔ store.get id = some receipt := by
  rw [h.get_eq_some_iff]
  constructor
  · intro hfilter
    have hmem : receipt ∈ store.list.filter (fun r => r.receiptId = id) := by simp [hfilter]
    exact ⟨(List.mem_filter.mp hmem).1, of_decide_eq_true (List.mem_filter.mp hmem).2⟩
  · rintro ⟨hmem, rfl⟩
    have hnodup := h.nodup
    generalize store.list = receipts at hmem hnodup
    induction receipts with
    | nil => cases hmem
    | cons r rs ih =>
        rw [List.map_cons, List.nodup_cons] at hnodup
        rcases List.mem_cons.mp hmem with rfl | hrest
        · rw [List.filter_cons_of_pos (by simp)]
          refine congrArg (receipt :: ·) (List.filter_eq_nil_iff.mpr fun r hr => ?_)
          simp only [decide_eq_true_eq]
          exact fun hid => hnodup.1 (hid ▸ List.mem_map_of_mem hr)
        · have hne : r.receiptId ≠ receipt.receiptId := fun hid =>
            hnodup.1 (hid ▸ List.mem_map_of_mem hrest)
          rw [List.filter_cons_of_neg (by simpa using hne)]
          exact ih hrest hnodup.2

theorem Move.receipts_kept {w w' : Runtime} (hm : Move env g now w w') {id : String}
    {receipt : ExecutionReceipt} (h : w.receiptStore.get id = some receipt) :
    w'.receiptStore.get id = some receipt := by
  cases hm with
  | bookkeeping _ _ _ hreceipts => exact hreceipts ▸ h
  | appended => exact ReceiptStore.get_append_of_get h
  | withdrawn => exact ReceiptStore.get_append_of_get h
  | threw => exact h
  | answered => exact h
  | created => exact h
  | suspended => exact h
  | approved => exact h
  | settled => exact h
  | deadLettered => exact h
  | cancelled => exact h
  | policySet => exact h

/-- The trail stays complete while receipts are kept and no further execution returns. -/
theorem Audited.extends {w w' : Runtime} (h : Audited w) (hkeyed : w.receiptStore.Keyed)
    (hkeyed' : w'.receiptStore.Keyed)
    (hkept : ∀ id r, w.receiptStore.get id = some r → w'.receiptStore.get id = some r)
    {events : List Event} (hhistory : w'.history = events ++ w.history)
    (hnone : ∀ event ∈ events, returnedId event = none) : Audited w' := by
  constructor
  · intro call origin t status id hmem
    rw [hhistory] at hmem
    rcases List.mem_append.mp hmem with hnew | hold
    · exact absurd (hnone _ hnew) (by simp [returnedId])
    · obtain ⟨receipt, hfilter, hrest⟩ := h.recorded call origin t status id hold
      have hget := hkept id receipt ((filter_list_eq hkeyed).mp hfilter)
      exact ⟨receipt, (filter_list_eq hkeyed').mpr hget, hrest⟩
  · rw [hhistory, List.filterMap_append, List.filterMap_eq_nil_iff.mpr hnone]
    exact h.distinct

theorem audited_move {w w' : Runtime} (hnumbering : Numbering env w) (h : Audited w)
    (hm : Move env noReturns now w w') : Audited w' := by
  obtain ⟨events, hlogs⟩ := hm.logs
  refine h.extends hnumbering.keyed (numbering_move hnumbering hm).keyed
    (fun id r hr => hm.receipts_kept hr) hlogs.history fun event hevent => ?_
  cases hlogs.logged event hevent with
  | returned _ _ hguard => exact absurd rfl (hguard _)
  | _ => rfl

/-! ## The result of an adapter

Either the record takes the result and the receipt follows, or the receipt is never written. -/

theorem finish_audit (call : Call) (outcome : Except Rejection InvokeResult) (w : Runtime) :
    (finish call outcome w).receiptStore = w.receiptStore ∧
      ∃ events, (finish call outcome w).history = events ++ w.history ∧
        ∀ event ∈ events, returnedId event = none := by
  unfold finish
  split
  · exact ⟨rfl, [], rfl, by simp⟩
  all_goals exact ⟨rfl, [_], rfl, by simp [returnedId]⟩

theorem Audited.finish {call : Call} {outcome : Except Rejection InvokeResult} {w : Runtime}
    (h : Audited w) (hkeyed : w.receiptStore.Keyed) : Audited (finish call outcome w) := by
  obtain ⟨hreceipts, events, hhistory, hnone⟩ := finish_audit call outcome w
  exact h.extends hkeyed (hreceipts ▸ hkeyed) (fun id r hr => hreceipts ▸ hr) hhistory hnone

section Result

variable {w : Runtime} {id : Nat} {call : Call} {outcome : Except Rejection ExecutionResult}
  {execResult : ExecutionResult} {normalized : InvokeResult} {record : TaskRecord} {faults : Faults}

/-- The receipt that an adapter's result is recorded by. -/
theorem Arrives.receipt
    (h : Arrives env now w id outcome call (.result execResult) normalized record) :
    (Origin.stamp call.origin normalized).receipt.receiptId =
        freshReceiptId env now w.nextUuid call.envelope.taskId ∧
      (Origin.stamp call.origin normalized).receipt.taskId = some call.envelope.taskId ∧
      (Origin.stamp call.origin normalized).receipt.status = execResult.status := by
  have hunsigned := (sign_eq_ok.mp (normalizeCoreResult_eq_ok.mp h.normalized).2).1
  refine ⟨receiptId_of_normalized h.normalized, ?_, ?_⟩
  · rw [Origin.stamp_receipt_taskId]
    exact congrArg UnsignedReceipt.taskId hunsigned
  · rw [show (Origin.stamp call.origin normalized).receipt.status = normalized.receipt.status by
      cases call.origin <;> rfl]
    exact congrArg UnsignedReceipt.status hunsigned

/-- **A record takes an answer only while it is live**: the receipt of a record that has ended is an
older one, and the record keeps it. -/
theorem Arrives.live {coreResult : CoreResult} (hheld : ReceiptsNumbered env w)
    (h : Arrives env now w id outcome call coreResult normalized record)
    (haccepts : Accepts record (Origin.stamp call.origin normalized)) :
    isTerminal record.status = false := by
  rcases haccepts.status with ⟨hsame, hkeeps⟩ | ⟨_, hlive, _⟩
  · by_contra hended
    rw [Bool.not_eq_false] at hended
    have hjson : receiptJson (some (Origin.stamp call.origin normalized).receipt) =
        receiptJson record.receipt := by
      by_contra hdiff
      exact hkeeps ⟨hended, .inr ⟨rfl, hdiff⟩⟩
    -- an answer revokes nothing, so that the record's receipt is a numbered one
    have hstatus : record.status ≠ .revoked := hsame ▸ status_ne_revoked_of_normalized h.normalized
    cases hreceipt : record.receipt with
    | none =>
        rw [hreceipt] at hjson
        cases hjson
    | some receipt =>
        rw [hreceipt] at hjson
        have hnumbered := hheld _ record receipt h.record hstatus hreceipt
        have hfresh : receipt.receiptId ≠ (Origin.stamp call.origin normalized).receipt.receiptId :=
          hnumbered.ne_of_endsIn (endsIn_normalized h.normalized) (Nat.le_refl _)
        exact hfresh (stringify_head_injective (Option.some.inj hjson)).symm
  · exact hlive

/-- **A result that is saved is recorded.** -/
theorem audited_saved (hnumbering : Numbering env w) (h : Audited w)
    (harrives : Arrives env now w id outcome call (.result execResult) normalized record) :
    Audited (withReceipt faults (Origin.stamp call.origin normalized).receipt
      (offered env now faults call (.result execResult) normalized w)) ∧
        (withReceipt faults (Origin.stamp call.origin normalized).receipt
          (offered env now faults call (.result execResult) normalized w)).receiptStore.Keyed := by
  obtain ⟨hid, htask, hstatus⟩ := harrives.receipt
  -- the receipt has a number that no receipt has, so appending it adds it
  have hfresh : w.receiptStore.get (Origin.stamp call.origin normalized).receipt.receiptId =
      none := by
    rw [hid]
    exact hnumbering.fresh_receipt _
  have hnew : w.receiptStore.receipts.get
      (Origin.stamp call.origin normalized).receipt.receiptId = none := hfresh
  have hkeyed := hnumbering.keyed.push hnew
  have hstore : (withReceipt faults (Origin.stamp call.origin normalized).receipt
      (offered env now faults call (.result execResult) normalized w)).receiptStore =
        w.receiptStore.push (Origin.stamp call.origin normalized).receipt hnew :=
    congrArg Prod.snd (ReceiptStore.append_of_new faults.append hnew)
  refine ⟨⟨?_, ?_⟩, hstore ▸ hkeyed⟩
  · intro c origin t status id' hmem
    rw [hstore]
    rcases List.mem_append.mp hmem with hreturned | hold
    · cases List.mem_singleton.mp hreturned
      refine ⟨_, (filter_list_eq hkeyed).mpr ?_, htask, hstatus⟩
      rw [ReceiptStore.get_push, if_pos hid]
    · obtain ⟨receipt, hfilter, hrest⟩ := h.recorded c origin t status id' hold
      have hget := (filter_list_eq hnumbering.keyed).mp hfilter
      refine ⟨receipt, (filter_list_eq hkeyed).mpr ?_, hrest⟩
      rw [ReceiptStore.get_push, if_neg, hget]
      rintro rfl
      rw [hfresh] at hget
      cases hget
  · show (List.filterMap returnedId ([.returned call.id call.origin call.envelope.taskId
      execResult.status (freshReceiptId env now w.nextUuid call.envelope.taskId)] ++
        w.history)).Nodup
    rw [List.filterMap_append, List.nodup_append]
    refine ⟨by simp [returnedId], h.distinct, fun a ha b hb => ?_⟩
    obtain rfl : a = freshReceiptId env now w.nextUuid call.envelope.taskId := by
      simpa [returnedId] using ha
    obtain ⟨event, hevent, hb⟩ := List.mem_filterMap.mp hb
    cases event with
    | returned c origin t status id' =>
        obtain rfl := Option.some.inj hb
        exact ((hnumbering.returned c origin t status id' hevent).ne_fresh _).symm
    | _ => cases hb

/-- **A result that is not saved is not recorded.** -/
theorem not_audited_lost (hnumbering : Numbering env w) (answer : Except Rejection InvokeResult) :
    ¬ Audited (finish call answer
      (offered env now faults call (.result execResult) normalized w)) := by
  intro h
  obtain ⟨hreceipts, events, hhistory, _⟩ := finish_audit call answer
    (offered env now faults call (.result execResult) normalized w)
  have hmem : .returned call.id call.origin call.envelope.taskId execResult.status
      (freshReceiptId env now w.nextUuid call.envelope.taskId) ∈ (finish call answer
        (offered env now faults call (.result execResult) normalized w)).history := by
    rw [hhistory]
    exact List.mem_append_right _ List.mem_cons_self
  obtain ⟨receipt, hfilter, _⟩ := h.recorded _ _ _ _ _ hmem
  rw [hreceipts] at hfilter
  have hget := (filter_list_eq hnumbering.keyed).mp hfilter
  rw [hnumbering.fresh_receipt] at hget
  cases hget

end Result

/-! ## Steps and runs -/

/-- What a run keeps: the ledger, the numbers of the ids, and the trail. -/
structure Trail (env : OrchestratorEnv) (s : World) : Prop where
  ledger    : WorldLedger env s
  numbering : Numbering env s.outer
  audited   : Audited s.outer

theorem numbering_step {s : World} (hledger : WorldLedger env s) (h : Numbering env s.outer)
    (l : Label) : Numbering env (step env s l).outer :=
  moves_invariant (fun _ _ _ _ hn hm => numbering_move hn hm) hledger.ledger h
    (step_moves hledger (allowed_any env s l)).1

/-- A label brings the result of an adapter, or no adapter returns. -/
theorem returns_or_allowed (env : OrchestratorEnv) (s : World) (l : Label) :
    (∃ id outcome faults call execResult, l = .resume id outcome faults ∧
      s.outer.calls.find? (·.id == id) = some call ∧
        settledAnswer call.invocation outcome = .ok (.result execResult)) ∨
      Allowed noReturns env s l ∧ RecordsResult s l := by
  by_cases hreturns : ∃ id outcome faults call execResult, l = .resume id outcome faults ∧
      s.outer.calls.find? (·.id == id) = some call ∧
        settledAnswer call.invocation outcome = .ok (.result execResult)
  · exact .inl hreturns
  · refine .inr ?_
    cases l with
    | resume id outcome faults =>
        constructor
        · intro call coreResult hfind hanswer execResult hresult
          exact hreturns ⟨id, outcome, faults, call, execResult, rfl, hfind, hresult ▸ hanswer⟩
        · intro call execResult hfind hanswer
          exact absurd ⟨id, outcome, faults, call, execResult, rfl, hfind, hanswer⟩ hreturns
    | _ => simp [Allowed, noReturns, RecordsResult]

/-- The step that brings a result leaves the trail complete exactly when the result is recorded. -/
theorem audited_resume {s : World} (h : Trail env s) {id : Nat}
    {outcome : Except Rejection ExecutionResult} {faults : Faults} {call : Call}
    {execResult : ExecutionResult} (hfind : s.outer.calls.find? (·.id == id) = some call)
    (hanswer : settledAnswer call.invocation outcome = .ok (.result execResult)) :
    Audited (resume env s.now faults id outcome s.outer) ↔
      RecordsResult s (.resume id outcome faults) := by
  -- whatever arrives is the result that `hanswer` names
  have harrival : ∀ {call' coreResult normalized record},
      Arrives env s.now s.outer id outcome call' coreResult normalized record →
        call' = call ∧ coreResult = .result execResult := by
    intro call' coreResult normalized record harrives
    obtain rfl : call = call' := Option.some.inj (hfind.symm.trans harrives.found)
    exact ⟨rfl, Except.ok.inj (harrives.answer.symm.trans hanswer)⟩
  have hresumed : Resumed env s.now faults s.outer id outcome
      (resume env s.now faults id outcome s.outer) := resume_cases h.ledger.ledger id outcome
  generalize resume env s.now faults id outcome s.outer = w' at hresumed
  cases hresumed with
  | absent hnone =>
      rw [hfind] at hnone
      cases hnone
  | rejected hfound herror =>
      obtain rfl := Option.some.inj (hfind.symm.trans hfound)
      rw [hanswer] at herror
      cases herror
  -- the update of the task throws: no receipt
  | refused harrives hrefuses =>
      obtain ⟨rfl, rfl⟩ := harrival harrives
      refine iff_of_false (not_audited_lost h.numbering _) fun hrecords => hrefuses ?_
      have hlive := (hrecords _ _ hfind hanswer).2 _ harrives.record
      exact h.ledger.ledger.accepts_result harrives.record hlive harrives.normalized
  -- the task is updated, but its write throws before the append
  | unsaved harrives _ hfault =>
      obtain ⟨rfl, rfl⟩ := harrival harrives
      refine iff_of_false (not_audited_lost h.numbering _) fun hrecords => ?_
      have hnone := (hrecords _ _ hfind hanswer).1
      rw [hfault] at hnone
      cases hnone
  | saved harrives haccepts hfault =>
      obtain ⟨rfl, rfl⟩ := harrival harrives
      obtain ⟨hsaved, hkeyed⟩ := @audited_saved env s.now s.outer id _ outcome execResult _ _
        faults h.numbering h.audited harrives
      refine iff_of_true (hsaved.finish hkeyed) fun call' _ hfind' _ =>
        ⟨hfault, fun record' hget => ?_⟩
      obtain rfl := Option.some.inj (hfind.symm.trans hfind')
      obtain rfl := Option.some.inj (harrives.record.symm.trans hget)
      exact harrives.live h.numbering.held haccepts

theorem audited_step {s : World} (h : Trail env s) {l : Label}
    (hallowed : Allowed noReturns env s l) : Audited (step env s l).outer := by
  have hboth : Numbering env (step env s l).outer ∧ Audited (step env s l).outer :=
    moves_invariant (I := fun w => Numbering env w ∧ Audited w)
      (fun _ _ _ _ hw hm => ⟨numbering_move hw.1 hm, audited_move hw.1 hw.2 hm⟩)
      h.ledger.ledger ⟨h.numbering, h.audited⟩ (step_moves h.ledger hallowed).1
  exact hboth.2

/-- **One step leaves the trail complete exactly under the condition.** -/
theorem audited_step_iff {s : World} (h : Trail env s) (l : Label) :
    Audited (step env s l).outer ↔ RecordsResult s l := by
  rcases returns_or_allowed env s l with
    ⟨id, outcome, faults, call, execResult, rfl, hfind, hanswer⟩ | ⟨hallowed, hrecords⟩
  · exact audited_resume h hfind hanswer
  · exact iff_of_true (audited_step h hallowed) hrecords

theorem trail_step {s : World} (h : Trail env s) {l : Label} (hl : RecordsResult s l) :
    Trail env (step env s l) where
  ledger := (step_moves h.ledger (allowed_any env s l)).2
  numbering := numbering_step h.ledger h.numbering l
  audited := (audited_step_iff h l).mpr hl

theorem init_trail (env : OrchestratorEnv) (policy : PolicyDocument)
    (deadLetters : List DeadLetterRecord) (now : Millis) :
    Trail env (init env policy deadLetters now) where
  ledger := init_worldLedger env policy deadLetters now
  numbering := by
    refine ⟨ReceiptStore.keyed_empty, ?_, ?_, ?_⟩
    all_goals simp [init, QueueMachine.init, freshRuntime, TaskStore.get, TaskStore.empty,
      ReceiptStore.get, ReceiptStore.empty]
  audited := by
    constructor <;> simp [init, QueueMachine.init, freshRuntime]

/-- **Audit completeness.** Every execution that returned is recorded by one receipt, in every state
of a run, exactly when each result finds the record of its task live and is saved. -/
theorem executions_recorded (env : OrchestratorEnv) (policy : PolicyDocument)
    (deadLetters : List DeadLetterRecord) (now : Millis) (ls : List Label) :
    Transition.StepsMeet (step env) RecordsResult (init env policy deadLetters now) ls ↔
      ∀ ks, ks <+: ls → Audited (run env (init env policy deadLetters now) ks).outer :=
  Transition.stepsMeet_iff_of (I := Trail env) (J := fun s => Audited s.outer)
    (fun _ h => h.audited) (fun _ _ h hl => trail_step h hl)
    (fun _ l h hl => (audited_step_iff h l).mp hl) (init_trail env policy deadLetters now)

/-- The task is cancelled while its adapter runs: the adapter returns, and no receipt says so. -/
theorem execution_unrecorded :
    ¬ Audited (run (sampleEnv "ops.restart" noCrypto) (sampleInit .allow)
      [sampleDispatch "ops.restart" none {}, .cancelTask "t1" none {},
        .resume 0 (.ok sampleResult) {}]).outer := by
  intro h
  have hreturned : .returned 0 .dispatch "t1" .ok _ ∈
      (run (sampleEnv "ops.restart" noCrypto) (sampleInit .allow)
        [sampleDispatch "ops.restart" none {}, .cancelTask "t1" none {},
          .resume 0 (.ok sampleResult) {}]).outer.history :=
    List.mem_cons_of_mem _ List.mem_cons_self
  obtain ⟨receipt, hfilter, -⟩ := h.recorded _ _ _ _ _ hreturned
  cases hfilter

end Orchestrator

end MapProtocol
