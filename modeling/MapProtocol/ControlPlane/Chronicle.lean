import MapProtocol.ControlPlane.Steps

/-!
# The chronicle of a run

The history of a runtime only grows. `Logged` lists what a move may add to it, each event with what
had been established when it was logged, so that an invariant of the history alone is proved event
by event. Two invariants connect the history with the records: a task whose adapter has returned is
over, and a cancelled task is revoked.
-/

namespace MapProtocol

open Js

namespace Orchestrator

variable {env : OrchestratorEnv} {g : Guard} {now : Millis}
variable {w w' : Runtime} {call : Call} {event : Event} {t : String} {record : TaskRecord}

/-! ## What only grows -/

theorem Move.nextCall_le (h : Move env g now w w') :
    w.nextCall ≤ w'.nextCall := by
  cases h with
  | bookkeeping _ _ _ _ _ _ hcall => exact hcall
  | approved => exact Nat.le_succ _
  | threw => exact Nat.le_refl _
  | answered => exact Nat.le_refl _
  | created => exact Nat.le_refl _
  | appended => exact Nat.le_refl _
  | withdrawn => exact Nat.le_refl _
  | suspended => exact Nat.le_refl _
  | settled => exact Nat.le_refl _
  | deadLettered => exact Nat.le_refl _
  | cancelled => exact Nat.le_refl _
  | policySet => exact Nat.le_refl _

theorem moves_nextCall_le (h : Moves env g now w w') :
    w.nextCall ≤ w'.nextCall := by
  induction h with
  | refl => exact Nat.le_refl _
  | tail _ hlast ih => exact ih.trans hlast.nextCall_le

/-! ## What a move logs

Each event carries what the source has checked by then. Later modules argue from the history
alone. -/

/-- **The events of a move**, each with what was established when it was logged. -/
inductive Logged (env : OrchestratorEnv) (g : Guard) (now : Millis) (w : Runtime) : Event → Prop
  | threw {call : Nat} {method : Method} {taskId : String} {rejection : Rejection} :
      Logged env g now w (.threw call method taskId rejection)
  | answered {call : Nat} {outcome : InvokeResult} {t : String} {record : TaskRecord}
      (hget : w.taskStore.get t = some record) (hresult : record.result = some outcome.result)
      (hreceipt : record.receipt = some outcome.receipt) :
      Logged env g now w (.answered call outcome)
  | created {call uuid : Nat} {request : DispatchRequest} {submission : Submission} {ready : Ready}
      {submitted : InvokeResult}
      (hplanned : Planned env w.policy w.taskStore now uuid request submission ready submitted)
      (hguard : g.submits submission ready) :
      Logged env g now w (createdEvent call submission ready)
  | approving {call : Nat} {request : ApprovalRequest} {approval : Approval} {record : TaskRecord}
      (hchecked : Checked env w.taskStore request approval record)
      (hguard : g.approves w approval) : Logged env g now w (.approving call approval)
  /-- A dispatch or the closure of a job reached the adapter. -/
  | executed {call : Nat} {origin : Origin} {taskId : String} {intent : Intent}
      {envelope : TaskEnvelope} {capability : String}
      (horigin : ∀ reference, origin ≠ .approve reference)
      (hcreated : Created w.history (originSubmission origin) envelope capability)
      (htask : envelope.taskId = taskId)
      (hpasses : Passes env.regExp w.policy intent ∨ Passes env.regExp w.executorPolicy intent) :
      Logged env g now w (.executed call origin taskId intent w.policy)
  /-- An approval reached the adapter. -/
  | approved {call : Nat} {request : ApprovalRequest} {approval : Approval} {record : TaskRecord}
      {generatedId : String} {intent : Intent} {context : ExecutionContext}
      (hchecked : Checked env w.taskStore request approval record)
      (hguard : g.approves w approval)
      (hinvocation : (executor env w).executeApproved generatedId approval.intent =
        .adapter intent context) :
      Logged env g now w (.executed call (.approve approval.reference) approval.envelope.taskId
        intent w.policy)
  | returned {call : Call} {execResult : ExecutionResult}
      {outcome : Except Rejection ExecutionResult} (hcall : call ∈ w.calls)
      (hanswer : settledAnswer call.invocation outcome = .ok (.result execResult))
      (hguard : g.completes w call (.result execResult)) :
      Logged env g now w (.returned call.id call.origin call.envelope.taskId execResult.status
        (freshReceiptId env now w.nextUuid call.envelope.taskId))
  | cancelled {taskId : String} {queued : Bool} {tenantId : Option String} {outcome : InvokeResult}
      {record : TaskRecord}
      (hcancellable : Cancellable env w.taskStore now taskId tenantId outcome record) :
      Logged env g now w (.cancelled taskId queued outcome)

/-- The events that `suspend` logs: one, if the executor reached the adapter. -/
theorem suspend_logs (call : Call) (w : Runtime) :
    ∃ events, (suspend call w).history = events ++ w.history ∧ events.tail = [] ∧
      ∀ event ∈ events, ∃ intent context, call.invocation = .adapter intent context ∧
        event = .executed call.id call.origin call.envelope.taskId intent w.policy := by
  unfold suspend
  cases hi : call.invocation with
  | rejected message => exact ⟨[], rfl, rfl, by simp⟩
  | refused receipt => exact ⟨[], rfl, rfl, by simp⟩
  | adapter intent context =>
      refine ⟨[.executed call.id call.origin call.envelope.taskId intent w.policy], rfl, rfl, ?_⟩
      intro event hevent
      exact ⟨intent, context, rfl, List.mem_singleton.mp hevent⟩

theorem suspend_logged (h : event ∈ (suspend call w).history) :
    event ∈ w.history ∨ ∃ intent policy,
      event = .executed call.id call.origin call.envelope.taskId intent policy := by
  obtain ⟨events, hhistory, _, hevents⟩ := suspend_logs call w
  rw [hhistory] at h
  rcases List.mem_append.mp h with hnew | hold
  · obtain ⟨intent, _, _, heq⟩ := hevents event hnew
    exact .inr ⟨intent, w.policy, heq⟩
  · exact .inl hold

/-- The events `events` that a move puts before a history: one at most, not counting the note that
an approval goes ahead. -/
structure Logs (env : OrchestratorEnv) (g : Guard) (now : Millis) (w w' : Runtime)
    (events : List Event) : Prop where
  history : w'.history = events ++ w.history
  logged  : ∀ event ∈ events, Logged env g now w event
  one     : ∀ event ∈ events.tail, ∃ call approval, event = .approving call approval

theorem Logs.single (hhistory : w'.history = event :: w.history)
    (hlogged : Logged env g now w event) : Logs env g now w w' [event] := by
  refine ⟨hhistory, fun e he => ?_, by simp⟩
  rw [List.mem_singleton.mp he]
  exact hlogged

theorem Move.logs (h : Move env g now w w') :
    ∃ events, Logs env g now w w' events := by
  cases h with
  | bookkeeping _ _ _ _ hhistory => exact ⟨[], hhistory, by simp, by simp⟩
  | threw => exact ⟨_, .single rfl .threw⟩
  | answered _ hget hresult hreceipt => exact ⟨_, .single rfl (.answered hget hresult hreceipt)⟩
  | created hplanned _ _ hguard => exact ⟨_, .single rfl (.created hplanned hguard)⟩
  | appended => exact ⟨[], rfl, by simp, by simp⟩
  | withdrawn => exact ⟨[], rfl, by simp, by simp⟩
  | @suspended call _ _ horigin hcreated htask _ _ hpasses =>
      obtain ⟨events, hhistory, htail, hevents⟩ := suspend_logs call w
      refine ⟨events, hhistory, fun event hevent => ?_, by simp [htail]⟩
      obtain ⟨intent, context, hadapter, rfl⟩ := hevents event hevent
      exact .executed horigin hcreated htask (hpasses intent context hadapter)
  | @approved _ approval _ call hchecked hguard _ horigin henvelope hinvocation =>
      obtain ⟨generatedId, hinvocation⟩ := hinvocation
      obtain ⟨events, hhistory, htail, hevents⟩ := suspend_logs call
        (log (.approving call.id approval) { w with nextCall := w.nextCall + 1 })
      -- the note that the approval goes ahead is older than what the executor logs
      refine ⟨events ++ [.approving call.id approval], ?_, fun event hevent => ?_, ?_⟩
      · rw [hhistory, List.append_assoc]
        rfl
      · rcases List.mem_append.mp hevent with hexecuted | hnote
        · obtain ⟨intent, context, hadapter, rfl⟩ := hevents event hexecuted
          rw [horigin, henvelope]
          exact .approved hchecked hguard (hinvocation.symm.trans hadapter)
        · rw [List.mem_singleton.mp hnote]
          exact .approving hchecked hguard
      · cases events with
        | nil => simp
        | cons e es =>
            obtain rfl : es = [] := htail
            simp
  | @settled call _ coreResult _ _ _ hcall hanswer hguard =>
      cases coreResult with
      | receipt receipt => exact ⟨[], rfl, by simp, by simp⟩
      | result execResult => exact ⟨_, .single rfl (.returned hcall hanswer hguard)⟩
  | deadLettered => exact ⟨[], rfl, by simp, by simp⟩
  | cancelled hcancellable hcancel =>
      refine ⟨_, .single rfl ?_⟩
      cases hcancel with
      | cancelled queued => exact .cancelled hcancellable
      | threw => exact .threw
  | policySet => exact ⟨[], rfl, by simp, by simp⟩

theorem Move.logged (h : Move env g now w w') (hevent : event ∈ w'.history) :
    event ∈ w.history ∨ Logged env g now w event := by
  obtain ⟨events, hlogs⟩ := h.logs
  rw [hlogs.history] at hevent
  rcases List.mem_append.mp hevent with hnew | hold
  · exact .inr (hlogs.logged event hnew)
  · exact .inl hold

theorem Move.history_subset (h : Move env g now w w') :
    w.history ⊆ w'.history := by
  obtain ⟨events, hlogs⟩ := h.logs
  exact subset_append hlogs.history

theorem moves_history_subset (h : Moves env g now w w') :
    w.history ⊆ w'.history := by
  induction h with
  | refl => exact List.Subset.refl _
  | tail _ hlast ih => exact List.Subset.trans ih hlast.history_subset

/-- **A task in a terminal status stays in it.** -/
theorem Move.keeps_terminal (hledger : Ledger env w) (h : Move env g now w w')
    (hget : w.taskStore.get t = some record) (hterminal : isTerminal record.status = true) :
    ∃ record', w'.taskStore.get t = some record' ∧ record'.status = record.status := by
  -- the moves that write go through `update`, which keeps a terminal status
  have hwrite : ∀ (fault : Option String) (taskId : String) (outcome : InvokeResult),
      ∃ record', (w.taskStore.update now fault taskId (outcomeUpdate outcome)).2.get t =
        some record' ∧ record'.status = record.status := by
    intro fault taskId outcome
    obtain ⟨record', hget'⟩ : ∃ record', (w.taskStore.update now fault taskId
        (outcomeUpdate outcome)).2.get t = some record' := get_update_of_get hget
    refine ⟨record', hget', ?_⟩
    rcases get_update_outcome hget' with hold | ⟨old, rfl, hold, haccepts, rfl⟩
    · rw [hget] at hold
      cases hold
      rfl
    · obtain rfl : record = old := Option.some.inj (hget.symm.trans hold)
      rcases haccepts.status with ⟨hsame, _⟩ | ⟨_, hlive, _⟩
      · exact hsame.symm
      · rw [hterminal] at hlive
        cases hlive
  cases h with
  | bookkeeping _ _ htasks =>
      rw [htasks]
      exact ⟨record, hget, rfl⟩
  | @created _ _ _ _ ready _ hplanned =>
      refine ⟨record, ?_, rfl⟩
      show (w.taskStore.insert _).get t = _
      rw [TaskStore.get_insert]
      -- a new task has an id that no record has
      split
      · rename_i ht
        have hid : ready.envelope.taskId = t := ht
        have habsent := hplanned.absent hledger
        rw [hid, hget] at habsent
        cases habsent
      · exact hget
  | withdrawn _ _ _ htasks =>
      refine ⟨record, ?_, rfl⟩
      unfold TaskStore.get at hget ⊢
      dsimp only
      rw [htasks]
      exact hget
  | settled => exact hwrite _ _ _
  | deadLettered => exact hwrite _ _ _
  | cancelled => exact hwrite _ _ _
  | threw => exact ⟨record, hget, rfl⟩
  | answered => exact ⟨record, hget, rfl⟩
  | appended => exact ⟨record, hget, rfl⟩
  | suspended => exact ⟨record, hget, rfl⟩
  | approved => exact ⟨record, hget, rfl⟩
  | policySet => exact ⟨record, hget, rfl⟩

/-! ## What the events say of the records

Conversely a record cannot have got where it is without the event that says so. -/

theorem Origin.stamp_receipt_taskId (origin : Origin) (outcome : InvokeResult) :
    (Origin.stamp origin outcome).receipt.taskId = outcome.receipt.taskId := by
  cases origin <;> rfl

theorem Ledger.live_status (h : Ledger env w) (hget : w.taskStore.get t = some record)
    (hlive : isTerminal record.status = false) :
    ∃ submission envelope capability, Created w.history submission envelope capability ∧
      envelope.taskId = t ∧ record.status = submission.initial := by
  obtain ⟨k, e, cap, hc, htask, _, _, _, hfits⟩ := (h.records _ _ hget).origin
  rcases hfits with hinit | hend
  · exact ⟨k, e, cap, hc, htask, hinit⟩
  · rw [hend.isTerminal] at hlive
    cases hlive

/-- **A live record takes the result of an adapter.** -/
theorem Ledger.accepts_result {w : Runtime} (h : Ledger env w) {call : Call} {record : TaskRecord}
    {uuid : Nat} {execResult : ExecutionResult} {normalized : InvokeResult}
    (hget : w.taskStore.get call.envelope.taskId = some record)
    (hlive : isTerminal record.status = false)
    (hnormalized : normalizeCoreResult env now uuid (.result execResult) call.envelope
      call.capability call.negotiation = .ok normalized) :
    Accepts record (Origin.stamp call.origin normalized) := by
  obtain ⟨hresult, hsign⟩ := normalizeCoreResult_eq_ok.mp hnormalized
  have hid := (h.records _ _ hget).taskId
  obtain ⟨k, _, _, _, _, hinit⟩ := h.live_status hget hlive
  refine ⟨?_, ?_, .inr ⟨?_, hlive, ?_⟩⟩
  · rw [Origin.stamp_result, hresult, hid]
    rfl
  · rw [Origin.stamp_receipt_taskId, hid]
    exact congrArg UnsignedReceipt.taskId (sign_eq_ok.mp hsign).1
  · rw [Origin.stamp_result, hresult]
    intro hsame
    have hend : isEnd record.status := hsame ▸ isEnd_of_result
    rw [hend.isTerminal] at hlive
    cases hlive
  · rw [Origin.stamp_result, hresult, hinit]
    show statusOfResult execResult.status ∈ _
    cases k <;> cases execResult.status <;> decide

/-- The task of every adapter that returned is over. -/
def ReturnedOver (w : Runtime) : Prop :=
  ∀ call origin t status receiptId, .returned call origin t status receiptId ∈ w.history →
    ∃ record, w.taskStore.get t = some record ∧ isTerminal record.status = true

def CancelledRevoked (w : Runtime) : Prop :=
  ∀ t queued outcome, .cancelled t queued outcome ∈ w.history →
    ∃ record, w.taskStore.get t = some record ∧ record.status = .revoked

/-- The answer of an adapter leaves the record of its task terminal. -/
theorem Ledger.over_of_result {w : Runtime} (h : Ledger env w) {call : Call} (hcall : call ∈ w.calls)
    {execResult : ExecutionResult} {normalized : InvokeResult} (fault : Option String)
    (hnormalized : normalizeCoreResult env now w.nextUuid (.result execResult) call.envelope
      call.capability call.negotiation = .ok normalized) :
    ∃ record, (w.taskStore.update now fault call.envelope.taskId
        (outcomeUpdate (Origin.stamp call.origin normalized))).2.get call.envelope.taskId =
          some record ∧ isTerminal record.status = true := by
  obtain ⟨record, hget⟩ := h.record_of_call hcall
  rcases update_outcome w.taskStore now fault call.envelope.taskId
      (Origin.stamp call.origin normalized) with
    ⟨hnone, _⟩ | ⟨old, e, hold, hrefuses, heq⟩ | ⟨old, hold, haccepts, heq⟩
  · rw [hget] at hnone
    cases hnone
  · rw [heq]
    refine ⟨old, hold, ?_⟩
    by_contra hlive
    exact hrefuses (h.accepts_result hold (by simpa using hlive) hnormalized)
  · rw [heq]
    refine ⟨_, OrderedMap.get_set_self _ _ _, ?_⟩
    show isTerminal (Origin.stamp call.origin normalized).result.status = true
    rw [Origin.stamp_result, (normalizeCoreResult_eq_ok.mp hnormalized).1]
    exact isEnd_of_result.isTerminal

/-- The only move that logs the return of an adapter ends its task. -/
theorem Move.returned (hledger : Ledger env w) (hm : Move env g now w w') {call : Nat}
    {origin : Origin} {status : ExecutionStatus} {receiptId : String}
    (hmem : .returned call origin t status receiptId ∈ w'.history) :
    .returned call origin t status receiptId ∈ w.history ∨
      ∃ record, w'.taskStore.get t = some record ∧ isTerminal record.status = true := by
  cases hm with
  | @settled call' _ coreResult _ normalized fault hcall _ _ _ hnormalized =>
      rcases List.mem_append.mp hmem with hnew | hold
      · cases coreResult with
        | receipt receipt => cases hnew
        | result execResult =>
            cases List.mem_singleton.mp hnew
            exact .inr (hledger.over_of_result hcall fault hnormalized)
      · exact .inl hold
  | bookkeeping _ _ _ _ hhistory => exact .inl (hhistory ▸ hmem)
  | suspended =>
      rcases suspend_logged hmem with hold | ⟨_, _, heq⟩
      · exact .inl hold
      · cases heq
  | approved =>
      rcases suspend_logged hmem with hold | ⟨_, _, heq⟩
      · exact .inl (List.mem_of_ne_of_mem (by simp) hold)
      · cases heq
  | cancelled _ hcancel => exact .inl (List.mem_of_ne_of_mem (by cases hcancel <;> simp) hmem)
  | threw => exact .inl (List.mem_of_ne_of_mem (by simp) hmem)
  | answered => exact .inl (List.mem_of_ne_of_mem (by simp) hmem)
  | created => exact .inl (List.mem_of_ne_of_mem (by simp [createdEvent]) hmem)
  | appended => exact .inl hmem
  | withdrawn => exact .inl hmem
  | deadLettered => exact .inl hmem
  | policySet => exact .inl hmem

theorem returnedOver_move (hledger : Ledger env w) (h : ReturnedOver w) (hm : Move env g now w w') :
    ReturnedOver w' := by
  intro call origin t status receiptId hmem
  rcases hm.returned hledger hmem with hold | hover
  · obtain ⟨record, hget, hterminal⟩ := h _ _ _ _ _ hold
    obtain ⟨record', hget', hstatus⟩ := hm.keeps_terminal hledger hget hterminal
    exact ⟨record', hget', by rw [hstatus, hterminal]⟩
  · exact hover

theorem Cancellable.accepts (h : Ledger env w) {taskId : String} {tenantId : Option String}
    {outcome : InvokeResult} (hc : Cancellable env w.taskStore now taskId tenantId outcome record) :
    Accepts record outcome := by
  have hid := (h.records _ _ hc.found).taskId
  have hrevoked : outcome.result.status = .revoked := by
    rw [hc.result]
    rfl
  obtain ⟨_, _, _, _, hsign⟩ := hc.receipt
  refine ⟨?_, ?_, .inr ?_⟩
  · rw [hc.result, hid]
    rfl
  · rw [hid]
    exact congrArg UnsignedReceipt.taskId (sign_eq_ok.mp hsign).1
  · have hstatus := hc.status
    rw [hrevoked]
    generalize record.status = status at hstatus
    revert hstatus
    cases status <;> decide

/-- The only move that logs a cancellation revokes its task. -/
theorem Move.revokes (hledger : Ledger env w) (hm : Move env g now w w') {queued : Bool}
    {outcome : InvokeResult} (hmem : .cancelled t queued outcome ∈ w'.history) :
    .cancelled t queued outcome ∈ w.history ∨
      ∃ record, w'.taskStore.get t = some record ∧ record.status = .revoked := by
  cases hm with
  | @cancelled _ tenantId outcome' record fault _ hcancellable hcancel =>
      cases hcancel with
      | threw => exact .inl (List.mem_of_ne_of_mem (by simp) hmem)
      | cancelled queued' =>
          rcases List.mem_cons.mp hmem with heq | hold
          · cases heq
            refine .inr ?_
            -- the cancellation was checked before, so its update goes through
            have haccepts := hcancellable.accepts hledger
            rcases update_outcome w.taskStore now fault t outcome with
              ⟨hnone, _⟩ | ⟨old, e, hold, hrefuses, _⟩ | ⟨old, hold, _, heq⟩
            · rw [hcancellable.found] at hnone
              cases hnone
            · obtain rfl : record = old := Option.some.inj (hcancellable.found.symm.trans hold)
              exact absurd haccepts hrefuses
            · show ∃ record, (w.taskStore.update now fault t (outcomeUpdate outcome)).2.get t = _ ∧ _
              rw [heq]
              refine ⟨_, OrderedMap.get_set_self _ _ _, ?_⟩
              show outcome.result.status = .revoked
              rw [hcancellable.result]
              rfl
          · exact .inl hold
  | settled =>
      rcases List.mem_append.mp hmem with hnew | hold
      · have heq := (returnedEvents_new _ hnew).2
        cases heq
      · exact .inl hold
  | bookkeeping _ _ _ _ hhistory => exact .inl (hhistory ▸ hmem)
  | suspended =>
      rcases suspend_logged hmem with hold | ⟨_, _, heq⟩
      · exact .inl hold
      · cases heq
  | approved =>
      rcases suspend_logged hmem with hold | ⟨_, _, heq⟩
      · exact .inl (List.mem_of_ne_of_mem (by simp) hold)
      · cases heq
  | threw => exact .inl (List.mem_of_ne_of_mem (by simp) hmem)
  | answered => exact .inl (List.mem_of_ne_of_mem (by simp) hmem)
  | created => exact .inl (List.mem_of_ne_of_mem (by simp [createdEvent]) hmem)
  | appended => exact .inl hmem
  | withdrawn => exact .inl hmem
  | deadLettered => exact .inl hmem
  | policySet => exact .inl hmem

theorem cancelledRevoked_move (hledger : Ledger env w) (h : CancelledRevoked w)
    (hm : Move env g now w w') : CancelledRevoked w' := by
  intro t queued outcome hmem
  rcases hm.revokes hledger hmem with hold | hrevoked
  · obtain ⟨record, hget, hrevoked⟩ := h _ _ _ hold
    have hterminal : isTerminal record.status = true := by
      rw [hrevoked]
      rfl
    obtain ⟨record', hget', hstatus⟩ := hm.keeps_terminal hledger hget hterminal
    exact ⟨record', hget', hstatus.trans hrevoked⟩
  · exact hrevoked

end Orchestrator

end MapProtocol
