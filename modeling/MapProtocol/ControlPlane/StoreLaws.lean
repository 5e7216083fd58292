import MapProtocol.ControlPlane.ReceiptStore

/-!
# Laws of the two stores

What each operation of `TaskStore` and `ReceiptStore` can do, said once. The later proofs go through
these laws and do not unfold the stores.
-/

namespace MapProtocol

open Js

/-! ## Transitions -/

/-- The three ends that a task on record can come to by an update. -/
def isEnd (status : TaskStatus) : Prop :=
  status = .completed ∨ status = .failed ∨ status = .revoked

theorem isEnd.isTerminal {status : TaskStatus} (h : isEnd status) :
    MapProtocol.isTerminal status = true := by
  rcases h with rfl | rfl | rfl <;> rfl

theorem assertValidTransition_eq_ok {current next : TaskStatus} {u : Unit} :
    assertValidTransition current next = .ok u ↔
      current = next ∨ (isTerminal current = false ∧ next ∈ taskTransitions current) := by
  unfold assertValidTransition
  by_cases h : current = next
  · simp [h]
  · cases ht : isTerminal current <;> simp [h]

namespace TaskStore

variable {store : TaskStore}

theorem get_insert (store : TaskStore) (record : TaskRecord) (t : String) :
    (store.insert record).get t = if record.taskId = t then some record else store.get t :=
  OrderedMap.get_set _ _ _ _

@[simp] theorem get_insert_self (store : TaskStore) (record : TaskRecord) :
    (store.insert record).get record.taskId = some record := by
  simp [get_insert]

theorem index_insert {record : TaskRecord} {key t : String}
    (h : (store.insert record).idempotencyIndex.get key = some t) :
    t = record.taskId ∨ store.idempotencyIndex.get key = some t := by
  unfold insert at h
  dsimp only at h
  split at h
  · rename_i k hk
    split at h
    · exact .inr h
    · rw [OrderedMap.get_set] at h
      split at h
      · exact .inl (Option.some.inj h).symm
      · exact .inr h
  · exact .inr h

/-- **What `save` does**, once its checks have passed. -/
theorem save_eq {params : SaveParams} (h : store.checkSave params = .ok ()) (now : Nat)
    (fault : Option String) :
    store.save now fault params =
      ((persist fault).map fun _ => params.toRecord now, store.insert (params.toRecord now)) := by
  simp [save, h]

/-- **What `update` can do**: there is no record, or the checks refuse and nothing changes, or the
record is replaced, whatever the write of the file then does. -/
theorem update_cases (store : TaskStore) (now : Nat) (fault : Option String) (t : String)
    (updates : TaskUpdate) :
    (store.get t = none ∧ store.update now fault t updates = (.ok none, store)) ∨
    (∃ existing e, store.get t = some existing ∧
      updates.validateTransition existing (updates.nextStatus existing) = .error e ∧
      store.update now fault t updates = (.error e, store)) ∨
    (∃ existing, store.get t = some existing ∧
      updates.validateTransition existing (updates.nextStatus existing) = .ok () ∧
      store.update now fault t updates =
        ((persist fault).map fun _ =>
            some (updates.apply existing (updates.nextStatus existing) now),
          { store with tasks :=
            store.tasks.set t (updates.apply existing (updates.nextStatus existing) now) })) := by
  unfold update get
  cases hg : store.tasks.get t with
  | none => exact .inl ⟨rfl, rfl⟩
  | some existing =>
      refine .inr ?_
      cases hv : updates.validateTransition existing (updates.nextStatus existing) with
      | error e => exact .inl ⟨existing, e, rfl, hv, by simp [hv]⟩
      | ok _ => exact .inr ⟨existing, rfl, hv, by simp [hv]⟩

end TaskStore

namespace ReceiptStore

variable {store : ReceiptStore}

theorem get_push (h : store.receipts.get receipt.receiptId = none) (id : String) :
    (store.push receipt h).get id = if receipt.receiptId = id then some receipt else store.get id :=
  OrderedMap.get_set _ _ _ _

/-- **What `append` can do**: the id is taken and nothing changes, or the receipt is added, whatever
the write of the file then does. -/
theorem append_cases (store : ReceiptStore) (fault : Option String) (receipt : ExecutionReceipt) :
    (∃ existing, store.get receipt.receiptId = some existing ∧
      (store.append fault receipt).2 = store) ∨
    (∃ h : store.receipts.get receipt.receiptId = none,
      store.append fault receipt = (persist fault, store.push receipt h)) := by
  unfold append
  split
  · rename_i existing h
    exact .inl ⟨existing, h, rfl⟩
  · rename_i h
    exact .inr ⟨h, rfl⟩

theorem append_of_new (fault : Option String) {receipt : ExecutionReceipt}
    (h : store.get receipt.receiptId = none) :
    store.append fault receipt = (persist fault, store.push receipt h) := by
  rcases store.append_cases fault receipt with ⟨existing, hsome, _⟩ | ⟨_, heq⟩
  · rw [h] at hsome
    cases hsome
  · exact heq

/-- An append under a taken id compares the serialised receipts. -/
theorem append_of_get (fault : Option String) {receipt existing : ExecutionReceipt}
    (h : store.get receipt.receiptId = some existing) :
    store.append fault receipt =
      (throwIf (receiptJson (some existing) ≠ receiptJson (some receipt))
        ("Receipt conflict for immutable receipt id: " ++ receipt.receiptId), store) := by
  unfold append
  split
  · rename_i other hother
    have hsame : existing = other := Option.some.inj (h.symm.trans hother)
    rw [hsame]
  · rename_i hnone
    rw [show store.receipts.get receipt.receiptId = some existing from h] at hnone
    cases hnone

theorem get_append {fault : Option String} {receipt r : ExecutionReceipt} {id : String}
    (h : (store.append fault receipt).2.get id = some r) : r = receipt ∨ store.get id = some r := by
  rcases store.append_cases fault receipt with ⟨_, _, heq⟩ | ⟨hnew, heq⟩
  · exact .inr (heq ▸ h)
  · rw [heq] at h
    simp only [get_push] at h
    split at h
    · exact .inl (Option.some.inj h).symm
    · exact .inr h

/-- **A receipt once stored stays as it is.** -/
theorem get_append_of_get {fault : Option String} {receipt r : ExecutionReceipt} {id : String}
    (h : store.get id = some r) : (store.append fault receipt).2.get id = some r := by
  rcases store.append_cases fault receipt with ⟨_, _, heq⟩ | ⟨hnew, heq⟩
  · rw [heq]
    exact h
  · rw [heq]
    simp only [get_push]
    split
    · rename_i hid
      subst hid
      have hnone : store.get receipt.receiptId = none := hnew
      rw [hnone] at h
      cases h
    · exact h

end ReceiptStore

end MapProtocol
