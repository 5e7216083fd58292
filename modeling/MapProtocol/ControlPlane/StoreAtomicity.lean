import MapProtocol.ControlPlane.TaskIndex

/-!
# What a call that throws leaves behind

A call of a store throws before it changes anything, when its checks refuse, or at the end, when the
file or the database cannot be written. SQLite rolls its transaction back then; the memory keeps the
change. `throws_unseen_iff` says for each of the four calls when nobody can see this.
-/

namespace MapProtocol

namespace TaskStore

variable {store : TaskStore}

/-- What a call returns or throws, without the value. -/
def outcome (store : TaskStore) : StoreLabel → Except String Unit
  | .write (.save now fault params) => (store.save now fault params).1.map fun _ => ()
  | .write (.update now fault taskId updates) =>
      (store.update now fault taskId updates).1.map fun _ => ()
  | .delete fault taskId => (store.delete fault taskId).1.map fun _ => ()

/-- No reader can tell the two stores apart. -/
structure SameView (store store' : TaskStore) : Prop where
  get      : ∀ taskId, store'.get taskId = store.get taskId
  list     : store'.list = store.list
  find     : ∀ key, store'.findByIdempotencyKey key = store.findByIdempotencyKey key
  receipts : ∀ tenantId, store'.listReceipts tenantId = store.listReceipts tenantId

/-- The receipts are read off the list of the records. -/
theorem SameView.of_list {store store' : TaskStore}
    (hget : ∀ taskId, store'.get taskId = store.get taskId) (hlist : store'.list = store.list)
    (hfind : ∀ key, store'.findByIdempotencyKey key = store.findByIdempotencyKey key) :
    SameView store store' where
  get := hget
  list := hlist
  find := hfind
  receipts tenantId := by
    unfold listReceipts listByTenant
    rw [hlist]

theorem SameView.refl (store : TaskStore) : SameView store store :=
  .of_list (fun _ => rfl) rfl fun _ => rfl

/-- If the call throws, nobody can see that it was made. -/
def ThrowsUnseen (store : TaskStore) (l : StoreLabel) : Prop :=
  ∀ e, store.outcome l = .error e → SameView store (store.step l)

/-- A `save` that brings what the record holds, and whose key finds the record already. -/
def SavedAlready (store : TaskStore) (now : Nat) (params : SaveParams) : Prop :=
  ∃ existing, store.get params.taskId = some existing ∧ params.Restates now existing ∧
    ∀ k, existing.Indexed k → params.taskId ≠ "" → store.findByIdempotencyKey k = some existing

/-- **The condition on a call**: its checks refuse, the file or the database is written, or the call
brings nothing new. -/
def FailsEarly (store : TaskStore) : StoreLabel → Prop
  | .write (.save now fault params) =>
      store.checkSave params = .ok () → fault ≠ none → store.SavedAlready now params
  | .write (.update now fault taskId updates) => ∀ existing, store.get taskId = some existing →
      updates.validateTransition existing (updates.nextStatus existing) = .ok () → fault ≠ none →
        updates.Restates now existing
  | .delete fault taskId => store.get taskId = none ∨ fault = none

/-! ## `save`

The memory is changed before the file is written. A call that throws late is unseen only if it
brought nothing new. -/

/-- A lookup after a record was set: its key finds it, and any other key what it found before, or
the record in its place. -/
theorem find_insert (store : TaskStore) (record : TaskRecord) (k : String) :
    (store.insert record).findByIdempotencyKey k =
      if record.Indexed k then (if record.taskId = "" then none else some record)
      else match store.idempotencyIndex.get k with
        | none   => none
        | some t => if t = "" then none else (store.insert record).get t := by
  unfold findByIdempotencyKey
  rw [get_index_insert]
  by_cases hk : record.Indexed k
  · simp only [hk, if_true]
    split
    · rfl
    · exact get_insert_self store record
  · simp only [hk, if_false]
    rfl

/-- A `save` that brings nothing new is not seen. -/
theorem sameView_insert {record : TaskRecord} (hget : store.get record.taskId = some record)
    (hfree : ∀ k t, record.Indexed k → store.idempotencyIndex.get k = some t →
      t = "" ∨ t = record.taskId)
    (hfind : ∀ k, record.Indexed k → record.taskId ≠ "" →
      store.findByIdempotencyKey k = some record) : SameView store (store.insert record) := by
  have htasks : (store.insert record).tasks = store.tasks := OrderedMap.set_self hget
  have hsame : ∀ t, (store.insert record).get t = store.get t := by
    intro t
    unfold get
    rw [htasks]
  refine .of_list hsame (by unfold list; rw [htasks]) fun k => ?_
  rw [find_insert]
  by_cases hk : record.Indexed k
  · by_cases hid : record.taskId = ""
    · -- a lookup does not follow an empty task id, so that it finds nothing before and after
      simp only [hk, hid, if_true]
      unfold findByIdempotencyKey
      cases hindex : store.idempotencyIndex.get k with
      | none => rfl
      | some t =>
          have ht : t = "" := by
            rcases hfree k t hk hindex with ht | ht
            · exact ht
            · exact ht.trans hid
          simp [ht]
    · simp only [hk, hid, if_true, if_false]
      exact (hfind k hk hid).symm
  · simp only [hk, if_false, hsame]
    rfl

theorem save_throwsUnseen_iff (store : TaskStore) (now : Nat) (fault : Option String)
    (params : SaveParams) : ThrowsUnseen store (.write (.save now fault params)) ↔
      FailsEarly store (.write (.save now fault params)) := by
  unfold ThrowsUnseen FailsEarly outcome step write
  dsimp only
  rcases store.save_cases now fault params with ⟨e, hcheck, heq⟩ | ⟨hcheck, heq⟩
  · simp only [heq, hcheck, reduceCtorEq, false_implies, iff_true]
    exact fun _ _ => .refl store
  · rw [heq]
    cases fault with
    | none => simp [persist, Except.map]
    | some e =>
        simp only [hcheck, persist, Except.map, Except.error.injEq, ne_eq, reduceCtorEq,
          not_false_eq_true, true_implies, forall_eq']
        constructor
        · intro hsame
          -- the record that is seen afterwards is the one that was seen before
          have hself := get_insert_self store (params.toRecord now)
          have hget := (hsame.get params.taskId).symm.trans hself
          refine ⟨_, hget, SaveParams.restates_iff.mp rfl, fun k hk hid => ?_⟩
          rw [← hsame.find, find_insert, if_pos hk]
          exact if_neg hid
        · rintro ⟨existing, hget, hrestates, hfind⟩
          obtain rfl := SaveParams.restates_iff.mpr hrestates
          exact sameView_insert hget (fun k t hk hindex => checkSave_key hcheck hk.2 hk.1 hindex)
            hfind

/-! ## `update` and `delete` -/

theorem update_throwsUnseen_iff (store : TaskStore) (now : Nat) (fault : Option String)
    (t : String) (updates : TaskUpdate) : ThrowsUnseen store (.write (.update now fault t updates)) ↔
      FailsEarly store (.write (.update now fault t updates)) := by
  unfold ThrowsUnseen FailsEarly outcome step write
  dsimp only
  rcases store.update_cases now fault t updates with
    ⟨hget, heq⟩ | ⟨existing, e, hget, hcheck, heq⟩ | ⟨existing, hget, hcheck, heq⟩
  · simp [heq, hget, Except.map]
  · simp only [heq, hget, Option.some.injEq, forall_eq', hcheck, reduceCtorEq, false_implies,
      iff_true]
    exact fun _ _ => .refl store
  · rw [heq]
    cases fault with
    | none => simp [persist, Except.map]
    | some e =>
        simp only [hget, hcheck, persist, Except.map, Except.error.injEq, Option.some.injEq, ne_eq,
          reduceCtorEq, not_false_eq_true, true_implies, forall_eq']
        constructor
        · intro hsame
          have hset := (hsame.get t).symm.trans (OrderedMap.get_set_self _ _ _)
          rw [hget] at hset
          exact TaskUpdate.restates_iff.mp (Option.some.inj hset).symm
        · intro hrestates
          rw [TaskUpdate.restates_iff.mpr hrestates,
            show store.tasks.set t existing = store.tasks from OrderedMap.set_self hget]
          exact .refl store

theorem delete_throwsUnseen_iff (store : TaskStore) (fault : Option String) (t : String) :
    ThrowsUnseen store (.delete fault t) ↔ FailsEarly store (.delete fault t) := by
  unfold ThrowsUnseen FailsEarly outcome step
  dsimp only
  rcases store.delete_cases fault t with ⟨hget, heq⟩ | ⟨existing, hget, heq⟩
  · simp [heq, hget, Except.map]
  · rw [heq]
    cases fault with
    | none => simp [persist, Except.map]
    | some e =>
        simp only [hget, reduceCtorEq, or_self, iff_false]
        intro hunseen
        have hgone : (store.tasks.delete t).get t = none := by simp [OrderedMap.get_delete]
        have hview := (hunseen e rfl).get t
        rw [hget] at hview
        exact absurd (hgone.symm.trans hview) (by simp)

theorem call_throwsUnseen_iff (store : TaskStore) (l : StoreLabel) :
    ThrowsUnseen store l ↔ FailsEarly store l := by
  cases l with
  | write w =>
      cases w with
      | save now fault params => exact store.save_throwsUnseen_iff now fault params
      | update now fault t updates => exact store.update_throwsUnseen_iff now fault t updates
  | delete fault t => exact store.delete_throwsUnseen_iff fault t

end TaskStore

/-! ## The receipt store

It is the same with an append. -/

namespace ReceiptStore

/-- If the append throws, nobody can see that it was made. -/
def ThrowsUnseen (store : ReceiptStore) (fault : Option String) (receipt : ExecutionReceipt) : Prop :=
  ∀ e, (store.append fault receipt).1 = .error e →
    (∀ id, (store.append fault receipt).2.get id = store.get id) ∧
      (store.append fault receipt).2.list = store.list

theorem append_throwsUnseen_iff (store : ReceiptStore) (fault : Option String)
    (receipt : ExecutionReceipt) : ThrowsUnseen store fault receipt ↔
      (store.get receipt.receiptId).isSome ∨ fault = none := by
  unfold ThrowsUnseen
  rcases store.append_cases fault receipt with ⟨existing, hget, heq⟩ | ⟨hnew, heq⟩
  · simp [heq, hget]
  · rw [heq]
    cases fault with
    | none => simp [persist]
    | some e =>
        have hnone : store.get receipt.receiptId = none := hnew
        simp only [hnone, Option.isSome_none, Bool.false_eq_true, reduceCtorEq, or_self, iff_false]
        intro hunseen
        have hview := (hunseen e rfl).1 receipt.receiptId
        rw [get_push, if_pos rfl, hnone] at hview
        cases hview

end ReceiptStore

/-- **Calls that throw.** A call of the task store that throws leaves no trace exactly when its
checks refuse, it brings nothing new, or there is nothing to delete; an append exactly when the id
is taken. A write that fails shows in every other case. -/
theorem throws_unseen_iff (tasks : TaskStore) (l : StoreLabel) (receipts : ReceiptStore)
    (fault : Option String) (receipt : ExecutionReceipt) :
    (tasks.ThrowsUnseen l ↔ tasks.FailsEarly l) ∧
    (receipts.ThrowsUnseen fault receipt ↔
      (receipts.get receipt.receiptId).isSome ∨ fault = none) :=
  ⟨tasks.call_throwsUnseen_iff l, receipts.append_throwsUnseen_iff fault receipt⟩

/-- **The disk is full.** The `save`, the `delete` and the append throw, and each is seen. -/
theorem throws_seen :
    (¬ TaskStore.ThrowsUnseen .empty (.write (.save 0 (some "ENOSPC")
      (TaskStore.sampleParams "t" none "alice" "done")))) ∧
    (¬ TaskStore.ThrowsUnseen
      (TaskStore.empty.insert ((TaskStore.sampleParams "t" none "alice" "done").toRecord 0))
      (.delete (some "ENOSPC") "t")) ∧
    ¬ ReceiptStore.ThrowsUnseen .empty (some "ENOSPC")
      (TaskStore.sampleParams "t" none "alice" "done").receipt := by
  refine ⟨fun h => ?_, fun h => ?_, fun h => ?_⟩
  · have hview := (h "ENOSPC" rfl).get "t"
    cases hview
  · have hview := (h "ENOSPC" rfl).get "t"
    cases hview
  · have hview := (h "ENOSPC" rfl).1 "receipt:1"
    cases hview

end MapProtocol
