import MapProtocol.Lib.LatestIndex
import MapProtocol.Lib.Transition
import MapProtocol.Sdk.MemoryStores
import MapProtocol.Sdk.Storages

/-!
# Receipts by task

Both stores in memory keep, beside the receipts, one receipt id for each task. A save writes it, and
a receipt that is deleted or evicted takes with it whatever is there for its task. So a lookup by task
finds the receipt of the task that was saved last, as long as no receipt that goes has a sibling, and
no receipt that moves to another task was the latest of its own (`receipts_found_iff`).
-/

namespace MapProtocol.Sdk

open Transition

namespace TypeScript

/-- What a result carries, if it is `ok`. -/
def StorageResult.data? {α : Type} : StorageResult α → Option α
  | .ok data  => some data
  | .failed _ => none

def taskOf (receipt : ExecutionReceipt) : Option String := some receipt.taskId

/-- A store, and what was saved in it, the latest first. -/
structure ReceiptRun where
  store : InMemoryReceiptStore
  saves : List (String × ExecutionReceipt)

namespace ReceiptRun

def new (maxReceipts : Option Nat) : ReceiptRun := ⟨.new maxReceipts, []⟩

def call (s : ReceiptRun) (call : InMemoryReceiptStore.Call) : ReceiptRun where
  store := s.store.call call
  saves := match call with
    | .save receipt => (receipt.receiptId, receipt) :: s.saves
    | _             => s.saves

def shelf (s : ReceiptRun) : Shelf String String ExecutionReceipt where
  records := s.store.receipts
  index   := s.store.taskReceipts
  written := s.saves

/-- **A lookup by task** returns the receipt of the task that was saved last, of those that are
stored, and fails only where none of the task is stored. -/
def FindsLatest (s : ReceiptRun) : Prop :=
  s.shelf.Finds taskOf fun taskId => (s.store.getByTaskId taskId).2.data?

/-- The id that a save evicts: of all, that of the oldest access, if the store is full and the receipt
is new. -/
def evicts (s : ReceiptRun) (receipt : ExecutionReceipt) : Option String :=
  if s.store.receipts.get receipt.receiptId = none ∧
      s.store.receipts.entries.length = s.store.maxReceipts then
    (s.store.accessOrder ++ [receipt.receiptId]).head?
  else none

/-- The calls that keep the index right. -/
def KeepsIndex (s : ReceiptRun) : InMemoryReceiptStore.Call → Prop
  | .save receipt =>
      receipt.receiptId ≠ "" ∧ s.shelf.Replaceable taskOf receipt.receiptId receipt ∧
        ∀ oldest, s.evicts receipt = some oldest →
          Shelf.Alone taskOf (s.store.receipts.set receipt.receiptId receipt) oldest
  | .get _            => True
  | .getByTaskId _    => True
  | .delete receiptId => Shelf.Alone taskOf s.store.receipts receiptId

/-- The order of access has the ids of what is stored, none of them empty, and not too many. -/
structure Ordered (s : ReceiptRun) : Prop where
  order  : s.store.accessOrder.Perm (s.store.receipts.entries.map Prod.fst)
  named  : "" ∉ s.store.accessOrder
  within : s.store.receipts.entries.length ≤ s.store.maxReceipts

/-- What the calls keep: the index is right besides. -/
structure Kept (s : ReceiptRun) : Prop extends s.Ordered where
  indexed : s.shelf.Indexed taskOf

end ReceiptRun

/-! ## The order of access -/

section

variable {order : List String} {id : String} {m : OrderedMap String ExecutionReceipt}

theorem updateAccessOrder_of_notMem (h : id ∉ order) : updateAccessOrder order id = order ++ [id] := by
  unfold updateAccessOrder
  rw [List.filter_eq_self.mpr]
  intro a ha
  refine decide_eq_true ?_
  rintro rfl
  exact h ha

theorem filter_ne_eq_erase (hnodup : order.Nodup) : order.filter (· ≠ id) = order.erase id := by
  rw [hnodup.erase_eq_filter]
  refine List.filter_congr fun a _ => ?_
  rw [Bool.eq_iff_iff]
  simp

theorem updateAccessOrder_perm (hnodup : order.Nodup) (h : id ∈ order) :
    (updateAccessOrder order id).Perm order := by
  unfold updateAccessOrder
  rw [filter_ne_eq_erase hnodup]
  exact (List.perm_append_singleton id _).trans (List.perm_cons_erase h).symm

theorem updateAccessOrder_set {receipt : ExecutionReceipt} (h : order.Perm (m.entries.map Prod.fst)) :
    (updateAccessOrder order id).Perm ((m.set id receipt).entries.map Prod.fst) := by
  have hkeys : (m.set id receipt).entries.map Prod.fst = _ :=
    OrderedMap.keys_setEntries id receipt m.entries
  rw [hkeys]
  by_cases hid : id ∈ m.entries.map Prod.fst
  · rw [if_pos hid]
    have hnodup : order.Nodup := h.nodup_iff.mpr m.nodup
    exact (updateAccessOrder_perm hnodup (h.mem_iff.mpr hid)).trans h
  · rw [if_neg hid, updateAccessOrder_of_notMem fun hmem => hid (h.mem_iff.mp hmem)]
    exact h.append_right [id]

theorem order_delete (h : order.Perm (m.entries.map Prod.fst)) :
    (order.erase id).Perm ((m.delete id).entries.map Prod.fst) := by
  have hkeys : (m.delete id).entries.map Prod.fst = _ := OrderedMap.keys_deleteEntries id m.entries
  rw [hkeys]
  exact h.erase id

theorem mem_order_iff (h : order.Perm (m.entries.map Prod.fst)) : id ∈ order ↔ m.get id ≠ none := by
  rw [h.mem_iff, ← OrderedMap.isSome_get_iff, Option.isSome_iff_ne_none]

end

/-! ## Evicting -/

section

variable {maxReceipts : Nat} {order : List String} {receipts : OrderedMap String ExecutionReceipt}
  {taskReceipts : OrderedMap String String}

theorem evictReceipts_of_le (h : receipts.entries.length ≤ maxReceipts) :
    evictReceipts maxReceipts order receipts taskReceipts = (receipts, taskReceipts, order) := by
  cases order with
  | nil => rfl
  | cons oldest order => rw [evictReceipts, if_neg (Nat.not_lt.mpr h)]

/-- One receipt too many: the first of the order goes. -/
theorem evictReceipts_one {oldest : String} (hnamed : oldest ≠ "")
    (hstored : receipts.get oldest ≠ none) (h : receipts.entries.length = maxReceipts + 1) :
    evictReceipts maxReceipts (oldest :: order) receipts taskReceipts =
      (receipts.delete oldest, match receipts.get oldest with
        | some receipt => taskReceipts.delete receipt.taskId
        | none         => taskReceipts, order) := by
  have hlength := OrderedMap.length_delete hstored
  rw [evictReceipts, if_pos (by omega), if_neg hnamed]
  exact evictReceipts_of_le (by omega)

theorem index_evictReceipts {taskId id : String}
    (h : (evictReceipts maxReceipts order receipts taskReceipts).2.1.get taskId = some id) :
    taskReceipts.get taskId = some id := by
  induction order generalizing receipts taskReceipts with
  | nil => exact h
  | cons oldest order ih =>
      rw [evictReceipts] at h
      split at h
      · split at h
        · exact ih h
        · have hget := ih h
          split at hget
          · rw [OrderedMap.get_delete] at hget
            split at hget
            · cases hget
            · exact hget
          · exact hget
      · exact h

theorem get_empty_evictReceipts :
    (evictReceipts maxReceipts order receipts taskReceipts).1.get "" = receipts.get "" := by
  induction order generalizing receipts taskReceipts with
  | nil => rfl
  | cons oldest order ih =>
      rw [evictReceipts]
      split
      · split
        · exact ih
        · rename_i hne
          rw [ih, OrderedMap.get_delete, if_neg hne]
      · rfl

end

namespace ReceiptRun

variable {s : ReceiptRun}

theorem shelf_lookup (hnamed : ∀ taskId, s.store.taskReceipts.get taskId ≠ some "")
    (taskId : String) : (s.store.getByTaskId taskId).2.data? = s.shelf.lookup taskId := by
  unfold InMemoryReceiptStore.getByTaskId Shelf.lookup shelf
  cases hid : s.store.taskReceipts.get taskId with
  | none => rfl
  | some id =>
      have hne : id ≠ "" := by
        rintro rfl
        exact hnamed taskId hid
      have hgiven : Py.given (some id) = some id := by simp [Py.given, Option.filter, hne]
      rw [hgiven, Option.bind_some]
      show (s.store.get id).2.data? = s.store.receipts.get id
      unfold InMemoryReceiptStore.get
      cases s.store.receipts.get id <;> rfl

theorem findsLatest_iff (hnamed : ∀ taskId, s.store.taskReceipts.get taskId ≠ some "") :
    s.FindsLatest ↔ s.shelf.Finds taskOf s.shelf.lookup := by
  unfold FindsLatest
  rw [funext (shelf_lookup hnamed)]

theorem Ordered.stored_named (h : s.Ordered) : s.store.receipts.get "" = none := by
  by_contra hstored
  exact h.named ((mem_order_iff h.order).mpr hstored)

theorem Kept.index_named (h : s.Kept) (taskId : String) :
    s.store.taskReceipts.get taskId ≠ some "" := by
  intro hindex
  obtain ⟨receipt, hstored, -⟩ := h.indexed.kept hindex
  exact absurd (hstored.symm.trans h.stored_named) (Option.some_ne_none receipt)

theorem Kept.findsLatest (h : s.Kept) : s.FindsLatest :=
  (findsLatest_iff h.index_named).mpr h.indexed.finds

/-! ## The calls on the shelf -/

variable {receipt : ExecutionReceipt} {receiptId : String}

def saved (s : ReceiptRun) (receipt : ExecutionReceipt) :
    Shelf String String ExecutionReceipt :=
  s.shelf.putWithin taskOf receipt.receiptId receipt (s.evicts receipt)

theorem saved_of_none (h : s.evicts receipt = none) :
    s.saved receipt = s.shelf.put taskOf receipt.receiptId receipt := by
  rw [saved, h]
  rfl

theorem saved_of_some {oldest : String} (h : s.evicts receipt = some oldest) : s.saved receipt =
    (s.shelf.put taskOf receipt.receiptId receipt).drop taskOf oldest := by
  rw [saved, h]
  rfl

/-- What a save leaves of the store, where the loop of the eviction is known. -/
theorem shelf_save {receipts : OrderedMap String ExecutionReceipt}
    {taskReceipts : OrderedMap String String} {order : List String}
    (h : evictReceipts s.store.maxReceipts (updateAccessOrder s.store.accessOrder receipt.receiptId)
      (s.store.receipts.set receipt.receiptId receipt)
      (s.store.taskReceipts.set receipt.taskId receipt.receiptId) =
        (receipts, taskReceipts, order)) :
    (s.call (.save receipt)).store.receipts = receipts ∧
      (s.call (.save receipt)).store.accessOrder = order ∧
      (s.call (.save receipt)).shelf =
        ⟨receipts, taskReceipts, (receipt.receiptId, receipt) :: s.saves⟩ := by
  have hreceipts : (s.call (.save receipt)).store.receipts = receipts := congrArg Prod.fst h
  have hindex : (s.call (.save receipt)).store.taskReceipts = taskReceipts :=
    congrArg (fun p => p.2.1) h
  have horder : (s.call (.save receipt)).store.accessOrder = order := congrArg (fun p => p.2.2) h
  refine ⟨hreceipts, horder, ?_⟩
  unfold shelf
  rw [hreceipts, hindex]
  rfl

theorem Ordered.named_after (h : s.Ordered) (hid : receipt.receiptId ≠ "") :
    "" ∉ updateAccessOrder s.store.accessOrder receipt.receiptId := by
  unfold updateAccessOrder
  rw [List.mem_append, List.mem_filter, List.mem_singleton]
  rintro (⟨hold, -⟩ | hnew)
  · exact h.named hold
  · exact hid hnew.symm

theorem Ordered.save_of_none (h : s.Ordered) (hid : receipt.receiptId ≠ "")
    (hevicts : s.evicts receipt = none) : (s.call (.save receipt)).Ordered ∧
      (s.call (.save receipt)).shelf = s.saved receipt := by
  have hfits : (s.store.receipts.set receipt.receiptId receipt).entries.length ≤
      s.store.maxReceipts := by
    refine OrderedMap.length_set_le h.within (fun hfull => ?_) receipt
    rw [evicts, if_pos hfull] at hevicts
    simp at hevicts
  obtain ⟨hreceipts, horder, hshelf⟩ := shelf_save (evictReceipts_of_le hfits)
  refine ⟨⟨?_, ?_, ?_⟩, hshelf.trans (saved_of_none hevicts).symm⟩
  · rw [hreceipts, horder]
    exact updateAccessOrder_set h.order
  · rw [horder]
    exact h.named_after hid
  · rw [hreceipts]
    exact hfits

/-- A save that evicts takes the first of the order, and what is stored under it. -/
theorem Ordered.save_of_some (h : s.Ordered) (hid : receipt.receiptId ≠ "") {oldest : String}
    (hevicts : s.evicts receipt = some oldest) : (s.call (.save receipt)).Ordered ∧
      (s.call (.save receipt)).shelf = s.saved receipt := by
  have hlength := OrderedMap.length_set s.store.receipts receipt.receiptId receipt
  have hfirst := hevicts
  unfold evicts at hfirst
  split at hfirst
  · rename_i hfull
    rw [if_pos hfull.1, hfull.2] at hlength
    -- a new receipt goes to the end of the order, so the first of it stays first
    have hnew : receipt.receiptId ∉ s.store.accessOrder := fun hmem =>
      (mem_order_iff h.order).mp hmem hfull.1
    have horder : ∃ rest, updateAccessOrder s.store.accessOrder receipt.receiptId =
        oldest :: rest := by
      rw [updateAccessOrder_of_notMem hnew]
      exact List.head?_eq_some_iff.mp hfirst
    obtain ⟨rest, hrest⟩ := horder
    have hperm : (oldest :: rest).Perm
        ((s.store.receipts.set receipt.receiptId receipt).entries.map Prod.fst) :=
      hrest ▸ updateAccessOrder_set h.order
    have hnamed : "" ∉ oldest :: rest := hrest ▸ h.named_after hid
    have holdest : (s.store.receipts.set receipt.receiptId receipt).get oldest ≠ none :=
      (mem_order_iff hperm).mp (List.mem_cons_self ..)
    -- there is one too many, and the loop takes one
    have hone : evictReceipts _ (oldest :: rest) _
        (s.store.taskReceipts.set receipt.taskId receipt.receiptId) = _ := evictReceipts_one
      (fun heq => hnamed (heq ▸ List.mem_cons_self ..)) holdest hlength
    rw [← hrest] at hone
    obtain ⟨hreceipts, haccess, hshelf⟩ := shelf_save hone
    have hdelete := OrderedMap.length_delete holdest
    refine ⟨⟨?_, ?_, ?_⟩, hshelf.trans ?_⟩
    · rw [hreceipts, haccess]
      have herase : ((oldest :: rest).erase oldest).Perm _ := order_delete hperm
      rwa [List.erase_cons_head] at herase
    · rw [haccess]
      exact fun hmem => hnamed (List.mem_cons_of_mem _ hmem)
    · rw [hreceipts]
      show _ ≤ s.store.maxReceipts
      omega
    · rw [saved_of_some hevicts]
      unfold Shelf.drop Shelf.put
      dsimp only [shelf, taskOf]
      cases (s.store.receipts.set receipt.receiptId receipt).get oldest <;> rfl
  · cases hfirst

theorem Ordered.save (h : s.Ordered) (hid : receipt.receiptId ≠ "") :
    (s.call (.save receipt)).Ordered ∧ (s.call (.save receipt)).shelf = s.saved receipt := by
  cases hevicts : s.evicts receipt with
  | none => exact h.save_of_none hid hevicts
  | some oldest => exact h.save_of_some hid hevicts

theorem Kept.save (h : s.Kept) (hkeeps : s.KeepsIndex (.save receipt)) :
    (s.call (.save receipt)).Kept := by
  obtain ⟨hid, hover, halone⟩ := hkeeps
  obtain ⟨hordered, hshelf⟩ := h.toOrdered.save hid
  refine ⟨hordered, ?_⟩
  rw [hshelf]
  exact Shelf.indexed_putWithin h.indexed hover halone

theorem id_of_findsLatest (hfinds : (s.call (.save receipt)).FindsLatest) :
    receipt.receiptId ≠ "" := by
  intro hid
  have hstored : (s.call (.save receipt)).store.receipts.get "" = some receipt := by
    have hget := @get_empty_evictReceipts s.store.maxReceipts
      (updateAccessOrder s.store.accessOrder receipt.receiptId)
      (s.store.receipts.set receipt.receiptId receipt)
      (s.store.taskReceipts.set receipt.taskId receipt.receiptId)
    rw [hid, OrderedMap.get_set_self] at hget
    rw [← hget, ← hid]
    rfl
  have hnothing : ((s.call (.save receipt)).store.getByTaskId receipt.taskId).2.data? = none := by
    unfold InMemoryReceiptStore.getByTaskId
    cases hindex : (s.call (.save receipt)).store.taskReceipts.get receipt.taskId with
    | none => rfl
    | some id =>
        have hset := index_evictReceipts hindex
        rw [OrderedMap.get_set_self, hid] at hset
        cases hset
        rfl
  exact hfinds.missing receipt.taskId hnothing "" receipt hstored rfl

theorem index_saved (h : s.Kept) (hid : receipt.receiptId ≠ "") (taskId : String) :
    (s.call (.save receipt)).store.taskReceipts.get taskId ≠ some "" := by
  intro hindex
  have hset := index_evictReceipts hindex
  rw [OrderedMap.get_set] at hset
  split at hset
  · exact hid (Option.some.inj hset)
  · exact h.index_named taskId hset

theorem Kept.keeps_of_save (h : s.Kept) (hfinds : (s.call (.save receipt)).FindsLatest) :
    s.KeepsIndex (.save receipt) := by
  have hid := id_of_findsLatest hfinds
  have hshelf := (h.toOrdered.save hid).2
  rw [findsLatest_iff (index_saved h hid), hshelf] at hfinds
  have hnew : s.evicts receipt ≠ none → s.store.receipts.get receipt.receiptId = none := by
    unfold evicts
    split
    · rename_i hfull
      exact fun _ => hfull.1
    · exact fun hne => absurd rfl hne
  exact ⟨hid, Shelf.keeps_of_finds_putWithin h.indexed hnew hfinds⟩

theorem delete_of_none (h : s.store.receipts.get receiptId = none) :
    s.call (.delete receiptId) = s := by
  have hstore : (s.store.delete receiptId).1 = s.store := by
    unfold InMemoryReceiptStore.delete
    rw [h]
  show (⟨(s.store.delete receiptId).1, s.saves⟩ : ReceiptRun) = s
  rw [hstore]

theorem shelf_delete (hstored : s.store.receipts.get receiptId = some receipt) :
    (s.call (.delete receiptId)).shelf = s.shelf.drop taskOf receiptId ∧
      (s.call (.delete receiptId)).store.accessOrder =
        s.store.accessOrder.filter (· ≠ receiptId) ∧
      (s.call (.delete receiptId)).store.maxReceipts = s.store.maxReceipts := by
  unfold call InMemoryReceiptStore.call InMemoryReceiptStore.delete Shelf.drop
  dsimp only [shelf]
  rw [hstored]
  exact ⟨rfl, rfl, rfl⟩

theorem Ordered.delete (h : s.Ordered) (hstored : s.store.receipts.get receiptId = some receipt) :
    (s.call (.delete receiptId)).Ordered := by
  obtain ⟨hshelf, horder, hmax⟩ := shelf_delete hstored
  have hreceipts : (s.call (.delete receiptId)).store.receipts = s.store.receipts.delete receiptId :=
    congrArg Shelf.records hshelf
  refine ⟨?_, ?_, ?_⟩
  · rw [horder, hreceipts]
    have hnodup : s.store.accessOrder.Nodup := h.order.nodup_iff.mpr s.store.receipts.nodup
    have herase : s.store.accessOrder.filter (· ≠ receiptId) = s.store.accessOrder.erase receiptId :=
      filter_ne_eq_erase hnodup
    rw [herase]
    exact order_delete h.order
  · rw [horder]
    exact fun hmem => h.named (List.mem_of_mem_filter hmem)
  · have hlength := OrderedMap.length_delete (m := s.store.receipts) (k := receiptId)
      (by rw [hstored]; exact Option.some_ne_none receipt)
    have hwithin := h.within
    rw [hreceipts, hmax]
    omega

theorem Kept.access (h : s.Kept) (hstored : s.store.receipts.get receiptId ≠ none) :
    Kept ⟨{ s.store with accessOrder := updateAccessOrder s.store.accessOrder receiptId },
      s.saves⟩ := by
  have hmem : receiptId ∈ s.store.accessOrder := (mem_order_iff h.order).mpr hstored
  have hperm := updateAccessOrder_perm (h.order.nodup_iff.mpr s.store.receipts.nodup) hmem
  exact ⟨⟨hperm.trans h.order, fun hempty => h.named (hperm.mem_iff.mp hempty), h.within⟩,
    h.indexed⟩

theorem Kept.get (h : s.Kept) (receiptId : String) :
    Kept ⟨(s.store.get receiptId).1, s.saves⟩ := by
  unfold InMemoryReceiptStore.get
  split
  · exact h
  · rename_i receipt hstored
    exact h.access (by rw [hstored]; exact Option.some_ne_none receipt)

/-- **A call that keeps the index right** keeps what the calls keep. -/
theorem Kept.call (h : s.Kept) {call : InMemoryReceiptStore.Call} (hkeeps : s.KeepsIndex call) :
    (s.call call).Kept := by
  cases call with
  | save receipt => exact h.save hkeeps
  | get receiptId => exact h.get receiptId
  | getByTaskId taskId =>
      show Kept ⟨(s.store.getByTaskId taskId).1, s.saves⟩
      unfold InMemoryReceiptStore.getByTaskId
      split
      · exact h
      · exact h.get _
  | delete receiptId =>
      cases hstored : s.store.receipts.get receiptId with
      | none =>
          rw [delete_of_none hstored]
          exact h
      | some receipt =>
          refine ⟨h.toOrdered.delete hstored, ?_⟩
          rw [(shelf_delete hstored).1]
          exact Shelf.indexed_drop h.indexed hkeeps

/-- A call after which lookups find the latest receipts has kept the index right. -/
theorem Kept.keeps_of_findsLatest (h : s.Kept) {call : InMemoryReceiptStore.Call}
    (hfinds : (s.call call).FindsLatest) : s.KeepsIndex call := by
  cases call with
  | save receipt => exact h.keeps_of_save hfinds
  | get receiptId => exact trivial
  | getByTaskId taskId => exact trivial
  | delete receiptId =>
      cases hstored : s.store.receipts.get receiptId with
      | none =>
          intro receipt t hget
          exact absurd (hget.symm.trans hstored) (Option.some_ne_none receipt)
      | some receipt =>
          have hshelf := (shelf_delete hstored).1
          have hnamed : ∀ taskId, (s.call (.delete receiptId)).store.taskReceipts.get taskId ≠
              some "" := by
            intro taskId
            have hindex : (s.call (.delete receiptId)).store.taskReceipts =
                (s.shelf.drop taskOf receiptId).index := congrArg Shelf.index hshelf
            rw [hindex, Shelf.index_drop]
            split
            · exact nofun
            · exact h.index_named taskId
          rw [findsLatest_iff hnamed, hshelf] at hfinds
          exact Shelf.alone_of_finds hfinds

theorem kept_new (maxReceipts : Option Nat) : (new maxReceipts).Kept :=
  ⟨⟨List.Perm.refl _, nofun, Nat.zero_le _⟩,
    Shelf.indexed_of_empty (fun _ => rfl) fun _ => rfl⟩

theorem findsLatest_iff_stepsMeet (maxReceipts : Option Nat)
    (calls : List InMemoryReceiptStore.Call) :
    StepsMeet call KeepsIndex (new maxReceipts) calls ↔
      ∀ ks, ks <+: calls → (run call (new maxReceipts) ks).FindsLatest :=
  stepsMeet_iff_of (fun _ h => h.findsLatest) (fun _ _ h hkeeps => h.call hkeeps)
    (fun _ _ h hfinds => h.keeps_of_findsLatest hfinds) (kept_new maxReceipts)

end ReceiptRun

end TypeScript

end MapProtocol.Sdk
