import MapProtocol.Lib.Descending
import MapProtocol.Lib.FullPages
import MapProtocol.Lib.OrderedMap
import MapProtocol.Protocol.Types
import MapProtocol.Py.Operators

/-!
# Stores in memory

`InMemoryTaskStore` and `InMemoryReceiptStore` of the TypeScript package. A page is cut from the
records sorted by time, and begins where the cursor stands among the ids in the order of their last
access. The two orders have to agree at the end of each full page (`store_pages_iff`).
-/

namespace MapProtocol.Sdk.TypeScript

open Py (given)

inductive StorageResult (α : Type) where
  | ok (data : α)
  | failed (error : String)
  deriving DecidableEq, Repr

/-! ## The order of access -/

def updateAccessOrder (accessOrder : List String) (id : String) : List String :=
  accessOrder.filter (· ≠ id) ++ [id]

/-- `this.accessOrder.indexOf(cursor) + 1`, for a cursor that is not empty. -/
def cursorIndex (accessOrder : List String) (cursor : String) : Nat :=
  if cursor = "" then 0 else ((accessOrder.idxOf? cursor).map (· + 1)).getD 0

def paginate {α : Type} (id : α → String) (accessOrder : List String) (limit : Nat)
    (cursor : Option String) (records : List α) : List α × Option String :=
  let start := (cursor.map (cursorIndex accessOrder)).getD 0
  let paginated := (records.drop start).take limit
  -- a full page has a cursor even where nothing follows
  (paginated, if paginated.length = limit then paginated.getLast?.map id else none)

def asked (text : Option String) (property : Option String) : Bool :=
  match given text with
  | some text => property == some text
  | none      => true

/-! ## Tasks -/

/-- What a store reads of a task. The time is the one that `toISOString` writes. -/
structure TaskRecord where
  taskId            : String
  requesterIdentity : RequesterIdentity
  capability        : String
  targetAgent       : String
  status            : TaskStatus
  updatedAt         : Int
  deriving DecidableEq

structure TaskFilter where
  tenantId   : Option String := none
  status     : Option String := none
  capability : Option String := none
  agentId    : Option String := none
  limit      : Option Nat    := none
  cursor     : Option String := none

structure InMemoryTaskStore where
  tasks       : OrderedMap String TaskRecord
  maxTasks    : Nat
  accessOrder : List String
  keyed       : ∀ id task, tasks.get id = some task → task.taskId = id

/-- The loop of `evictIfNeeded`. An empty id is taken off the order, but not out of the map. -/
def evictTasks (maxTasks : Nat) :
    List String → OrderedMap String TaskRecord → OrderedMap String TaskRecord × List String
  | [], tasks                      => (tasks, [])
  | oldestId :: accessOrder, tasks =>
      if maxTasks < tasks.entries.length then
        evictTasks maxTasks accessOrder (if oldestId = "" then tasks else tasks.delete oldestId)
      else (tasks, oldestId :: accessOrder)

theorem get_evictTasks {maxTasks : Nat} {accessOrder : List String}
    {tasks : OrderedMap String TaskRecord} {id : String} {task : TaskRecord}
    (h : (evictTasks maxTasks accessOrder tasks).1.get id = some task) :
    tasks.get id = some task := by
  induction accessOrder generalizing tasks with
  | nil => exact h
  | cons oldestId accessOrder ih =>
      rw [evictTasks] at h
      split at h
      · have hget := ih h
        split at hget
        · exact hget
        · rw [OrderedMap.get_delete] at hget
          split at hget
          · cases hget
          · exact hget
      · exact h

namespace InMemoryTaskStore

def new (maxTasks : Option Nat) : InMemoryTaskStore where
  tasks       := .empty
  maxTasks    := maxTasks.getD 10000
  accessOrder := []
  keyed       := nofun

/-- `save`, at the time `now`. -/
def save (store : InMemoryTaskStore) (task : TaskRecord) (now : Int) :
    InMemoryTaskStore × StorageResult TaskRecord :=
  -- the copy that is stored has the new time, the one that is returned has not
  let tasks := store.tasks.set task.taskId { task with updatedAt := now }
  let evicted := evictTasks store.maxTasks (updateAccessOrder store.accessOrder task.taskId) tasks
  ({ tasks := evicted.1
     maxTasks := store.maxTasks
     accessOrder := evicted.2
     keyed := by
      intro id saved h
      have hget := get_evictTasks h
      rw [OrderedMap.get_set] at hget
      split at hget
      · cases hget
        assumption
      · exact store.keyed id saved hget }, .ok task)

def get (store : InMemoryTaskStore) (taskId : String) :
    InMemoryTaskStore × StorageResult TaskRecord :=
  match store.tasks.get taskId with
  | none      => (store, .failed ("Task not found: " ++ taskId))
  | some task =>
      ({ store with accessOrder := updateAccessOrder store.accessOrder taskId }, .ok task)

def delete (store : InMemoryTaskStore) (taskId : String) :
    InMemoryTaskStore × StorageResult Unit :=
  match store.tasks.get taskId with
  | none   => (store, .failed ("Task not found: " ++ taskId))
  | some _ =>
      ({ tasks := store.tasks.delete taskId
         maxTasks := store.maxTasks
         accessOrder := store.accessOrder.filter (· ≠ taskId)
         keyed := by
          intro id task h
          rw [OrderedMap.get_delete] at h
          split at h
          · cases h
          · exact store.keyed id task h }, .ok ())

/-- The tasks that pass the filter, the latest first. -/
def matching (store : InMemoryTaskStore) (filter : TaskFilter) : List TaskRecord :=
  sortDescending TaskRecord.updatedAt (store.tasks.values.filter fun t =>
    asked filter.tenantId t.requesterIdentity.tenantId && asked filter.status t.status.text &&
      asked filter.capability t.capability && asked filter.agentId t.targetAgent)

def list (store : InMemoryTaskStore) (filter : TaskFilter) : List TaskRecord × Option String :=
  paginate TaskRecord.taskId store.accessOrder (filter.limit.getD 50) filter.cursor
    (store.matching filter)

inductive Call where
  | save (task : TaskRecord) (now : Int)
  | get (taskId : String)
  | delete (taskId : String)

def call (store : InMemoryTaskStore) : Call → InMemoryTaskStore
  | .save task now => (store.save task now).1
  | .get taskId    => (store.get taskId).1
  | .delete taskId => (store.delete taskId).1

def run (store : InMemoryTaskStore) (calls : List Call) : InMemoryTaskStore :=
  calls.foldl call store

end InMemoryTaskStore

/-! ## Receipts -/

/-- What a store reads of a receipt. -/
structure ExecutionReceipt where
  receiptId : String
  taskId    : String
  tenantId  : Option String
  agentId   : String
  timestamp : String
  deriving DecidableEq

structure ReceiptFilter where
  tenantId : Option String := none
  agentId  : Option String := none
  limit    : Option Nat    := none
  cursor   : Option String := none

/-- What the host makes of the times: `Date.parse`, and `sort` by them, which is up to it where a time
is not one. -/
structure DateHost where
  parse  : String → Option Int
  sort   : List ExecutionReceipt → List ExecutionReceipt
  perm   : ∀ receipts, (sort receipts).Perm receipts
  stable : ∀ receipts : List ExecutionReceipt, (∀ r ∈ receipts, (parse r.timestamp).isSome) →
    sort receipts = sortDescending (fun r => (parse r.timestamp).getD 0) receipts

structure InMemoryReceiptStore where
  receipts     : OrderedMap String ExecutionReceipt
  taskReceipts : OrderedMap String String
  maxReceipts  : Nat
  accessOrder  : List String
  keyed        : ∀ id receipt, receipts.get id = some receipt → receipt.receiptId = id

/-- The loop of `evictIfNeeded`. -/
def evictReceipts (maxReceipts : Nat) :
    List String → OrderedMap String ExecutionReceipt → OrderedMap String String →
      OrderedMap String ExecutionReceipt × OrderedMap String String × List String
  | [], receipts, taskReceipts                      => (receipts, taskReceipts, [])
  | oldestId :: accessOrder, receipts, taskReceipts =>
      if maxReceipts < receipts.entries.length then
        if oldestId = "" then evictReceipts maxReceipts accessOrder receipts taskReceipts
        else
          evictReceipts maxReceipts accessOrder (receipts.delete oldestId)
            (match receipts.get oldestId with
              | some receipt => taskReceipts.delete receipt.taskId
              | none         => taskReceipts)
      else (receipts, taskReceipts, oldestId :: accessOrder)

theorem get_evictReceipts {maxReceipts : Nat} {accessOrder : List String}
    {receipts : OrderedMap String ExecutionReceipt} {taskReceipts : OrderedMap String String}
    {id : String} {receipt : ExecutionReceipt}
    (h : (evictReceipts maxReceipts accessOrder receipts taskReceipts).1.get id = some receipt) :
    receipts.get id = some receipt := by
  induction accessOrder generalizing receipts taskReceipts with
  | nil => exact h
  | cons oldestId accessOrder ih =>
      rw [evictReceipts] at h
      split at h
      · split at h
        · exact ih h
        · have hget := ih h
          rw [OrderedMap.get_delete] at hget
          split at hget
          · cases hget
          · exact hget
      · exact h

namespace InMemoryReceiptStore

def new (maxReceipts : Option Nat) : InMemoryReceiptStore where
  receipts     := .empty
  taskReceipts := .empty
  maxReceipts  := maxReceipts.getD 50000
  accessOrder  := []
  keyed        := nofun

def save (store : InMemoryReceiptStore) (receipt : ExecutionReceipt) :
    InMemoryReceiptStore × StorageResult ExecutionReceipt :=
  let receipts := store.receipts.set receipt.receiptId receipt
  let taskReceipts := store.taskReceipts.set receipt.taskId receipt.receiptId
  let evicted := evictReceipts store.maxReceipts
    (updateAccessOrder store.accessOrder receipt.receiptId) receipts taskReceipts
  ({ receipts := evicted.1
     taskReceipts := evicted.2.1
     maxReceipts := store.maxReceipts
     accessOrder := evicted.2.2
     keyed := by
      intro id saved h
      have hget := get_evictReceipts h
      rw [OrderedMap.get_set] at hget
      split at hget
      · cases hget
        assumption
      · exact store.keyed id saved hget }, .ok receipt)

def get (store : InMemoryReceiptStore) (receiptId : String) :
    InMemoryReceiptStore × StorageResult ExecutionReceipt :=
  match store.receipts.get receiptId with
  | none         => (store, .failed ("Receipt not found: " ++ receiptId))
  | some receipt =>
      ({ store with accessOrder := updateAccessOrder store.accessOrder receiptId }, .ok receipt)

def getByTaskId (store : InMemoryReceiptStore) (taskId : String) :
    InMemoryReceiptStore × StorageResult ExecutionReceipt :=
  match given (store.taskReceipts.get taskId) with
  | none           => (store, .failed ("Receipt not found for task: " ++ taskId))
  | some receiptId => store.get receiptId

def delete (store : InMemoryReceiptStore) (receiptId : String) :
    InMemoryReceiptStore × StorageResult Unit :=
  match store.receipts.get receiptId with
  | none         => (store, .failed ("Receipt not found: " ++ receiptId))
  | some receipt =>
      ({ receipts := store.receipts.delete receiptId
         taskReceipts := store.taskReceipts.delete receipt.taskId
         maxReceipts := store.maxReceipts
         accessOrder := store.accessOrder.filter (· ≠ receiptId)
         keyed := by
          intro id saved h
          rw [OrderedMap.get_delete] at h
          split at h
          · cases h
          · exact store.keyed id saved h }, .ok ())

/-- The receipts that pass the filter, the latest first. -/
def matching (host : DateHost) (store : InMemoryReceiptStore) (filter : ReceiptFilter) :
    List ExecutionReceipt :=
  host.sort (store.receipts.values.filter fun r =>
    asked filter.tenantId r.tenantId &&
      asked filter.agentId r.agentId)

def list (host : DateHost) (store : InMemoryReceiptStore) (filter : ReceiptFilter) :
    List ExecutionReceipt × Option String :=
  paginate ExecutionReceipt.receiptId store.accessOrder (filter.limit.getD 50) filter.cursor
    (store.matching host filter)

inductive Call where
  | save (receipt : ExecutionReceipt)
  | get (receiptId : String)
  | getByTaskId (taskId : String)
  | delete (receiptId : String)

def call (store : InMemoryReceiptStore) : Call → InMemoryReceiptStore
  | .save receipt       => (store.save receipt).1
  | .get receiptId      => (store.get receiptId).1
  | .getByTaskId taskId => (store.getByTaskId taskId).1
  | .delete receiptId   => (store.delete receiptId).1

def run (store : InMemoryReceiptStore) (calls : List Call) : InMemoryReceiptStore :=
  calls.foldl call store

end InMemoryReceiptStore

/-! ## Following the cursors -/

/-- Following the cursors from the first page ends, and has read all records once and in order. -/
def ReadsAll {α : Type} (page : Option String → List α × Option String) (records : List α) : Prop :=
  ∃ fuel, followPages page fuel none = some records

/-- The id of a record that ends a full page has the place in the order of access that the record has
in the listing; where the listing ends with it, a place that is not before that one. -/
def PageEndsPlaced {α : Type} (id : α → String) (accessOrder : List String) (limit : Nat)
    (records : List α) : Prop :=
  ∀ k record, records[(k + 1) * limit - 1]? = some record → id record ≠ "" ∧
    ∃ i, accessOrder.idxOf? (id record) = some i ∧
      ((k + 1) * limit < records.length → i + 1 = (k + 1) * limit) ∧
      ((k + 1) * limit = records.length → records.length ≤ i + 1)

section Pages

variable {α : Type} {id : α → String} {accessOrder : List String} {limit : Nat} {records : List α}

def fullPages (id : α → String) (accessOrder : List String) (records : List α) :
    FullPages α String where
  items    := records
  cursorOf := id
  startOf  := cursorIndex accessOrder

theorem cursorIndex_pos_iff {cursor : String} {n : Nat} (hn : 1 ≤ n) (p : Nat → Prop)
    (hp : ∀ m, p m → n ≤ m) :
    p (cursorIndex accessOrder cursor) ↔
      cursor ≠ "" ∧ ∃ i, accessOrder.idxOf? cursor = some i ∧ p (i + 1) := by
  have hzero : ¬ p 0 := fun h => absurd (hp 0 h) (by omega)
  unfold cursorIndex
  by_cases hempty : cursor = ""
  · simp [hempty, hzero]
  · cases hindex : accessOrder.idxOf? cursor <;> simp [hempty, hzero]

theorem cursorsLead_iff (hlimit : 1 ≤ limit) :
    (fullPages id accessOrder records).CursorsLead limit ↔
      PageEndsPlaced id accessOrder limit records := by
  unfold FullPages.CursorsLead PageEndsPlaced
  refine forall₃_congr fun k record hrecord => ?_
  have hle : limit ≤ (k + 1) * limit := Nat.le_mul_of_pos_left _ (Nat.succ_pos k)
  have hplace : (k + 1) * limit - 1 < records.length := (List.getElem?_eq_some_iff.mp hrecord).1
  have hiff := @cursorIndex_pos_iff accessOrder (id record) 1 (Nat.le_refl 1)
    (fun m => ((k + 1) * limit < records.length → m = (k + 1) * limit) ∧
      ((k + 1) * limit = records.length → records.length ≤ m)) fun m hm => by
        rcases Nat.lt_or_ge ((k + 1) * limit) records.length with hmore | hend
        · have hm := hm.1 hmore
          omega
        · have hm := hm.2 (by omega)
          omega
  exact hiff

/-- **When the pages of a store cover its listing.** -/
theorem readsAll_iff (hlimit : 1 ≤ limit) (hnodup : records.Nodup) :
    ReadsAll (fun cursor => paginate id accessOrder limit cursor records) records ↔
      PageEndsPlaced id accessOrder limit records := by
  rw [← cursorsLead_iff hlimit]
  exact FullPages.readsAll_iff (l := fullPages id accessOrder records) hlimit hnodup

theorem nodup_values {m : OrderedMap String α} (h : ∀ key v, m.get key = some v → id v = key) :
    m.values.Nodup := by
  have hkeys : m.values.map id = m.entries.map Prod.fst := by
    unfold OrderedMap.values
    rw [List.map_map]
    refine List.map_congr_left fun e he => ?_
    exact h e.1 e.2 ((OrderedMap.get_eq_some).mpr he)
  exact List.Nodup.of_map id (hkeys ▸ m.nodup)

end Pages

theorem InMemoryTaskStore.nodup_matching (store : InMemoryTaskStore) (filter : TaskFilter) :
    (store.matching filter).Nodup :=
  (sortDescending_perm _ _).nodup_iff.mpr ((nodup_values store.keyed).filter _)

theorem InMemoryTaskStore.readsAll_iff (store : InMemoryTaskStore) (filter : TaskFilter)
    (hlimit : 1 ≤ filter.limit.getD 50) :
    ReadsAll (fun cursor => store.list { filter with cursor }) (store.matching filter) ↔
      PageEndsPlaced TaskRecord.taskId store.accessOrder (filter.limit.getD 50)
        (store.matching filter) :=
  TypeScript.readsAll_iff hlimit (store.nodup_matching filter)

theorem InMemoryReceiptStore.nodup_matching (host : DateHost) (store : InMemoryReceiptStore)
    (filter : ReceiptFilter) : (store.matching host filter).Nodup :=
  (host.perm _).nodup_iff.mpr ((nodup_values store.keyed).filter _)

/-- **The pages cover the listing exactly when the two orders agree at the ends of the pages,** after
any calls, with any filter, in both stores. -/
theorem store_pages_iff {limit : Nat} (hlimit : 1 ≤ limit) :
    (∀ (maxTasks : Option Nat) (calls : List InMemoryTaskStore.Call) (filter : TaskFilter),
      filter.limit.getD 50 = limit →
      let store := (InMemoryTaskStore.new maxTasks).run calls
      ReadsAll (fun cursor => store.list { filter with cursor }) (store.matching filter) ↔
        PageEndsPlaced TaskRecord.taskId store.accessOrder limit (store.matching filter)) ∧
    ∀ (host : DateHost) (maxReceipts : Option Nat) (calls : List InMemoryReceiptStore.Call)
        (filter : ReceiptFilter), filter.limit.getD 50 = limit →
      let store := (InMemoryReceiptStore.new maxReceipts).run calls
      ReadsAll (fun cursor => store.list host { filter with cursor }) (store.matching host filter) ↔
        PageEndsPlaced ExecutionReceipt.receiptId store.accessOrder limit
          (store.matching host filter) := by
  constructor
  · rintro maxTasks calls filter rfl
    exact InMemoryTaskStore.readsAll_iff _ filter hlimit
  · rintro host maxReceipts calls filter rfl
    exact readsAll_iff hlimit (InMemoryReceiptStore.nodup_matching host _ filter)

/-- A task of someone, as it is saved. -/
def taskNamed (taskId : String) (updatedAt : Int) : TaskRecord where
  taskId            := taskId
  requesterIdentity := { type := .user, id := "u", tenantId := none }
  capability        := "c"
  targetAgent       := "a"
  status            := .running
  updatedAt         := updatedAt

/-- Three tasks on two pages; the task that ends the first is in the middle of both orders. -/
theorem store_pages_iff_sample :
    let store := (InMemoryTaskStore.new none).run
      [.save (taskNamed "t1" 0) 1, .save (taskNamed "t2" 0) 2, .save (taskNamed "t3" 0) 3]
    ReadsAll (fun cursor => store.list { limit := some 2, cursor })
      [taskNamed "t3" 3, taskNamed "t2" 2, taskNamed "t1" 1] := by
  intro store
  have hmatching : store.matching { limit := some 2 } =
      [taskNamed "t3" 3, taskNamed "t2" 2, taskNamed "t1" 1] := by
    have hfalls : Descending TaskRecord.updatedAt
        [taskNamed "t3" 3, taskNamed "t2" 2, taskNamed "t1" 1] := by
      simp [Descending, taskNamed]
    exact hfalls.sortDescending_eq (List.reverse_perm
      [taskNamed "t3" 3, taskNamed "t2" 2, taskNamed "t1" 1])
  have hpages := (store_pages_iff (by decide)).1 none [.save (taskNamed "t1" 0) 1,
    .save (taskNamed "t2" 0) 2, .save (taskNamed "t3" 0) 3] { limit := some 2 } rfl
  have hread := hpages.mpr (by
    rw [hmatching]
    intro k record hrecord
    cases k with
    | zero =>
        obtain rfl : taskNamed "t2" 2 = record := Option.some.inj hrecord
        exact ⟨by decide, 1, rfl, fun _ => rfl, fun h => absurd h (by decide)⟩
    | succ k =>
        have hplace : 3 ≤ (k + 1 + 1) * 2 - 1 := by omega
        have hnone := hrecord.symm.trans (List.getElem?_eq_none hplace)
        cases hnone)
  rw [hmatching] at hread
  exact hread

/-- The latest task is listed first and stands last in the order of access, so that its cursor skips
the other one. -/
theorem store_pages_fail :
    ¬ ∀ (maxTasks : Option Nat) (calls : List InMemoryTaskStore.Call) (filter : TaskFilter),
      1 ≤ filter.limit.getD 50 →
        let store := (InMemoryTaskStore.new maxTasks).run calls
        ReadsAll (fun cursor => store.list { filter with cursor }) (store.matching filter) := by
  intro h
  have hread := h none [.save (taskNamed "t1" 0) 1, .save (taskNamed "t2" 0) 2] { limit := some 1 }
    (by decide)
  have hplaced := (InMemoryTaskStore.readsAll_iff _ { limit := some 1 } (by decide)).mp hread
  have hmatching : ((InMemoryTaskStore.new none).run
      [.save (taskNamed "t1" 0) 1, .save (taskNamed "t2" 0) 2]).matching { limit := some 1 } =
        [taskNamed "t2" 2, taskNamed "t1" 1] := by
    have hfalls : Descending TaskRecord.updatedAt [taskNamed "t2" 2, taskNamed "t1" 1] := by
      simp [Descending, taskNamed]
    exact hfalls.sortDescending_eq (List.Perm.swap _ _ [])
  rw [hmatching] at hplaced
  obtain ⟨-, i, hi, hmore, -⟩ := hplaced 0 _ rfl
  have hplace : i + 1 = 1 := hmore (by decide)
  have hsecond : some 1 = some i := hi
  cases hsecond
  cases hplace

end MapProtocol.Sdk.TypeScript
