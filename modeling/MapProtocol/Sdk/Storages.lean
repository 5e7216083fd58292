import MapProtocol.Lib.Descending
import MapProtocol.Py.Operators
import Mathlib.Data.String.Basic

/-!
# Storages of the Python package

`InMemoryStorage`, `FileStorage` and `SQLiteStorage`. A record is a JSON object, and what a file or
a row holds of it is read back as it was. The limits of the storage in memory are not reached. An
answer keeps whether the call went well and the records it returns, but not the text of an error.
-/

namespace MapProtocol.Sdk.Python

open Js (startsWith endsWith)
open Py

/-- A record whose id, where it has one, is a text. It is the name of a file. -/
structure Identified (key : String) where
  members : Dict
  text    : ∀ v, OrderedMap.getEntries key members = some v → v.truthy = true →
    ∃ s, v = .str s

/-- The id, if it is true. -/
def Identified.id? {key : String} (record : Identified key) : Option String :=
  match OrderedMap.getEntries key record.members with
  | some (.str s) => if s = "" then none else some s
  | _             => none

inductive StorageResult where
  | failed
  | done
  | record (data : Dict)
  | page (data : List Dict)

inductive StorageCall where
  | saveTask (task : Identified "task_id") (now : String)
  | getTask (taskId : String)
  | listTasks (tenantId status : Option String) (limit : Int) (cursor : Option String)
  | deleteTask (taskId : String)
  | saveReceipt (receipt : Identified "receipt_id") (now : String)
  | getReceipt (receiptId : String)
  | getReceiptByTaskId (taskId : String)
  | listReceipts (tenantId agentId : Option String) (limit : Int) (cursor : Option String)

/-- What the storages rest on: the orders in which a directory is listed and the rows of a table
are met, the text of a value in a file name, the text of a number in a column, where SQLite takes
it, and the text of a JSON array or object. -/
structure Host where
  listdir      : List String → List String
  listdir_perm : ∀ names, (listdir names).Perm names
  scan         : {α : Type} → List α → List α
  scan_perm    : ∀ {α : Type} (rows : List α), (scan rows).Perm rows
  format       : Value → String
  format_str   : ∀ s, format (.str s) = s
  column       : Value → Option String
  json         : Value → String

/-! ## Lists -/

/-- `d.get(key)`. -/
def member (key : String) (d : Dict) : Value := (OrderedMap.getEntries key d).getD .none

/-- Does the member have the text that is asked for? -/
def hasText (key : String) (text : Option String) (d : Dict) : Bool :=
  match given text with
  | some s => (member key d).equals (.str s)
  | none   => true

/-- The filter of tasks; `none` is the error of a requester that is no object. -/
def taskPasses (tenantId status : Option String) (task : Dict) : Option Bool :=
  match given tenantId with
  | none   => some (hasText "status" status task)
  | some _ =>
      match (OrderedMap.getEntries "requester_identity" task).getD (.dict []) with
      | .dict requester => some (hasText "tenant_id" tenantId requester &&
          hasText "status" status task)
      | _               => none

def receiptPasses (tenantId agentId : Option String) (receipt : Dict) : Bool :=
  hasText "tenant_id" tenantId receipt && hasText "agent_id" agentId receipt

/-- The records that pass, if no check raises. -/
def passing (passes : Dict → Option Bool) : List Dict → Option (List Dict)
  | []      => some []
  | d :: ds => do
      let passed ← passes d
      let rest ← passing passes ds
      return if passed then d :: rest else rest

/-- `xs[start:stop]`. -/
def slice {α : Type} (xs : List α) (start : Nat) (stop : Int) : List α :=
  (xs.take (if 0 ≤ stop then stop.toNat else (xs.length + stop).toNat)).drop start

/-- The page behind the first record with the cursor's id. -/
def pageAfter (key : String) (limit : Int) (cursor : Option String) (records : List Dict) :
    List Dict :=
  let start := match given cursor with
    | some id => ((records.findIdx? fun d => (member key d).equals (.str id)).map (· + 1)).getD 0
    | none    => 0
  slice records start (start + limit)

/-! ## In memory -/

structure InMemoryStorage where
  tasks        : OrderedMap String Dict   := .empty
  taskIndex    : List String              := []
  receipts     : OrderedMap String Dict   := .empty
  taskReceipts : OrderedMap String String := .empty
  receiptIndex : List String              := []

namespace InMemoryStorage

def insertIndex (id : String) (index : List String) : List String :=
  if id ∈ index then index else index ++ [id]

def saveTask (s : InMemoryStorage) (task : Identified "task_id") (now : String) :
    InMemoryStorage × StorageResult :=
  match task.id? with
  | none    => (s, .failed)
  | some id =>
      let task := OrderedMap.setEntries "updated_at" (.str now) task.members
      ({ s with
          tasks     := s.tasks.set id task
          taskIndex := insertIndex id s.taskIndex }, .record task)

/-- No record is empty, so that `not task` asks only whether there is one. -/
def getTask (s : InMemoryStorage) (taskId : String) : StorageResult :=
  match s.tasks.get taskId with
  | some task => .record task
  | none      => .failed

def listTasks (s : InMemoryStorage) (tenantId status : Option String) (limit : Int)
    (cursor : Option String) : StorageResult :=
  match passing (taskPasses tenantId status) (s.taskIndex.filterMap s.tasks.get) with
  | some filtered => .page (pageAfter "task_id" limit cursor filtered)
  | none          => .failed

def deleteTask (s : InMemoryStorage) (taskId : String) : InMemoryStorage × StorageResult :=
  if (s.tasks.get taskId).isNone then (s, .failed)
  else ({ s with
      tasks     := s.tasks.delete taskId
      taskIndex := s.taskIndex.erase taskId }, .done)

/-- A task id that is an array or an object is no key: the receipt is stored and not indexed. One
that is a number is never asked for. -/
def saveReceipt (s : InMemoryStorage) (receipt : Identified "receipt_id") :
    InMemoryStorage × StorageResult :=
  match receipt.id? with
  | none    => (s, .failed)
  | some id =>
      let s := { s with receipts := s.receipts.set id receipt.members }
      let taskId := member "task_id" receipt.members
      if taskId.truthy && !taskId.hashable then (s, .failed)
      else ({ s with
          taskReceipts := match taskId with
            | .str t => if t = "" then s.taskReceipts else s.taskReceipts.set t id
            | _      => s.taskReceipts
          receiptIndex := insertIndex id s.receiptIndex }, .record receipt.members)

def getReceipt (s : InMemoryStorage) (receiptId : String) : StorageResult :=
  match s.receipts.get receiptId with
  | some receipt => .record receipt
  | none         => .failed

def getReceiptByTaskId (s : InMemoryStorage) (taskId : String) : StorageResult :=
  match s.taskReceipts.get taskId with
  | some receiptId => s.getReceipt receiptId
  | none           => .failed

def listReceipts (s : InMemoryStorage) (tenantId agentId : Option String) (limit : Int)
    (cursor : Option String) : StorageResult :=
  .page (pageAfter "receipt_id" limit cursor
    ((s.receiptIndex.filterMap s.receipts.get).filter (receiptPasses tenantId agentId)))

def call (s : InMemoryStorage) : StorageCall → InMemoryStorage × StorageResult
  | .saveTask task now                           => s.saveTask task now
  | .getTask taskId                              => (s, s.getTask taskId)
  | .listTasks tenantId status limit cursor      => (s, s.listTasks tenantId status limit cursor)
  | .deleteTask taskId                           => s.deleteTask taskId
  | .saveReceipt receipt _                       => s.saveReceipt receipt
  | .getReceipt receiptId                        => (s, s.getReceipt receiptId)
  | .getReceiptByTaskId taskId                   => (s, s.getReceiptByTaskId taskId)
  | .listReceipts tenantId agentId limit cursor  =>
      (s, s.listReceipts tenantId agentId limit cursor)

end InMemoryStorage

/-! ## Files -/

/-- The files of the two directories, by name. -/
structure FileStorage where
  tasks    : OrderedMap String Dict := .empty
  receipts : OrderedMap String Dict := .empty

def fileName (id : String) : String := id ++ ".json"

def mappingName (taskId : String) : String := "task-" ++ taskId ++ ".json"

/-- The text of a member, as the key of an order; a member that is not there is the empty text. -/
def textAt (key : String) (d : Dict) : String :=
  match OrderedMap.getEntries key d with
  | some (.str s) => s
  | _             => ""

/-- `records.sort(key=lambda d: d.get(key, ""), reverse=True)`. Texts are ordered among themselves,
and so are numbers; others raise. -/
def sortBy (key : String) (ds : List Dict) : Option (List Dict) :=
  let keys := ds.map fun d => (OrderedMap.getEntries key d).getD (.str "")
  let isText (v : Value) : Bool := match v with
    | .str _ => true
    | _      => false
  if ds.length ≤ 1 || keys.all isText then some (sortDescending (textAt key) ds)
  else if keys.all fun v => v.number?.isSome then
    some (sortDescending (fun d => (member key d).number?.getD 0) ds)
  else none

namespace FileStorage

variable (host : Host)

def saveTask (s : FileStorage) (task : Identified "task_id") (now : String) :
    FileStorage × StorageResult :=
  match task.id? with
  | none    => (s, .failed)
  | some id =>
      let task := OrderedMap.setEntries "updated_at" (.str now) task.members
      ({ s with tasks := s.tasks.set (fileName id) task }, .record task)

def getTask (s : FileStorage) (taskId : String) : StorageResult :=
  match s.tasks.get (fileName taskId) with
  | some task => .record task
  | none      => .failed

def listTasks (s : FileStorage) (tenantId status : Option String) (limit : Int)
    (cursor : Option String) : StorageResult :=
  let names := (host.listdir (s.tasks.entries.map Prod.fst)).filter (endsWith · ".json")
  match (passing (taskPasses tenantId status) (names.filterMap s.tasks.get)).bind
      (sortBy "updated_at") with
  | some tasks => .page (pageAfter "task_id" limit cursor tasks)
  | none       => .failed

def deleteTask (s : FileStorage) (taskId : String) : FileStorage × StorageResult :=
  ({ s with tasks := s.tasks.delete (fileName taskId) }, .done)

def saveReceipt (s : FileStorage) (receipt : Identified "receipt_id") :
    FileStorage × StorageResult :=
  match receipt.id? with
  | none    => (s, .failed)
  | some id =>
      let receipts := s.receipts.set (fileName id) receipt.members
      let taskId := member "task_id" receipt.members
      let receipts := if taskId.truthy then
          receipts.set (mappingName (host.format taskId)) [("receipt_id", .str id)]
        else receipts
      ({ s with receipts }, .record receipt.members)

def getReceipt (s : FileStorage) (receiptId : String) : StorageResult :=
  match s.receipts.get (fileName receiptId) with
  | some receipt => .record receipt
  | none         => .failed

def getReceiptByTaskId (s : FileStorage) (taskId : String) : StorageResult :=
  match s.receipts.get (mappingName taskId) with
  | some mapping =>
      let receiptId := member "receipt_id" mapping
      if receiptId.truthy then s.getReceipt (host.format receiptId) else .failed
  | none         => .failed

def listReceipts (s : FileStorage) (tenantId agentId : Option String) (limit : Int)
    (cursor : Option String) : StorageResult :=
  let names := (host.listdir (s.receipts.entries.map Prod.fst)).filter fun name =>
    startsWith name "receipt_" && endsWith name ".json"
  match sortBy "timestamp"
      ((names.filterMap s.receipts.get).filter (receiptPasses tenantId agentId)) with
  | some receipts => .page (pageAfter "receipt_id" limit cursor receipts)
  | none          => .failed

def call (s : FileStorage) : StorageCall → FileStorage × StorageResult
  | .saveTask task now                           => s.saveTask task now
  | .getTask taskId                              => (s, s.getTask taskId)
  | .listTasks tenantId status limit cursor      =>
      (s, s.listTasks host tenantId status limit cursor)
  | .deleteTask taskId                           => s.deleteTask taskId
  | .saveReceipt receipt _                       => s.saveReceipt host receipt
  | .getReceipt receiptId                        => (s, s.getReceipt receiptId)
  | .getReceiptByTaskId taskId                   => (s, s.getReceiptByTaskId host taskId)
  | .listReceipts tenantId agentId limit cursor  =>
      (s, s.listReceipts host tenantId agentId limit cursor)

end FileStorage

/-! ## SQLite -/

structure TaskRow where
  taskId    : String
  tenantId  : Option String
  data      : Dict
  createdAt : String
  updatedAt : String

structure ReceiptRow where
  receiptId : String
  taskId    : Option String
  tenantId  : Option String
  agentId   : Option String
  data      : Dict
  createdAt : String

structure SQLiteStorage where
  tasks    : List TaskRow    := []
  receipts : List ReceiptRow := []

/-- `column = ?`, where a text is given. -/
def columnIs (column text : Option String) : Bool :=
  match given text with
  | some s => column == some s
  | none   => true

/-- `ORDER BY ... DESC LIMIT ?` with one more than the limit, and `rows[:limit]`; `none` where the
limit is no integer to SQLite. -/
def limited {α : Type} (limit : Int) (rows : List α) : Option (List α) :=
  if -2 ^ 63 ≤ limit + 1 ∧ limit + 1 < 2 ^ 63 then
    some (slice (if limit + 1 < 0 then rows else rows.take (limit + 1).toNat) 0 limit)
  else none

namespace SQLiteStorage

variable (host : Host)

/-- With a cursor, is the time of the row before that of the cursor's row? -/
def isBefore {Row : Type} (id time : Row → String) (cursor : Option String) (rows : List Row)
    (row : Row) : Bool :=
  match given cursor with
  | some c => ((rows.find? fun r => id r == c).map time).any (time row < ·)
  | none   => true

/-- A page of a table: the rows that pass, in descending order of their times, and with a cursor
those whose time is before the cursor's. -/
def select {Row : Type} (id time : Row → String) (data : Row → Dict) (passes : Row → Bool)
    (limit : Int) (cursor : Option String) (rows : List Row) : StorageResult :=
  let selected := (host.scan rows).filter fun row =>
    passes row && isBefore id time cursor rows row
  match limited limit (sortDescending time selected) with
  | some rows => .page (rows.map data)
  | none      => .failed

/-- A parameter as its column holds it; `none` where it cannot be bound. -/
def bind : Value → Option (Option String)
  | .none   => some none
  | .str s  => some (some s)
  | .list _ => none
  | .dict _ => none
  | v       => (host.column v).map some

/-- `JSON_EXTRACT(data, ?)`, where it is a text. -/
def jsonExtract (key : String) (data : Dict) : Option String :=
  match OrderedMap.getEntries key data with
  | some (.str s)   => some s
  | some (.list xs) => some (host.json (.list xs))
  | some (.dict es) => some (host.json (.dict es))
  | _               => none

def saveTask (s : SQLiteStorage) (task : Identified "task_id") (now : String) :
    SQLiteStorage × StorageResult :=
  match task.id? with
  | none    => (s, .failed)
  | some id =>
      let task := OrderedMap.setEntries "updated_at" (.str now) task.members
      match (OrderedMap.getEntries "requester_identity" task).getD (.dict []) with
      | .dict requester =>
          match bind host (member "tenant_id" requester) with
          | some tenantId =>
              let rows := s.tasks.filter fun row => row.taskId ≠ id
              ({ s with tasks := rows ++ [⟨id, tenantId, task, now, now⟩] }, .record task)
          | none          => (s, .failed)
      | _ => (s, .failed)

def getTask (s : SQLiteStorage) (taskId : String) : StorageResult :=
  match (host.scan s.tasks).find? fun row => row.taskId == taskId with
  | some row => .record row.data
  | none     => .failed

def listTasks (s : SQLiteStorage) (tenantId status : Option String) (limit : Int)
    (cursor : Option String) : StorageResult :=
  select host TaskRow.taskId TaskRow.updatedAt TaskRow.data
    (fun row => columnIs row.tenantId tenantId &&
      columnIs (jsonExtract host "status" row.data) status) limit cursor s.tasks

def deleteTask (s : SQLiteStorage) (taskId : String) : SQLiteStorage × StorageResult :=
  ({ s with tasks := s.tasks.filter fun row => row.taskId ≠ taskId }, .done)

def saveReceipt (s : SQLiteStorage) (receipt : Identified "receipt_id") (now : String) :
    SQLiteStorage × StorageResult :=
  match receipt.id? with
  | none    => (s, .failed)
  | some id =>
      match bind host (member "task_id" receipt.members),
          bind host (member "tenant_id" receipt.members),
          bind host (member "agent_id" receipt.members) with
      | some taskId, some tenantId, some agentId =>
          let rows := s.receipts.filter fun row => row.receiptId ≠ id
          let row : ReceiptRow := ⟨id, taskId, tenantId, agentId, receipt.members, now⟩
          ({ s with receipts := rows ++ [row] }, .record receipt.members)
      | _, _, _ => (s, .failed)

def getReceipt (s : SQLiteStorage) (receiptId : String) : StorageResult :=
  match (host.scan s.receipts).find? fun row => row.receiptId == receiptId with
  | some row => .record row.data
  | none     => .failed

def getReceiptByTaskId (s : SQLiteStorage) (taskId : String) : StorageResult :=
  match (host.scan s.receipts).find? fun row => row.taskId == some taskId with
  | some row => .record row.data
  | none     => .failed

def listReceipts (s : SQLiteStorage) (tenantId agentId : Option String) (limit : Int)
    (cursor : Option String) : StorageResult :=
  select host ReceiptRow.receiptId ReceiptRow.createdAt ReceiptRow.data
    (fun row => columnIs row.tenantId tenantId && columnIs row.agentId agentId) limit cursor
    s.receipts

def call (s : SQLiteStorage) : StorageCall → SQLiteStorage × StorageResult
  | .saveTask task now                           => s.saveTask host task now
  | .getTask taskId                              => (s, s.getTask host taskId)
  | .listTasks tenantId status limit cursor      =>
      (s, s.listTasks host tenantId status limit cursor)
  | .deleteTask taskId                           => s.deleteTask taskId
  | .saveReceipt receipt now                     => s.saveReceipt host receipt now
  | .getReceipt receiptId                        => (s, s.getReceipt host receiptId)
  | .getReceiptByTaskId taskId                   => (s, s.getReceiptByTaskId host taskId)
  | .listReceipts tenantId agentId limit cursor  =>
      (s, s.listReceipts host tenantId agentId limit cursor)

end SQLiteStorage

end MapProtocol.Sdk.Python
