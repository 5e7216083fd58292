import MapProtocol.ControlPlane.StoreRuns

/-!
# The file and the database of the task store

A task store is backed by a JSON file, by an SQLite database, or by nothing. `persist` writes the
whole store after every change: the file as one dump, the database by an upsert for each record.
`hydrate` reads the store back when it is opened.

A JSON column of a row, like a record of the file, is kept as the value that reading it back gives.
The database is the `tasks` table with its primary key; where the unique index on the idempotency
key could be created, an upsert that would repeat a key throws.
-/

namespace MapProtocol

open Js

/-! ## Records and rows -/

/-- A result as it is read back from its JSON text. -/
def ResultPackage.jsonCopy (result : ResultPackage) : ResultPackage :=
  { result with structuredOutput := jsonCopyMembers result.structuredOutput }

/-- A record as it is read back from its JSON text. Its other fields hold strings only. -/
def TaskRecord.jsonCopy (record : TaskRecord) : TaskRecord :=
  { record with result := record.result.map ResultPackage.jsonCopy }

/-- A row of the `tasks` table, without the primary key `task_id`. -/
structure TaskRow where
  requesterIdentity : RequesterIdentity
  idempotencyKey    : Option String
  capability        : String
  targetAgent       : String
  status            : TaskStatus
  result            : Option ResultPackage
  receipt           : Option ExecutionReceipt
  updatedAt         : String

/-- The row that `persist` binds. SQLite takes no `undefined` for a parameter. -/
def TaskRecord.toRow (record : TaskRecord) : Except String TaskRow :=
  match record.requesterIdentity, record.capability, record.targetAgent with
  | some requesterIdentity, some capability, some targetAgent =>
      .ok {
        requesterIdentity := requesterIdentity
        idempotencyKey := record.idempotencyKey
        capability := capability
        targetAgent := targetAgent
        status := record.status
        result := record.result.map ResultPackage.jsonCopy
        receipt := record.receipt
        updatedAt := record.updatedAt }
  | none, _, _           => .error "Provided value cannot be bound to SQLite parameter 2."
  | some _, none, _      => .error "Provided value cannot be bound to SQLite parameter 4."
  | some _, some _, none => .error "Provided value cannot be bound to SQLite parameter 5."

/-- The record that `hydrate` makes of a row. -/
def TaskRow.toRecord (taskId : String) (row : TaskRow) : TaskRecord where
  taskId := taskId
  orderId := none
  contextId := none
  requesterIdentity := some row.requesterIdentity
  idempotencyKey := row.idempotencyKey
  capability := some row.capability
  targetAgent := some row.targetAgent
  status := row.status
  result := row.result
  receipt := row.receipt
  updatedAt := row.updatedAt

/-- The `tasks` table: the rows by their primary key. -/
abbrev TaskTable := OrderedMap String TaskRow

/-- `INSERT … ON CONFLICT(task_id) DO UPDATE`. `unique` says that the unique index is there. -/
def TaskTable.upsert (unique : Bool) (table : TaskTable) (taskId : String) (row : TaskRow) :
    Except String TaskTable := do
  throwIf (unique = true ∧ ∃ other ∈ table.entries, other.1 ≠ taskId ∧
      row.idempotencyKey.isSome ∧ other.2.idempotencyKey = row.idempotencyKey)
    "UNIQUE constraint failed: tasks.idempotency_key"
  return table.set taskId row

def TaskTable.upsertAll (unique : Bool) (table : TaskTable) (records : List TaskRecord) :
    Except String TaskTable :=
  records.foldlM (fun table record => do
    let row ← record.toRow
    table.upsert unique record.taskId row) table

/-! ## Backings -/

/-- What a store is backed by. A file without readable records holds `none`. -/
inductive TaskBacking where
  | memory
  | file (records : Option (List TaskRecord))
  | db (unique : Bool) (table : TaskTable)

namespace TaskBacking

/-- The records that `hydrate` sets, in order. -/
def stored : TaskBacking → List TaskRecord
  | .memory              => []
  | .file none           => []
  | .file (some records) => records.filter fun record => record.taskId ≠ ""
  | .db _ table          => table.entries.map fun e => e.2.toRecord e.1

def hydrate (backing : TaskBacking) : TaskStore := backing.stored.foldl TaskStore.insert .empty

/-- `persist`, where `fault` is what the file system or the database throws. -/
def persist (backing : TaskBacking) (fault : Option String) (store : TaskStore) :
    Except String TaskBacking :=
  match backing, fault with
  | .memory, _               => .ok .memory
  | .file _, some e          => .error e
  | .db _ _, some e          => .error e
  | .file _, none            => .ok (.file (some (store.list.map TaskRecord.jsonCopy)))
  | .db unique table, none   => (table.upsertAll unique store.list).map (.db unique)

end TaskBacking

/-! ## A store and its backing -/

namespace TaskStore

/-- What a call comes to before it persists: it throws, it finds no record, or it leaves the memory
that is then persisted. -/
def change (store : TaskStore) : StoreLabel → Except String (Option TaskStore)
  | .write (.save now _ params) =>
      (store.checkSave params).map fun _ => some (store.insert (params.toRecord now))
  | .write (.update now _ taskId updates) =>
      match store.get taskId with
      | none          => .ok none
      | some existing =>
          let next := updates.apply existing (updates.nextStatus existing) now
          (updates.validateTransition existing (updates.nextStatus existing)).map fun _ =>
            some { store with tasks := store.tasks.set taskId next }
  | .delete fault taskId =>
      match store.get taskId with
      | none   => .ok none
      | some _ => .ok (some (store.delete fault taskId).2)

/-- The memory after a call is what `change` says, whatever `persist` then does. -/
theorem step_eq_change (store : TaskStore) (l : StoreLabel) :
    store.step l =
      match store.change l with
      | .ok (some after) => after
      | _                => store := by
  unfold step write change
  cases l with
  | write w =>
      cases w with
      | save now fault params =>
          rcases store.save_cases now fault params with ⟨e, hcheck, heq⟩ | ⟨hcheck, heq⟩
          · simp [heq, hcheck, Except.map]
          · simp [heq, hcheck, Except.map]
      | update now fault t updates =>
          rcases store.update_cases now fault t updates with
            ⟨hget, heq⟩ | ⟨existing, e, hget, hcheck, heq⟩ | ⟨existing, hget, hcheck, heq⟩
          · simp [heq, hget]
          · simp [heq, hget, hcheck, Except.map]
          · simp [heq, hget, hcheck, Except.map]
  | delete fault t =>
      rcases store.delete_cases fault t with ⟨hget, heq⟩ | ⟨existing, hget, heq⟩
      · simp only [heq, hget]
      · simp only [hget]

end TaskStore

structure BackedTaskStore where
  store   : TaskStore
  backing : TaskBacking

namespace BackedTaskStore

/-- `new TaskStore(options)`. -/
def create (backing : TaskBacking) : BackedTaskStore := ⟨backing.hydrate, backing⟩

def call (b : BackedTaskStore) (l : StoreLabel) : Except String Unit × BackedTaskStore :=
  match b.store.change l with
  | .error e         => (.error e, b)
  | .ok none         => (.ok (), b)
  | .ok (some after) =>
      match b.backing.persist l.fault after with
      | .error e    => (.error e, { b with store := after })
      | .ok backing => (.ok (), ⟨after, backing⟩)

def step (b : BackedTaskStore) (l : StoreLabel) : BackedTaskStore := (b.call l).2

theorem step_store (b : BackedTaskStore) (l : StoreLabel) : (b.step l).store = b.store.step l := by
  rw [TaskStore.step_eq_change]
  unfold step call
  cases b.store.change l with
  | error e => rfl
  | ok after =>
      cases after with
      | none => rfl
      | some after =>
          dsimp only
          cases b.backing.persist l.fault after <;> rfl

theorem run_store (b : BackedTaskStore) (ls : List StoreLabel) :
    (Transition.run step b ls).store = Transition.run TaskStore.step b.store ls := by
  induction ls generalizing b with
  | nil => rfl
  | cons l ls ih =>
      rw [Transition.run_cons, Transition.run_cons, ih, step_store]

end BackedTaskStore

end MapProtocol
