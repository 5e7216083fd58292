import MapProtocol.Js.Json
import MapProtocol.Lib.Checks
import MapProtocol.Lib.OrderedMap
import MapProtocol.Protocol.Types

/-!
# The task store

`TaskStore` keeps one record per task id and an index from idempotency keys to task ids. A call
first checks what it was given, then changes the memory, then writes the file or the database; what
that write throws is the argument `fault`, and it finds the memory changed already.

An update is a partial record: each field is absent, present and `undefined`, or present with a
value.
-/

namespace MapProtocol

open Js

/-- A write of the file or the database, where one is configured. -/
def persist (fault : Option String) : Except String Unit :=
  match fault with
  | some message => .error message
  | none         => .ok ()

/-! ## Transitions -/

def isTerminal : TaskStatus → Bool
  | .completed => true
  | .failed    => true
  | .denied    => true
  | .revoked   => true
  | _          => false

def taskTransitions : TaskStatus → List TaskStatus
  | .accepted         => [.proposed, .running, .completed, .failed, .denied, .revoked]
  | .proposed         => [.awaitingApproval, .running, .denied, .revoked]
  | .awaitingApproval => [.running, .completed, .failed, .denied, .revoked]
  | .running          => [.completed, .failed, .revoked]
  | .completed        => []
  | .failed           => []
  | .denied           => []
  | .revoked          => []

def assertValidTransition (currentStatus newStatus : TaskStatus) : Except String Unit :=
  if currentStatus = newStatus then .ok ()
  else if isTerminal currentStatus then .error "Terminal task state transition is not allowed."
  else throwIf (newStatus ∉ taskTransitions currentStatus)
    ("Invalid task state transition: " ++ currentStatus.text ++ " → " ++ newStatus.text ++ ".")

/-- The fields of an update: absent, `undefined`, or a value. -/
structure TaskUpdate where
  orderId           : Option (Option String) := none
  contextId         : Option (Option String) := none
  requesterIdentity : Option (Option RequesterIdentity) := none
  idempotencyKey    : Option (Option String) := none
  capability        : Option (Option String) := none
  targetAgent       : Option (Option String) := none
  status            : Option (Option TaskStatus) := none
  result            : Option (Option ResultPackage) := none
  receipt           : Option (Option ExecutionReceipt) := none

/-- `JSON.stringify` of an identity, a result or a receipt that may be `undefined`. -/
def identityJson (identity : Option RequesterIdentity) : Option String :=
  identity.map fun i => stringify i.toJs

def resultJson (result : Option ResultPackage) : Option String :=
  result.map fun r => stringify r.toJs

def receiptJson (receipt : Option ExecutionReceipt) : Option String :=
  receipt.map fun r => stringify r.toJs

namespace TaskUpdate

/-- The checks of the fields that a record keeps for life. -/
def validateIdentity (updates : TaskUpdate) (existing : TaskRecord) : Except String Unit := do
  throwIf (updates.idempotencyKey.join.isSome ∧
      updates.idempotencyKey.join ≠ existing.idempotencyKey)
    ("Idempotency key is immutable for task " ++ existing.taskId ++ ".")
  throwIf (updates.requesterIdentity.join.isSome ∧
      identityJson updates.requesterIdentity.join ≠ identityJson existing.requesterIdentity)
    ("Task lifecycle invariant violated: requester_identity is immutable for task " ++
      existing.taskId ++ ".")
  throwIf (updates.capability.join.isSome ∧ updates.capability.join ≠ existing.capability)
    ("Task lifecycle invariant violated: capability is immutable for task " ++
      existing.taskId ++ ".")
  throwIf (updates.targetAgent.join.isSome ∧ updates.targetAgent.join ≠ existing.targetAgent)
    ("Task lifecycle invariant violated: target_agent is immutable for task " ++
      existing.taskId ++ ".")

/-- The checks of the result and the receipt. -/
def validateOutcome (updates : TaskUpdate) (existing : TaskRecord) (nextStatus : TaskStatus) :
    Except String Unit := do
  throwIf (updates.result.join.any fun r => r.taskId ≠ existing.taskId)
    ("Task lifecycle invariant violated: result.task_id mismatch for task " ++
      existing.taskId ++ ".")
  throwIf (updates.result.join.any fun r => r.status ≠ nextStatus)
    ("Task lifecycle invariant violated: result.status must match task status for task " ++
      existing.taskId ++ ".")
  throwIf (updates.receipt.join.any fun r => r.taskId ≠ some existing.taskId)
    ("Task lifecycle invariant violated: receipt.task_id mismatch for task " ++
      existing.taskId ++ ".")

/-- Does the update change the result or the receipt of a record? -/
def changesOutcome (updates : TaskUpdate) (existing : TaskRecord) : Prop :=
  (updates.result.join.isSome ∧ resultJson updates.result.join ≠ resultJson existing.result) ∨
    (updates.receipt.join.isSome ∧ receiptJson updates.receipt.join ≠ receiptJson existing.receipt)

instance (updates : TaskUpdate) (existing : TaskRecord) :
    Decidable (updates.changesOutcome existing) := inferInstanceAs (Decidable (_ ∨ _))

def validateTransition (updates : TaskUpdate) (existing : TaskRecord) (nextStatus : TaskStatus) :
    Except String Unit := do
  updates.validateIdentity existing
  updates.validateOutcome existing nextStatus
  if existing.status = nextStatus then
    throwIf (isTerminal existing.status ∧ updates.changesOutcome existing)
      ("Terminal task state is immutable for task " ++ existing.taskId ++ " (" ++
        existing.status.text ++ ").")
  else do
    assertValidTransition existing.status nextStatus
    throwIf (updates.result.join.isNone ∨ updates.receipt.join.isNone)
      ("Task lifecycle invariant violated: transitions must include result and receipt for task " ++
        existing.taskId ++ ".")

/-- `{ ...existing, ...updates, task_id, status, updated_at }`. -/
def apply (updates : TaskUpdate) (existing : TaskRecord) (nextStatus : TaskStatus) (now : Nat) :
    TaskRecord where
  taskId := existing.taskId
  orderId := updates.orderId.getD existing.orderId
  contextId := updates.contextId.getD existing.contextId
  requesterIdentity := updates.requesterIdentity.getD existing.requesterIdentity
  idempotencyKey := updates.idempotencyKey.getD existing.idempotencyKey
  capability := updates.capability.getD existing.capability
  targetAgent := updates.targetAgent.getD existing.targetAgent
  status := nextStatus
  result := updates.result.getD existing.result
  receipt := updates.receipt.getD existing.receipt
  updatedAt := toISOString now

/-- `updates.status ?? existing.status`. -/
def nextStatus (updates : TaskUpdate) (existing : TaskRecord) : TaskStatus :=
  updates.status.join.getD existing.status

end TaskUpdate

/-! ## The store -/

structure TaskStore where
  tasks            : OrderedMap String TaskRecord
  idempotencyIndex : OrderedMap String String

/-- The parameters of `save`. -/
structure SaveParams where
  taskId            : String
  contextId         : Option String
  requesterIdentity : RequesterIdentity
  idempotencyKey    : Option String
  capability        : String
  targetAgent       : String
  result            : ResultPackage
  receipt           : ExecutionReceipt

def SaveParams.toRecord (params : SaveParams) (now : Nat) : TaskRecord where
  taskId := params.taskId
  orderId := none
  contextId := params.contextId
  requesterIdentity := some params.requesterIdentity
  idempotencyKey := params.idempotencyKey
  capability := some params.capability
  targetAgent := some params.targetAgent
  status := params.result.status
  result := some params.result
  receipt := some params.receipt
  updatedAt := toISOString now

namespace TaskStore

def empty : TaskStore := ⟨.empty, .empty⟩

def resolveTenantId (tenantId : Option String) : String :=
  match tenantId with
  | some t => if isBlank t then "default" else t
  | none   => "default"

def get (store : TaskStore) (taskId : String) : Option TaskRecord := store.tasks.get taskId

/-- `getByTenant`. A record whose identity an update set to `undefined` throws a `TypeError`. -/
def getByTenant (store : TaskStore) (taskId tenantId : String) :
    Except String (Option TaskRecord) :=
  match store.tasks.get taskId with
  | none        => .ok none
  | some record =>
      match record.requesterIdentity with
      | none          => .error "Cannot read properties of undefined (reading 'tenant_id')"
      | some identity =>
          .ok (if resolveTenantId identity.tenantId = resolveTenantId (some tenantId) then
            some record else none)

def list (store : TaskStore) : List TaskRecord := store.tasks.values

def listByTenant (store : TaskStore) (tenantId : String) : Except String (List TaskRecord) :=
  store.list.filterM fun record =>
    match record.requesterIdentity with
    | none          => .error "Cannot read properties of undefined (reading 'tenant_id')"
    | some identity =>
        .ok (decide (resolveTenantId identity.tenantId = resolveTenantId (some tenantId)))

/-- `listReceipts`. An empty tenant id counts as none. -/
def listReceipts (store : TaskStore) (tenantId : Option String) :
    Except String (List ExecutionReceipt) := do
  let records ← match tenantId with
    | some t => if t = "" then pure store.list else store.listByTenant t
    | none   => pure store.list
  return records.filterMap TaskRecord.receipt

def getReceipt (store : TaskStore) (receiptId : String) (tenantId : Option String) :
    Except String (Option ExecutionReceipt) := do
  let receipts ← store.listReceipts tenantId
  return receipts.find? fun receipt => receipt.receiptId == receiptId

/-- `applyHistoryLength`: a history of length zero leaves the result and the receipt out. -/
def applyHistoryLength (historyLength : Option Rat) (record : TaskRecord) : TaskRecord :=
  if historyLength = some 0 then { record with result := none, receipt := none } else record

/-- `getByTenant(taskId, tenantId, historyLength)`. -/
def getByTenantUpTo (store : TaskStore) (taskId tenantId : String) (historyLength : Option Rat) :
    Except String (Option TaskRecord) :=
  (store.getByTenant taskId tenantId).map (·.map (applyHistoryLength historyLength))

/-- `listByTenant(tenantId, historyLength)`. -/
def listByTenantUpTo (store : TaskStore) (tenantId : String) (historyLength : Option Rat) :
    Except String (List TaskRecord) :=
  (store.listByTenant tenantId).map (·.map (applyHistoryLength historyLength))

def findByIdempotencyKey (store : TaskStore) (idempotencyKey : String) : Option TaskRecord :=
  match store.idempotencyIndex.get idempotencyKey with
  | none        => none
  | some taskId => if taskId = "" then none else store.tasks.get taskId

/-- The checks of `save`. -/
def checkSave (store : TaskStore) (params : SaveParams) : Except String Unit := do
  match store.tasks.get params.taskId with
  | some existing => assertValidTransition existing.status params.result.status
  | none          => pure ()
  match params.idempotencyKey with
  | some key =>
      if key = "" then pure ()
      else match store.idempotencyIndex.get key with
        | some existingTaskId =>
            throwIf (existingTaskId ≠ "" ∧ existingTaskId ≠ params.taskId)
              ("Idempotency key already exists: " ++ key)
        | none => pure ()
  | none => pure ()

/-- The store with a record set, and its key indexed. -/
def insert (store : TaskStore) (record : TaskRecord) : TaskStore where
  tasks := store.tasks.set record.taskId record
  idempotencyIndex :=
    match record.idempotencyKey with
    | some key =>
        if key = "" then store.idempotencyIndex else store.idempotencyIndex.set key record.taskId
    | none => store.idempotencyIndex

def save (store : TaskStore) (now : Nat) (fault : Option String) (params : SaveParams) :
    Except String TaskRecord × TaskStore :=
  match store.checkSave params with
  | .error e => (.error e, store)
  | .ok _    =>
      let record := params.toRecord now
      ((persist fault).map fun _ => record, store.insert record)

def update (store : TaskStore) (now : Nat) (fault : Option String) (taskId : String)
    (updates : TaskUpdate) : Except String (Option TaskRecord) × TaskStore :=
  match store.tasks.get taskId with
  | none          => (.ok none, store)
  | some existing =>
      let nextStatus := updates.nextStatus existing
      match updates.validateTransition existing nextStatus with
      | .error e => (.error e, store)
      | .ok _    =>
          let next := updates.apply existing nextStatus now
          ((persist fault).map fun _ => some next,
            { store with tasks := store.tasks.set taskId next })

def delete (store : TaskStore) (fault : Option String) (taskId : String) :
    Except String Bool × TaskStore :=
  match store.tasks.get taskId with
  | none          => (.ok false, store)
  | some existing =>
      ((persist fault).map fun _ => true,
        { tasks := store.tasks.delete taskId
          idempotencyIndex :=
            match existing.idempotencyKey with
            | some key =>
                if key = "" then store.idempotencyIndex else store.idempotencyIndex.delete key
            | none => store.idempotencyIndex })

end TaskStore

end MapProtocol
