import MapProtocol.ControlPlane.TaskStore

/-!
# The receipt store

`ReceiptStore` maps receipt ids to receipts and keeps the order in which they came. It only ever
appends. `order` repeats the keys of the map, and the structure says so.
-/

namespace MapProtocol

open Js

structure ReceiptStore where
  receipts : OrderedMap String ExecutionReceipt
  order    : List String
  ordered  : order = receipts.entries.map Prod.fst

namespace ReceiptStore

def empty : ReceiptStore := ⟨.empty, [], rfl⟩

/-- `this.receipts.set(id, receipt); this.order.push(id)`, for an id that is new. -/
def push (store : ReceiptStore) (receipt : ExecutionReceipt)
    (h : store.receipts.get receipt.receiptId = none) : ReceiptStore where
  receipts := store.receipts.set receipt.receiptId receipt
  order := store.order ++ [receipt.receiptId]
  ordered := by
    show store.order ++ [_] = (OrderedMap.setEntries _ _ _).map _
    rw [OrderedMap.setEntries_of_get_none h, store.ordered]
    simp

def append (store : ReceiptStore) (fault : Option String) (receipt : ExecutionReceipt) :
    Except String Unit × ReceiptStore :=
  match h : store.receipts.get receipt.receiptId with
  | some existing =>
      (throwIf (receiptJson (some existing) ≠ receiptJson (some receipt))
        ("Receipt conflict for immutable receipt id: " ++ receipt.receiptId), store)
  | none => (persist fault, store.push receipt h)

def get (store : ReceiptStore) (receiptId : String) : Option ExecutionReceipt :=
  store.receipts.get receiptId

def list (store : ReceiptStore) : List ExecutionReceipt := store.order.filterMap store.receipts.get

/-- Does the tenant of the receipt match the tenant asked for? An empty tenant id counts as none. -/
def matchesTenant (tenantId : Option String) (receipt : ExecutionReceipt) : Bool :=
  match tenantId with
  | none   => true
  | some t => t = "" ∨
      TaskStore.resolveTenantId receipt.tenantId = TaskStore.resolveTenantId (some t)

/-- `get(receiptId, tenantId)`. -/
def getFor (store : ReceiptStore) (receiptId : String) (tenantId : Option String) :
    Option ExecutionReceipt := (store.get receiptId).filter (matchesTenant tenantId)

/-- `list(tenantId)`. -/
def listFor (store : ReceiptStore) (tenantId : Option String) : List ExecutionReceipt :=
  store.list.filter (matchesTenant tenantId)

end ReceiptStore

end MapProtocol
