import MapProtocol.ControlPlane.AsyncQueue
import MapProtocol.ControlPlane.ReceiptStore
import MapProtocol.Lib.Pagination
import MapProtocol.Server.Alerts
import MapProtocol.Server.Revocation
import MapProtocol.Server.State

/-!
# The paginated read routes

Six routes answer with a page of a list, and with the id of the last item of the page as the cursor
of the next one. The next page begins after the first item that has this id. Reading page by page
gives the whole list exactly where the last item of each page is the first with its id
(`pagesComplete_iff_guided`): two dead letters of one task, or two keys of one kid, make a reader start
over without end.
-/

namespace MapProtocol

open Js

/-- `parsePositiveIntOrDefault`, for the finite number that a parameter reads as. -/
def parsePositiveIntOrDefault (value : Option Rat) (fallback : Int) : Int :=
  (value.map Rat.floor).getD fallback

/-- `Math.max(1, Math.min(cap, parsePositiveIntOrDefault(value, 100)))`. -/
def pageLimit (cap : Int) (value : Option Rat) : Nat :=
  (max 1 (min cap (parsePositiveIntOrDefault value 100))).toNat

theorem one_le_pageLimit (cap : Int) (value : Option Rat) : 1 ≤ pageLimit cap value := by
  unfold pageLimit
  omega

/-- A parameter that is empty counts as absent. -/
def given (parameter : Option String) : Option String := parameter.filter fun p => p ≠ ""

/-- The items of a route, with the id of an item as its cursor. -/
def listingById {α : Type} (id : α → String) (items : List α) : Listing α String :=
  ⟨items, id, fun cursor => decide (cursor ≠ "")⟩

/-- The parameters of `/tasks`; `historyLength` is the finite number it reads as, where it is given. -/
structure TaskQuery where
  tenantId      : Option String
  historyLength : Option (Option Rat)
  orderId       : Option String
  contextId     : Option String

structure ReadContext where
  taskStore        : TaskStore
  receiptStore     : ReceiptStore
  deadLetters      : List DeadLetterRecord
  /-- What `computeAlertCandidates` gives for a tenant. -/
  candidates       : Option String → List AlertCandidate
  alertState       : AlertState
  auditEvents      : List AuditEvent
  /-- What `getEffectiveVerificationKeys` gives. -/
  verificationKeys : Except String (List MapVerificationKey)
  parseDate        : String → Option Int
  localeCompare    : String → String → Int

namespace ReadContext

variable (ctx : ReadContext)

def filterTasks (query : TaskQuery) (tasks : List TaskRecord) : List TaskRecord :=
  let tasks := match given query.orderId with
    | some orderId => tasks.filter fun task => decide (task.orderId = some orderId)
    | none         => tasks
  match given query.contextId with
  | some contextId => tasks.filter fun task => decide (task.contextId = some contextId)
  | none           => tasks

/-- `GET /tasks`. -/
def tasks (query : TaskQuery) : Except String (Listing TaskRecord String) := do
  let historyLength :=
    query.historyLength.map fun value => (parsePositiveIntOrDefault value 0 : Rat)
  let allTasks ← match given query.tenantId with
    | some tenantId => ctx.taskStore.listByTenantUpTo tenantId historyLength
    | none          => .ok (ctx.taskStore.list.map (TaskStore.applyHistoryLength historyLength))
  return listingById TaskRecord.taskId (filterTasks query allTasks)

/-- `GET /receipts`. -/
def receipts (tenantId : Option String) : Except String (Listing ExecutionReceipt String) :=
  .ok (listingById (fun receipt => receipt.receiptId) (ctx.receiptStore.listFor (given tenantId)))

/-- `GET /dead-letters`. -/
def deadLetterRecords (tenantId : Option String) :
    Except String (Listing DeadLetterRecord String) :=
  .ok (listingById DeadLetterRecord.taskId (match given tenantId with
    | some t => ctx.deadLetters.filter fun record => decide (record.tenantId = some t)
    | none   => ctx.deadLetters))

/-- `GET /alerts`. -/
def alerts (now : Nat) (tenantId : Option String) : Except String (Listing AlertRecord String) :=
  .ok (listingById (fun alert => alert.id)
    (ctx.alertState.getActiveAlerts ctx.parseDate (ctx.candidates (given tenantId))
      (given tenantId) now).2)

/-- `GET /audit-events`. The cursor is a number, and zero counts as none. -/
def auditLog (tenantId : Option String) : Except String (Listing AuditEvent Nat) :=
  .ok ⟨match given tenantId with
    | some t => ctx.auditEvents.filter fun event => decide (event.tenantId.getD "default" = t)
    | none   => ctx.auditEvents, AuditEvent.chainIndex, fun cursor => decide (cursor ≠ 0)⟩

/-- `GET /.well-known/map-keys`. -/
def mapKeys (includePem : Bool) : Except String (Listing MapVerificationKey String) := do
  let keys ← ctx.verificationKeys
  let shown := keys.map fun key => if includePem then key else { key with publicKeyPem := none }
  return listingById MapVerificationKey.kid
    (shown.mergeSort fun a b => decide (ctx.localeCompare a.kid b.kid ≤ 0))

end ReadContext

/-- Following the cursors of a route ends, and gives each item of its list once and in order. -/
def PagesComplete {α κ : Type} [DecidableEq κ] (route : Except String (Listing α κ)) (limit : Nat) : Prop :=
  ∃ l, route = .ok l ∧ l.Completes limit

/-- The route has a list to answer from, and the last item of each page but the last has an id that
is a cursor, and that no item before it has. -/
def Guided {α κ : Type} (route : Except String (Listing α κ)) (limit : Nat) : Prop :=
  ∃ l, route = .ok l ∧ l.CursorsFind limit

theorem pagesComplete_iff_guided {α κ : Type} [DecidableEq κ] (route : Except String (Listing α κ))
    {limit : Nat} (hlimit : 1 ≤ limit) : PagesComplete route limit ↔ Guided route limit := by
  constructor
  · rintro ⟨l, hl, hcompletes⟩
    exact ⟨l, hl, (Listing.completes_iff hlimit).mp hcompletes⟩
  · rintro ⟨l, hl, hfind⟩
    exact ⟨l, hl, (Listing.completes_iff hlimit).mpr hfind⟩

/-- **When following the cursors reads everything.** -/
theorem ReadContext.pagination_complete_iff (ctx : ReadContext) (limit : Option Rat) :
    (∀ query, PagesComplete (ctx.tasks query) (pageLimit 500 limit) ↔
      Guided (ctx.tasks query) (pageLimit 500 limit)) ∧
    (∀ tenantId, PagesComplete (ctx.receipts tenantId) (pageLimit 500 limit) ↔
      Guided (ctx.receipts tenantId) (pageLimit 500 limit)) ∧
    (∀ tenantId, PagesComplete (ctx.deadLetterRecords tenantId) (pageLimit 500 limit) ↔
      Guided (ctx.deadLetterRecords tenantId) (pageLimit 500 limit)) ∧
    (∀ now tenantId, PagesComplete (ctx.alerts now tenantId) (pageLimit 500 limit) ↔
      Guided (ctx.alerts now tenantId) (pageLimit 500 limit)) ∧
    (∀ tenantId, PagesComplete (ctx.auditLog tenantId) (pageLimit 500 limit) ↔
      Guided (ctx.auditLog tenantId) (pageLimit 500 limit)) ∧
    ∀ includePem, PagesComplete (ctx.mapKeys includePem) (pageLimit 1000 limit) ↔
      Guided (ctx.mapKeys includePem) (pageLimit 1000 limit) := by
  have h500 := one_le_pageLimit 500 limit
  have h1000 := one_le_pageLimit 1000 limit
  exact ⟨fun _ => pagesComplete_iff_guided _ h500, fun _ => pagesComplete_iff_guided _ h500,
    fun _ => pagesComplete_iff_guided _ h500, fun _ _ => pagesComplete_iff_guided _ h500,
    fun _ => pagesComplete_iff_guided _ h500, fun _ => pagesComplete_iff_guided _ h1000⟩

/-- A server whose queue gave up on the task `t1` twice, and then on `t2`. -/
def twiceDeadLettered : ReadContext where
  taskStore := .empty
  receiptStore := .empty
  deadLetters := [⟨"t1", none, 3, "down", 1000⟩, ⟨"t1", none, 3, "down", 2000⟩,
    ⟨"t2", none, 3, "down", 3000⟩]
  candidates := fun _ => []
  alertState := .empty
  auditEvents := []
  verificationKeys := .ok []
  parseDate := fun _ => none
  localeCompare := fun _ _ => 0

/-- A reader who takes one dead letter at a time never comes to `t2`. -/
theorem dead_letters_repeat :
    ¬ PagesComplete (twiceDeadLettered.deadLetterRecords none) (pageLimit 500 (some 1)) := by
  intro h
  obtain ⟨l, hl, hfind⟩ :=
    (pagesComplete_iff_guided _ (one_le_pageLimit 500 (some 1))).mp h
  have hlimit : pageLimit 500 (some 1) = 1 := by decide +kernel
  cases hl
  rw [hlimit] at hfind
  obtain ⟨-, hfirst⟩ := hfind 1 _ (by decide) rfl
  exact hfirst 0 (by decide) _ rfl rfl

end MapProtocol
