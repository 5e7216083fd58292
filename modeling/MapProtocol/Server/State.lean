import MapProtocol.Js.JsonStrings

/-!
# Files of server state

`writeJSON` and `readJSON` write and read a value as JSON, so that what is read is the JSON copy of
what was written. The audit log is stored this way: `persistAuditEvents` writes its events and its
checkpoints, `hydrateAuditEvents` reads them back.
-/

namespace MapProtocol

open Js

/-! ## Files -/

/-- What `JSON.parse` makes of the text of a file; `none` where there is no file. -/
abbrev JsonFile := Option JsValue

def writeJSON (data : JsValue) : JsonFile := jsonCopy? data

/-- `if (!path) return` comes before every access. -/
def hasPath (path : Option String) : Bool := (path.filter fun p => p ≠ "").isSome

/-- A natural number, where the value is one. -/
def natOf (v : JsValue) : Option Nat := v.asNumber.map fun n => n.num.toNat

theorem jsonCopyElements_map {α : Type} (f : α → JsValue) (l : List α) :
    jsonCopyElements (l.map f) = l.map fun a => (jsonCopy? (f a)).getD .null := by
  induction l with
  | nil => rfl
  | cons a l ih => rw [List.map_cons, jsonCopyElements, ih, List.map_cons]

theorem filterMap_jsonCopyElements {α : Type} {toJs : α → JsValue} {ofJs : JsValue → Option α}
    (h : ∀ a, (jsonCopy? (toJs a)).bind ofJs = some a) (l : List α) :
    (jsonCopyElements (l.map toJs)).filterMap ofJs = l := by
  rw [jsonCopyElements_map]
  induction l with
  | nil => rfl
  | cons a l ih =>
      obtain ⟨w, hcopy, ha⟩ := Option.bind_eq_some_iff.mp (h a)
      rw [List.map_cons, hcopy, Option.getD_some, List.filterMap_cons_some ha, ih]

/-! ## The audit log -/

/-- What `recordAuditEvent` is called with. -/
structure AuditRecord where
  timestamp   : String
  requestId   : String
  code        : String
  message     : String
  method      : String
  route       : String
  tenantId    : Option String
  targetAgent : Option String
  subject     : Option String
  deriving DecidableEq, Repr

structure AuditEvent extends AuditRecord where
  chainIndex    : Nat
  prevEventHash : String
  eventHash     : String
  deriving DecidableEq, Repr

structure AuditCheckpoint where
  checkpointId   : String
  createdAt      : String
  lastChainIndex : Nat
  lastEventHash  : String
  keyId          : String
  signature      : String
  deriving DecidableEq, Repr

def AuditEvent.toJs (e : AuditEvent) : JsValue :=
  .obj [("timestamp", .str e.timestamp), ("request_id", .str e.requestId), ("code", .str e.code),
    ("message", .str e.message), ("method", .str e.method), ("route", .str e.route),
    ("tenant_id", .ofString? e.tenantId), ("target_agent", .ofString? e.targetAgent),
    ("subject", .ofString? e.subject), ("chain_index", .num e.chainIndex),
    ("prev_event_hash", .str e.prevEventHash), ("event_hash", .str e.eventHash)]

/-- A stored event. The files hold only what the server wrote. -/
def AuditEvent.ofJs (v : JsValue) : Option AuditEvent := do
  let timestamp ← (v.property "timestamp").asString
  let requestId ← (v.property "request_id").asString
  let code ← (v.property "code").asString
  let message ← (v.property "message").asString
  let method ← (v.property "method").asString
  let route ← (v.property "route").asString
  let chainIndex ← natOf (v.property "chain_index")
  let prevEventHash ← (v.property "prev_event_hash").asString
  let eventHash ← (v.property "event_hash").asString
  return ⟨⟨timestamp, requestId, code, message, method, route,
    (v.property "tenant_id").asString, (v.property "target_agent").asString,
    (v.property "subject").asString⟩, chainIndex, prevEventHash, eventHash⟩

def AuditCheckpoint.toJs (c : AuditCheckpoint) : JsValue :=
  .obj [("checkpoint_id", .str c.checkpointId), ("created_at", .str c.createdAt),
    ("last_chain_index", .num c.lastChainIndex), ("last_event_hash", .str c.lastEventHash),
    ("key_id", .str c.keyId), ("signature", .str c.signature)]

def AuditCheckpoint.ofJs (v : JsValue) : Option AuditCheckpoint := do
  let checkpointId ← (v.property "checkpoint_id").asString
  let createdAt ← (v.property "created_at").asString
  let lastChainIndex ← natOf (v.property "last_chain_index")
  let lastEventHash ← (v.property "last_event_hash").asString
  let keyId ← (v.property "key_id").asString
  let signature ← (v.property "signature").asString
  return ⟨checkpointId, createdAt, lastChainIndex, lastEventHash, keyId, signature⟩

/-- The elements of a property that is an array. -/
def elementsOf (v : JsValue) (key : String) : List JsValue :=
  match v.property key with
  | .arr xs => xs
  | _       => []

def persistAuditEvents (path : Option String) (events : List AuditEvent)
    (checkpoints : List AuditCheckpoint) (file : JsonFile) : JsonFile :=
  if hasPath path then
    writeJSON (.obj [("events", .arr (events.map AuditEvent.toJs)),
      ("checkpoints", .arr (checkpoints.map AuditCheckpoint.toJs))])
  else file

def hydrateAuditEvents (path : Option String) (auditMaxEvents : Nat) (file : JsonFile) :
    List AuditEvent × List AuditCheckpoint :=
  match if hasPath path then file else none with
  | none        => ([], [])
  | some parsed =>
      let events := elementsOf parsed "events"
      ((events.drop (events.length - auditMaxEvents)).filterMap AuditEvent.ofJs,
        (elementsOf parsed "checkpoints").filterMap AuditCheckpoint.ofJs)

/-- **A stored event is read back.** -/
theorem AuditEvent.ofJs_toJs (e : AuditEvent) : (jsonCopy? e.toJs).bind ofJs = some e := by
  obtain ⟨⟨timestamp, requestId, code, message, method, route, tenantId, targetAgent, subject⟩,
    chainIndex, prevEventHash, eventHash⟩ := e
  cases tenantId <;> cases targetAgent <;> cases subject <;> rfl

theorem AuditCheckpoint.ofJs_toJs (c : AuditCheckpoint) : (jsonCopy? c.toJs).bind ofJs = some c :=
  rfl

/-- **The audit log is read back**, where it has no more events than are kept. -/
theorem hydrate_persist_auditEvents {path : Option String} (hpath : hasPath path = true)
    {auditMaxEvents : Nat} {events : List AuditEvent} (hmax : events.length ≤ auditMaxEvents)
    (checkpoints : List AuditCheckpoint) (file : JsonFile) :
    hydrateAuditEvents path auditMaxEvents (persistAuditEvents path events checkpoints file) =
      (events, checkpoints) := by
  have hfile : persistAuditEvents path events checkpoints file =
      some (.obj [("events", .arr (jsonCopyElements (events.map AuditEvent.toJs))),
        ("checkpoints", .arr (jsonCopyElements (checkpoints.map AuditCheckpoint.toJs)))]) := by
    unfold persistAuditEvents
    rw [if_pos hpath]
    rfl
  have hevents := filterMap_jsonCopyElements AuditEvent.ofJs_toJs events
  have hcheckpoints := filterMap_jsonCopyElements AuditCheckpoint.ofJs_toJs checkpoints
  have hlength : (jsonCopyElements (events.map AuditEvent.toJs)).length ≤ auditMaxEvents := by
    rw [jsonCopyElements_map, List.length_map]
    exact hmax
  unfold hydrateAuditEvents
  rw [if_pos hpath, hfile]
  show ((List.drop (List.length (jsonCopyElements _) - _) (jsonCopyElements _)).filterMap _, _) = _
  rw [Nat.sub_eq_zero_of_le hlength, List.drop_zero, hevents]
  exact congrArg _ hcheckpoints

end MapProtocol
