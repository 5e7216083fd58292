import MapProtocol.Lib.OrderedMap
import MapProtocol.Js.Text

/-!
# The alerts of the server

`AlertService` keeps a record for each alert by its id. Each reading of the alerts refreshes the
records of the candidates that the queue, the requests, the signatures and the service levels give
rise to just now, and answers with those that are not suppressed, the critical ones first.
-/

namespace MapProtocol

open Js

inductive AlertSource where
  | queue
  | requests
  | signing
  | slo
  deriving DecidableEq, Repr

inductive AlertSeverity where
  | warning
  | critical
  deriving DecidableEq, Repr

structure AlertCandidate where
  id                     : String
  source                 : AlertSource
  code                   : String
  severity               : AlertSeverity
  message                : String
  recommendedAction      : String
  tenantId               : Option String
  sloName                : Option String
  budgetRemainingPercent : Option Rat
  deriving DecidableEq, Repr

structure AlertRecord extends AlertCandidate where
  firstSeen       : String
  lastSeen        : String
  acknowledgedAt  : Option String
  acknowledgedBy  : Option String
  suppressedUntil : Option String
  suppressedBy    : Option String
  deriving DecidableEq, Repr

/-- `this.alertState`. -/
abbrev AlertState := OrderedMap String AlertRecord

/-- `{ ...existing, ...candidate }`, where a candidate without an optional field leaves it. -/
def AlertRecord.overlay (existing : AlertRecord) (candidate : AlertCandidate) : AlertCandidate :=
  { candidate with
    tenantId := candidate.tenantId.orElse fun _ => existing.tenantId
    sloName := candidate.sloName.orElse fun _ => existing.sloName
    budgetRemainingPercent :=
      candidate.budgetRemainingPercent.orElse fun _ => existing.budgetRemainingPercent }

namespace AlertState

/-- One round of the loop over the candidates. -/
def seen (nowIso : String) (state : AlertState) (candidate : AlertCandidate) : AlertState :=
  match state.get candidate.id with
  | none          => state.set candidate.id ⟨candidate, nowIso, nowIso, none, none, none, none⟩
  | some existing =>
      state.set candidate.id { existing with
        toAlertCandidate := existing.overlay candidate
        lastSeen := nowIso }

/-- Is an alert of the tenant that is asked for? An empty tenant id counts as none. -/
def isSameScope (tenantId : Option String) (existing : AlertRecord) : Bool :=
  match tenantId.filter fun t => t ≠ "" with
  | some t => decide (existing.tenantId = some t)
  | none   => existing.tenantId.isNone

/-- One round of the loop over the records: those that are no longer active are marked too. -/
def marked (tenantId : Option String) (activeIds : List String) (nowIso : String)
    (state : AlertState) (entry : String × AlertRecord) : AlertState :=
  if isSameScope tenantId entry.2 ∧ entry.1 ∉ activeIds then
    state.set entry.1 { entry.2 with lastSeen := nowIso }
  else state

/-- The state that a reading of the alerts leaves. -/
def refresh (candidates : List AlertCandidate) (tenantId : Option String) (nowIso : String)
    (state : AlertState) : AlertState :=
  let state := candidates.foldl (seen nowIso) state
  state.entries.foldl (marked tenantId (candidates.map (·.id)) nowIso) state

/-- The alerts that are active and not suppressed; `parseDate` is `Date.parse`. -/
def active (parseDate : String → Option Int) (candidates : List AlertCandidate) (now : Nat)
    (state : AlertState) : List AlertRecord :=
  (state.values.filter fun alert =>
    decide (alert.id ∈ candidates.map (·.id)) &&
      match alert.suppressedUntil.filter fun t => t ≠ "" with
      | none                 => true
      | some suppressedUntil =>
          (parseDate suppressedUntil).all fun (ms : Int) => decide (ms ≤ (now : Int))).mergeSort
    fun a b => decide (a.severity = b.severity) || decide (a.severity = .critical)

/-- `getActiveAlerts(tenantId)`, for the candidates computed. -/
def getActiveAlerts (parseDate : String → Option Int) (candidates : List AlertCandidate)
    (tenantId : Option String) (now : Nat) (state : AlertState) : AlertState × List AlertRecord :=
  let state := state.refresh candidates tenantId (toISOString now)
  (state, state.active parseDate candidates now)

def acknowledgeAlert (id actor : String) (now : Nat) (state : AlertState) : AlertState :=
  match state.get id with
  | none          => state
  | some existing =>
      state.set id { existing with
        acknowledgedAt := some (toISOString now)
        acknowledgedBy := some actor }

/-- `suppressAlert`, for a time in whole milliseconds. -/
def suppressAlert (id : String) (durationMs : Int) (actor : Option String) (now : Nat)
    (state : AlertState) : AlertState :=
  match state.get id with
  | none          => state
  | some existing =>
      state.set id { existing with
        suppressedUntil := some (toISOString (now + durationMs.toNat))
        suppressedBy := (actor.filter fun a => a ≠ "").orElse fun _ => existing.suppressedBy }

end AlertState

end MapProtocol
