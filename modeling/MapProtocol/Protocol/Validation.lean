import MapProtocol.Protocol.Types

/-!
# Schema validation

`validateTaskEnvelope` and `validateResultPackage` check a value against its JSON schema and strip
what the schema does not list: the validator is compiled with `removeAdditional: "all"`. What is
stripped matters as much as what is refused: an envelope that has been validated carries no order
id, no context id, no idempotency token and no extensions, and its common constraints only the
listed keys. The texts that the validator library makes for its errors are left out.

Whether a text parses as a date is up to `Date.parse`, the parameter `dateParses`.
-/

namespace MapProtocol

open Js

/-- `Number.isInteger(n) && n >= 1`, as the schema's `limit` asks. -/
def isPositiveInteger : JsValue → Bool
  | .num n => n.den = 1 && decide (1 ≤ n)
  | _      => false

def isString : JsValue → Bool
  | .str _ => true
  | _      => false

/-- A valid value of the common constraint `key`, stripped; `none` where it is refused. -/
def validateCommonValue (dateParses : String → Bool) (key : String) (value : JsValue) :
    Option JsValue :=
  if value.isUndefined then some value
  else if key = "resource_id" ∨ key = "currency" then
    if isString value then some value else none
  else if key = "resource_ids" then
    match value with
    | .arr xs => if xs.all isString then some value else none
    | _       => none
  else if key = "environment" then
    match value with
    | .str s => if s ∈ ["development", "staging", "production"] then some value else none
    | _      => none
  else if key = "max_amount" then
    match value with
    | .num _ => some value
    | _      => none
  else if key = "limit" then
    if isPositiveInteger value then some value else none
  else if key = "approval_required" then
    match value with
    | .bool _ => some value
    | _       => none
  else if key = "time_window" then
    match value with
    | .obj es =>
        match JsObject.get es "start", JsObject.get es "end" with
        | .str s, .str e =>
            -- the window is stripped to its two ends
            if dateParses s && dateParses e then
              some (.obj (es.filter fun p => p.1 == "start" || p.1 == "end"))
            else none
        | _, _ => none
    | _ => none
  else
    match value with
    | .str s => if s ∈ ["none", "basic", "strict"] then some value else none
    | _      => none

def commonKeys : List String :=
  ["resource_id", "resource_ids", "environment", "max_amount", "currency", "limit",
    "approval_required", "time_window", "redaction_level"]

/-- The common constraints, stripped; `none` where one is refused. -/
def validateCommon (dateParses : String → Bool) : JsObject → Option JsObject
  | []               => some []
  | (key, value) :: es =>
      if key ∈ commonKeys then
        match validateCommonValue dateParses key value, validateCommon dateParses es with
        | some v, some rest => some ((key, v) :: rest)
        | _, _              => none
      else validateCommon dateParses es

def envelopeRefused : String := "Invalid MAP task envelope"

/-- `validateTaskEnvelope`: the envelope as the validator leaves it, or the error it throws. -/
def validateTaskEnvelope (dateParses : String → Bool) (envelope : TaskEnvelope) :
    Except String TaskEnvelope :=
  if envelope.taskId = "" ∨ envelope.requesterIdentity.id = "" ∨
      envelope.requesterIdentity.tenantId = some "" ∨ envelope.targetAgent = "" ∨
      envelope.intent = "" ∨ envelope.delegationToken = "" ∨
      envelope.deadline.any (fun d => !dateParses d) then
    .error envelopeRefused
  else
    match envelope.constraints.common.mapM (validateCommon dateParses) with
    | none        => .error envelopeRefused
    | some common =>
        .ok { envelope with
          orderId := none
          contextId := none
          constraints := { envelope.constraints with common := common }
          idempotencyToken := none
          extensions := none }

/-- `^[0-9]+\.[0-9]+\.[0-9]+$`. -/
def isSchemaVersion (version : String) : Bool :=
  let parts := splitChars '.' version.toList
  parts.length == 3 &&
    parts.all fun ds => !ds.isEmpty && ds.all fun c => '0' ≤ c && c ≤ '9'

def ResultPackage.schemaVersions (r : ResultPackage) : List String :=
  r.negotiatedSchemaVersion.toList ++ r.requestedSchemaVersion.toList ++
    r.executedSchemaVersion.toList ++
    match r.negotiation with
    | none   => []
    | some n => n.requested.schemaVersion.toList ++ n.selected.schemaVersion.toList

/-- `validateResultPackage`, for a package whose fields have their types. -/
def validateResultPackage (result : ResultPackage) : Except String ResultPackage :=
  if result.taskId = "" ∨ result.schemaVersions.any (fun v => !isSchemaVersion v) then
    .error "Invalid MAP result package"
  else .ok { result with contextId := none, extensions := none }

end MapProtocol
