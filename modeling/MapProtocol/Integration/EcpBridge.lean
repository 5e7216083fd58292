import MapProtocol.Protocol.Types
import MapProtocol.Js.Json

/-!
# From envelope to intent

`mapEnvelopeToIntent` builds the intent the core executes. Its input is the JSON object that the
envelope's intent text holds, or that text as a summary, laid over the domain constraints; payments
and database reads get defaults.
-/

namespace MapProtocol

open Js

def mapRequesterIdentity (identity : RequesterIdentity) : IntentRequester where
  type := match identity.type with
    | .user    => .user
    | .service => .service
    | .agent   => .service
  id := identity.id
  tenantId := identity.tenantId

def mapConstraints (constraints : TaskConstraints) : IntentConstraints :=
  let common := constraints.common.getD []
  { environment := common.get "environment"
    timeoutMs := common.get "timeout_ms"
    maxAmount := common.get "max_amount"
    resourceId := common.get "resource_id" }

/-- The object in an intent text, or the text as a summary. -/
structure IntentPayload where
  data    : JsObject
  summary : Option String

def parseIntentPayload (intent : String) : IntentPayload :=
  if isBlank intent then ⟨[], none⟩
  else match parse intent with
    | some (.obj es) => ⟨es, none⟩
    | _              => ⟨[], some (trim intent)⟩

def mapRequestedOutputMode : VisibilityMode → String
  | .structuredOnly => "structured"
  | .redacted       => "structured"
  | .receiptOnly    => "count_only"
  | _               => "summary"

/-- `dataset.replace(/[^a-zA-Z0-9_]/g, "_")`, unit by unit. -/
def safeDatasetName (dataset : String) : String :=
  String.ofList (dataset.toList.flatMap fun c =>
    if ('a' ≤ c && c ≤ 'z') || ('A' ≤ c && c ≤ 'Z') || ('0' ≤ c && c ≤ '9') || c == '_' then [c]
    else if c.toNat < 0x10000 then ['_'] else ['_', '_'])

/-- `summary.replace(/\*\//g, "")`. -/
def dropCommentEnds : List Char → List Char
  | '*' :: '/' :: cs => dropCommentEnds cs
  | c :: cs          => c :: dropCommentEnds cs
  | []               => []

def buildDbReadQuery (dataset : String) (service summary : Option String) : String :=
  let select := "SELECT * FROM " ++ safeDatasetName dataset
  match service, summary with
  | some _, _    => select ++ " WHERE service = $1"
  | none, some s =>
      if s = "" then select
      else select ++ " /* " ++ String.ofList (dropCommentEnds s.toList) ++ " */"
  | none, none   => select

/-- The string at `key`, where it is one and not blank. -/
def nonBlank (o : JsObject) (key : String) : Option String :=
  match o.get key with
  | .str s => if isBlank s then none else some s
  | _      => none

def mapIntentInput (envelope : TaskEnvelope) (capability : String) : JsObject :=
  let parsedInput := parseIntentPayload envelope.intent
  let common := envelope.constraints.common.getD []
  let domain := envelope.constraints.domain.getD []
  let data := parsedInput.data
  let base := domain.spread data
  if startsWith capability "payment." then
    base.spread [
      ("amount", (data.get "amount").orElse (common.get "max_amount")),
      ("currency", ((data.get "currency").orElse (common.get "currency")).orElse
        ((common.get "currency_code").orElse (.str "USD"))),
      ("vendor_id", ((data.get "vendor_id").orElse (common.get "resource_id")).orElse
        (domain.get "vendor_id")),
      ("description", (data.get "description").orElse (.ofString? parsedInput.summary))]
  else if startsWith capability "db.read." then
    -- a read names its dataset and service, and builds its query of them
    let dataset := (nonBlank domain "dataset").getD "records"
    let service := nonBlank domain "service"
    base.spread [
      ("query", (data.get "query").orElse
        (.str (buildDbReadQuery dataset service parsedInput.summary))),
      ("params", (data.get "params").orElse (.arr (service.toList.map .str))),
      ("limit", (data.get "limit").orElse
        (match common.get "limit" with
          | .num n => .num n
          | _      => .num 25)),
      ("output_mode", (data.get "output_mode").orElse
        (.str (mapRequestedOutputMode envelope.requestedOutputMode))),
      ("environment", common.get "environment"),
      ("dataset", .str dataset),
      ("service", .ofString? service)]
  else
    match parsedInput.summary with
    | none   => base
    | some s => if s = "" then base else base.spread [("intent", .str s)]

def extractRequestId (envelope : TaskEnvelope) : Option String :=
  (envelope.meta "request_id").asString

def extractWebhookUrl (envelope : TaskEnvelope) : Option String :=
  (envelope.meta "webhook_url").asString

def mapEnvelopeToIntent (envelope : TaskEnvelope) (capability : String) : Intent where
  capability := capability
  input := mapIntentInput envelope capability
  requester := mapRequesterIdentity envelope.requesterIdentity
  constraints := some (mapConstraints envelope.constraints)
  metadata := some
    { intentId := envelope.taskId
      requestId := extractRequestId envelope
      webhookUrl := extractWebhookUrl envelope }
  riskClass := some envelope.riskClass

end MapProtocol
