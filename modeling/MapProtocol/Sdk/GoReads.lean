import MapProtocol.Go.Json
import MapProtocol.Js.JsonStrings
import MapProtocol.Sdk.Clients
import MapProtocol.Sdk.GoEscapes
import MapProtocol.Sdk.GoTransport
import MapProtocol.Sdk.Retries

/-!
# Reads of the Go client

`GetTask` and `ListTasks`, from the path that is asked for to the value that comes back. The server
puts a task into an envelope and lists into another; the client reads neither. `ListTasks` hands the
whole URL to `newRequest`, which takes it for a path. An error answer is read twice: the first time
its body is used up, so that the error is made of the status alone. Where the transport retries, it
has closed the body of an answer that calls for it, and the first read fails.
-/

namespace MapProtocol.Sdk.Go

open Js GoJson

variable {id : String} {foreign : String → Option String}

/-! ## The server's routes -/

/-- A stored task, as the server sends it. -/
def taskJs (task : TaskRecord) : JsObject :=
  [("task_id", .str task.taskId), ("order_id", .ofString? task.orderId),
    ("context_id", .ofString? task.contextId),
    ("requester_identity", match task.requesterIdentity with
      | some requester => .obj requester.toJs
      | none           => .undefined),
    ("idempotency_key", .ofString? task.idempotencyKey),
    ("capability", .ofString? task.capability), ("target_agent", .ofString? task.targetAgent),
    ("status", .str task.status.text),
    ("result", match task.result with
      | some result => .obj result.toJs
      | none        => .undefined),
    ("receipt", match task.receipt with
      | some receipt => .obj receipt.toJs
      | none         => .undefined),
    ("updated_at", .str task.updatedAt)]

/-- The task that the target names to `GET /tasks/:id`. -/
def readTaskId (foreign : String → Option String) (url : String) : Option String :=
  let rest := url.toList.drop "/tasks/".length
  if startsWith url "/tasks/" && !rest.isEmpty && !rest.contains '/' then
    (pathname foreign url).bind fun path =>
      decodeURIComponent ((split path '/')[2]?.getD "undefined")
  else none

/-- Does the target lead to `GET /tasks`? -/
def listsTasks (foreign : String → Option String) (url : String) : Bool :=
  startsWith url "/tasks" && pathname foreign url == some "/tasks"

/-- The bytes of an encoded query part; what is not encoded well stands as it is. -/
def queryBytes : List Char → List UInt8
  | '%' :: a :: b :: cs =>
      match hexValue a, hexValue b with
      | some high, some low => UInt8.ofNat (16 * high + low) :: queryBytes cs
      | _, _                => 0x25 :: queryBytes (a :: b :: cs)
  | '+' :: cs           => 0x20 :: queryBytes cs
  | c :: cs             => utf8 (String.singleton c) ++ queryBytes cs
  | []                  => []

/-- `searchParams.get(name)`. -/
def searchParam (name url : String) : Option String :=
  let query := (url.toList.dropWhile (· ≠ '?')).tail.takeWhile (· ≠ '#')
  (splitChars '&' query).findSome? fun pair =>
    let (key, value) := pair.span (· ≠ '=')
    if fromUtf8 (queryBytes key) = name ∧ pair ≠ [] then some (fromUtf8 (queryBytes value.tail))
    else none

inductive ReadAnswer where
  | task (requestId : String) (task : TaskRecord)
  | tasks (requestId : String) (tasks : List TaskRecord) (limit : Nat) (nextCursor : Option String)
  | error (status : { status : Nat // 400 ≤ status }) (requestId : String) (error : ServerError)

namespace ReadAnswer

def status : ReadAnswer → Nat
  | error status _ _ => status
  | _                => 200

def body : ReadAnswer → JsObject
  | task requestId record => [("request_id", .str requestId), ("task", .obj (taskJs record))]
  | tasks requestId records limit nextCursor =>
      [("request_id", .str requestId),
        ("tasks", .arr (records.map fun record => .obj (taskJs record))),
        ("pagination", .obj [("limit", .num limit),
          ("next_cursor", match nextCursor with
            | some cursor => .str cursor
            | none        => .null)])]
  | error _ requestId e => errorBody requestId e

end ReadAnswer

/-! ## The client's types -/

def negotiationTerms : List (String × GoType) :=
  [("schema_version", .string), ("output_mode", .string), ("delivery_mode", .string)]

def invocationNegotiation : GoType :=
  .struct [("requested", .pointer (.struct negotiationTerms)),
    ("selected", .pointer (.struct negotiationTerms)), ("provider_actions", .slice .string)]

def resultPackage : GoType :=
  .struct [("task_id", .string), ("status", .string), ("summary", .string),
    ("structured_output", .any), ("receipt_ref", .string), ("negotiated_schema_version", .string),
    ("requested_schema_version", .string), ("executed_schema_version", .string),
    ("negotiation", .pointer invocationNegotiation), ("redactions_applied", .slice .string),
    ("followup_required", .bool), ("escalation_reason", .string)]

def executionReceipt : GoType :=
  .struct [("receipt_id", .string), ("task_id", .string), ("tenant_id", .string),
    ("request_id", .string), ("agent_id", .string), ("action_taken", .string),
    ("resource_touched", .string), ("policy_checks", .slice .string), ("approval_used", .string),
    ("timestamp", .string), ("result_hash", .string), ("requested_schema_version", .string),
    ("executed_schema_version", .string), ("negotiation", .pointer invocationNegotiation),
    ("signature", .string)]

def taskRecordFields : List (String × GoType) :=
  [("task_id", .string),
    ("requester_identity", .struct [("type", .string), ("id", .string), ("tenant_id", .string)]),
    ("idempotency_key", .string), ("capability", .string), ("target_agent", .string),
    ("status", .string), ("result", .pointer resultPackage), ("receipt", .pointer executionReceipt),
    ("updated_at", .string)]

def taskRecord : GoType := .struct taskRecordFields

def paginatedTasks : GoType :=
  .struct [("items", .slice taskRecord),
    ("pagination", .struct [("limit", .int), ("next_cursor", .string), ("total", .int)])]

/-- `MapErrorResponse`, and `MapAPIError` apart from the status. -/
def errorFields : List (String × GoType) :=
  [("code", .string), ("message", .string), ("retryable", .bool),
    ("details", .pointer (.struct [("category", .string), ("field", .string), ("value", .any),
      ("context", .any)])), ("request_id", .string)]

/-! ## The client -/

structure MapAPIError where
  code      : String
  message   : String
  retryable : Bool
  status    : Nat

inductive GoError where
  | api (error : MapAPIError)
  | other (message : String)

/-- `ErrTaskNotFound`, which is `ErrNotFound`. -/
def errTaskNotFound : GoError := .other "resource not found"

/-- `ErrorCodeRetryableMap`, as in the other packages. -/
def ErrorCodeRetryableMap : List (String × Bool) := ERROR_CODE_RETRYABLE_MAP

def errorCodeFromStatus (status : Nat) : String :=
  match status with
  | 404 => "resource_not_found"
  | 401 => "unauthorized"
  | 403 => "forbidden"
  | 400 => "invalid_request"
  | 409 => "idempotency_conflict"
  | 429 => "rate_limit_exceeded"
  | 408 => "request_timeout"
  | _   => if 500 ≤ status then "internal_error" else "invalid_request"

/-- `http.StatusText`, from 400 on. -/
def statusText (status : Nat) : String :=
  let texts := [(400, "Bad Request"), (401, "Unauthorized"), (402, "Payment Required"),
    (403, "Forbidden"), (404, "Not Found"), (405, "Method Not Allowed"), (406, "Not Acceptable"),
    (407, "Proxy Authentication Required"), (408, "Request Timeout"), (409, "Conflict"),
    (410, "Gone"), (411, "Length Required"), (412, "Precondition Failed"),
    (413, "Request Entity Too Large"), (414, "Request URI Too Long"),
    (415, "Unsupported Media Type"), (416, "Requested Range Not Satisfiable"),
    (417, "Expectation Failed"), (418, "I'm a teapot"), (421, "Misdirected Request"),
    (422, "Unprocessable Entity"), (423, "Locked"), (424, "Failed Dependency"), (425, "Too Early"),
    (426, "Upgrade Required"), (428, "Precondition Required"), (429, "Too Many Requests"),
    (431, "Request Header Fields Too Large"), (451, "Unavailable For Legal Reasons"),
    (500, "Internal Server Error"), (501, "Not Implemented"), (502, "Bad Gateway"),
    (503, "Service Unavailable"), (504, "Gateway Timeout"), (505, "HTTP Version Not Supported"),
    (506, "Variant Also Negotiates"), (507, "Insufficient Storage"), (508, "Loop Detected"),
    (510, "Not Extended"), (511, "Network Authentication Required")]
  ((texts.find? fun e => e.1 == status).map Prod.snd).getD ""

/-- A response, and the JSON that the bytes of its body are the text of. -/
structure JsonResponse where
  response : Response
  json     : JsObject

def JsonResponse.status (resp : JsonResponse) : Nat := resp.response.statusCode

/-- `io.ReadAll(resp.Body)`: the JSON, if its text is still there. -/
def JsonResponse.readAll (resp : JsonResponse) : Except String (Option JsObject) × JsonResponse :=
  match resp.response.body with
  | none      => (.ok none, resp)
  | some body =>
      let (bytes, err, body) := body.readAll
      let resp' := { resp with response := { resp.response with body := some body } }
      match err with
      | some err => (.error err, resp')
      | none     => (.ok (if bytes = [] then none else some resp.json), resp')

/-- The error that a body holds, if it names a code. `MapErrorResponse` and `MapAPIError` are read
from the same members. -/
def errorOfBody (status : Nat) (body : JsObject) : Option MapAPIError :=
  match unmarshal (.struct errorFields) (.obj body) with
  | some v =>
      match v.field "code", v.field "message", v.field "retryable" with
      | .string code, .string message, .bool retryable =>
          if code = "" then none else some ⟨code, message, retryable, status⟩
      | _, _, _ => none
  | none => none

def parseHTTPError (resp : JsonResponse) : MapAPIError :=
  match resp.readAll.1 with
  | .error err => ⟨"internal_error", "failed to read response body: " ++ err, false, resp.status⟩
  | .ok body   =>
      match body.bind (errorOfBody resp.status) with
      | some error => error
      | none       =>
          let code := errorCodeFromStatus resp.status
          let text := match body with
            | some o => trim (stringify o)
            | none   => ""
          { code
            message   := if text = "" then statusText resp.status else text
            retryable := (OrderedMap.getEntries code ErrorCodeRetryableMap).getD false
            status    := resp.status }

/-- `parseResponse`, into a variable of the type. -/
def parseResponse (t : GoType) (resp : JsonResponse) : Except GoError GoValue :=
  match resp.readAll with
  | (.error err, _)   => .error (.other ("failed to read response body: " ++ err))
  | (.ok body, resp') =>
      if 400 ≤ resp.status then .error (.api (parseHTTPError resp'))
      else match body with
        | none      => .ok (zero t)
        | some body =>
            match unmarshal t (.obj body) with
            | some v => .ok v
            | none   => .error (.other "failed to decode response")

/-- The answer as it is sent, but for the spaces and line breaks between its tokens. -/
def ReadAnswer.response (answer : ReadAnswer) : Response where
  statusCode := answer.status
  header     := [("Content-Type", ["application/json; charset=utf-8"])]
  body       := some { unread := utf8 (stringify answer.body)
                       closed := some "http: read on closed response body" }

/-- What meets the attempts of a read: the server's answer to each, and the error of the context
before it. -/
structure ReadNetwork where
  answer       : Nat → Except String ReadAnswer
  contextError : Nat → Option String

def ReadNetwork.responses (network : ReadNetwork) : Network where
  answer attempt := (network.answer attempt).map ReadAnswer.response
  contextError   := network.contextError

/-- `c.httpClient.Do(req)`, without the method and the URL that stand before an error's text. -/
def doRequest (t : RetryTransport) (network : Network) (req : Request) : Except String Response :=
  let outcome := t.roundTrip network req
  match outcome.response with
  | some resp => .ok resp
  | none      => .error (outcome.error.getD ("http: RoundTripper implementation " ++
      "(*mapproto.HTTPTransport) returned a nil *Response with a nil error"))

/-- `GetTask`, from the response on. -/
def getTask (resp : Except String JsonResponse) : Except GoError GoValue :=
  match resp with
  | .error err => .error (.other ("get task request failed: " ++ err))
  | .ok resp   =>
      if resp.status = 404 then .error errTaskNotFound else parseResponse taskRecord resp

/-- `ListTasks`, from the response on. -/
def listTasks (resp : Except String JsonResponse) : Except GoError GoValue :=
  match resp with
  | .error err => .error (.other ("list tasks request failed: " ++ err))
  | .ok resp   => parseResponse paginatedTasks resp

structure ListTasksOptions where
  tenantID    : String
  status      : String
  capability  : String
  targetAgent : String
  limit       : Int
  cursor      : String

/-- The parameters by their names in order; what is empty is not set. -/
def ListTasksOptions.values (opts : ListTasksOptions) : List (String × String) :=
  [("capability", opts.capability), ("cursor", opts.cursor),
    ("limit", if 0 < opts.limit then toString opts.limit.toNat else ""), ("status", opts.status),
    ("target_agent", opts.targetAgent), ("tenant_id", opts.tenantID)]

/-- `url.Values.Encode`. -/
def ListTasksOptions.query (opts : ListTasksOptions) : String :=
  "&".intercalate
    ((opts.values.filter fun e => e.2 ≠ "").map fun e => e.1 ++ "=" ++ queryEscape e.2)

/-- A base URL without a path. -/
structure BaseURL where
  secure : Bool
  host   : String
  /-- No host has the name of a dot segment. -/
  named  : '/' ∉ host.toList ∧ host ≠ ".."

def BaseURL.text (base : BaseURL) : String :=
  (if base.secure then "https:" else "http:") ++ "//" ++ base.host

/-- The path that `ListTasks` hands to `newRequest`: the text of the URL. `JoinPath` puts a slash
before it. -/
def listTasksPath (base : BaseURL) (opts : ListTasksOptions) : String :=
  "/" ++ base.text ++ "/tasks" ++ (if opts.query = "" then "" else "?" ++ opts.query)

/-- A read, with what the caller gives. -/
inductive TaskRead where
  | get (taskID tenantID : String)
  | list (opts : ListTasksOptions)

def TaskRead.target (base : BaseURL) : TaskRead → String
  | get taskID tenantID => String.ofList (requestTarget (Call.getTask taskID tenantID).path.toList)
  | list opts           => String.ofList (requestTarget (listTasksPath base opts).toList)

/-! ## What a read is to give -/

/-- The request leads to the route of the task or of the list, with all parameters. -/
def TaskRead.Intended (foreign : String → Option String) (base : BaseURL) (read : TaskRead) : Prop :=
  match read with
  | get taskID tenantID =>
      readTaskId foreign (read.target base) = some taskID ∧
        (searchParam "tenant_id" (read.target base)).getD "" = tenantID
  | list opts =>
      listsTasks foreign (read.target base) = true ∧
        ∀ e ∈ opts.values, e.2 ≠ "" → searchParam e.1 (read.target base) = some e.2

/-- The record has the task's id, status and capability, and every field of its result and of its
receipt. -/
def SameTask (got : GoValue) (task : JsObject) : Prop :=
  (∀ name ∈ ["task_id", "status", "capability"], ∀ v,
      OrderedMap.getEntries name task = some v → (got.field name).toJs = v) ∧
    ∀ part ∈ ["result", "receipt"], ∀ members,
      OrderedMap.getEntries part task = some (.obj members) → ∀ name v,
        OrderedMap.getEntries name members = some v → ((got.field part).field name).toJs = v

section

variable (base : BaseURL) (t : RetryTransport) (network : ReadNetwork) (read : TaskRead)

def TaskRead.request : Request where
  method := "GET"
  url    := base.text ++ read.target base
  header := [("Content-Type", ["application/json"]), ("Accept", ["application/json"]),
    ("User-Agent", ["mapproto-go/v0.1.0"])]
  body   := none

/-- The server's answer: that to the last request that the transport makes. -/
def TaskRead.answered : Option ReadAnswer :=
  match (t.roundTrip network.responses (read.request base)).calls.length with
  | 0        => none
  | made + 1 => (network.answer made).toOption

/-- The response that the client gets. -/
def TaskRead.received : Except String JsonResponse :=
  (doRequest t network.responses (read.request base)).map fun response =>
    { response
      json := ((read.answered base t network).map fun answer =>
        jsonCopyMembers answer.body).getD [] }

def TaskRead.outcome : Except GoError GoValue :=
  match read with
  | get _ _ => getTask (read.received base t network)
  | list _  => listTasks (read.received base t network)

/-- What the read returns is what the server answered. -/
def TaskRead.Carries (answer : ReadAnswer) : Prop :=
  match read, answer with
  | get _ _, .task _ task =>
      ∃ got, read.outcome base t network = .ok got ∧ SameTask got (jsonCopyMembers (taskJs task))
  | list _, .tasks _ tasks _ _ =>
      ∃ got items, read.outcome base t network = .ok got ∧ got.field "items" = .slice items ∧
        List.Forall₂ (fun item task => SameTask item (jsonCopyMembers (taskJs task))) items tasks
  | read, .error status _ error =>
      read.outcome base t network =
        .error (.api ⟨error.code, error.message, error.retryable, status⟩)
  | _, _ => False

/-- The read asks the route that it is for, and returns what the server answers. -/
def TaskRead.Meets (foreign : String → Option String) (answer : ReadAnswer) : Prop :=
  read.Intended foreign base ∧ read.Carries base t network answer

end

/-! ## Lists -/

theorem cleanSegments_keeps {out segments : List (List Char)}
    (h : ∀ s ∈ segments, s ≠ ['.', '.']) : ∃ rest, cleanSegments out segments = rest ++ out := by
  fun_induction cleanSegments out segments with
  | case1 out => exact ⟨[], rfl⟩
  | case2 out => exact ⟨[[]], rfl⟩
  | case3 out => exact ⟨[], rfl⟩
  | case4 out => exact absurd rfl (h _ List.mem_cons_self)
  | case5 out segment => exact ⟨[segment], rfl⟩
  | case6 out segment rest _ _ ih => exact ih (List.forall_mem_cons.mp h).2
  | case7 out rest => exact absurd rfl (h _ List.mem_cons_self)
  | case8 out segment rest _ _ _ ih =>
      obtain ⟨kept, hkept⟩ := ih (List.forall_mem_cons.mp h).2
      exact ⟨kept ++ [segment], by simp [hkept]⟩

theorem slash_notMem_queryEscape (s : String) : '/' ∉ (queryEscape s).toList := by
  unfold queryEscape
  rw [String.toList_ofList, List.mem_flatMap]
  rintro ⟨c, -, hc⟩
  split at hc
  · rename_i hkept
    rw [← List.mem_singleton.mp hc] at hkept
    exact absurd hkept (by decide)
  · split at hc
    · exact absurd (List.mem_singleton.mp hc) (by decide)
    · obtain ⟨b, -, hb⟩ := List.mem_flatMap.mp hc
      exact absurd (isSegmentChar_percentByte b '/' hb) (by decide)

theorem slash_notMem_intercalate {parts : List String} (h : ∀ s ∈ parts, '/' ∉ s.toList) :
    '/' ∉ ("&".intercalate parts).toList := by
  induction parts with
  | nil => simp
  | cons s parts ih =>
      obtain ⟨hs, hparts⟩ := List.forall_mem_cons.mp h
      cases parts with
      | nil => simpa using hs
      | cons t parts =>
          have hrest := ih hparts
          rw [String.intercalate_cons_cons]
          simp only [String.toList_append, List.mem_append, not_or]
          exact ⟨⟨hs, by decide⟩, hrest⟩

theorem slash_notMem_query (opts : ListTasksOptions) : '/' ∉ opts.query.toList := by
  refine slash_notMem_intercalate fun s hs => ?_
  obtain ⟨e, he, rfl⟩ := List.mem_map.mp hs
  have hname : e.1 ∈ ["capability", "cursor", "limit", "status", "target_agent", "tenant_id"] :=
    List.mem_map_of_mem (List.mem_filter.mp he).1
  have hplain : (["capability", "cursor", "limit", "status", "target_agent", "tenant_id"].all
      fun name => !name.toList.contains '/') = true := by decide
  have hslash := List.all_eq_true.mp hplain e.1 hname
  have hvalue := slash_notMem_queryEscape e.2
  simp only [String.toList_append, List.mem_append, not_or]
  exact ⟨⟨by simpa using hslash, by decide⟩, hvalue⟩

/-- The text of the URL, joined as a path, begins with the URL's scheme. -/
theorem joinedPath_list (base : BaseURL) (opts : ListTasksOptions) :
    ∃ cs, joinedPath (listTasksPath base opts).toList = '/' :: 'h' :: cs := by
  obtain ⟨scheme, hscheme⟩ : ∃ scheme, (if base.secure then "https:" else "http:").toList =
      'h' :: scheme := by
    cases base.secure <;> exact ⟨_, rfl⟩
  have hslash : '/' ∉ (if base.secure then "https:" else "http:").toList := by
    cases base.secure <;> decide
  obtain ⟨last, hlast, hquery⟩ : ∃ last,
      ("tasks" ++ if opts.query = "" then "" else "?" ++ opts.query).toList = 't' :: last ∧
        '/' ∉ 't' :: last := by
    have hopts := slash_notMem_query opts
    refine ⟨"asks".toList ++ (if opts.query = "" then "" else "?" ++ opts.query).toList, ?_, ?_⟩
    · rw [String.toList_append]
      rfl
    · split <;> simp [hopts]
  obtain ⟨hhost, hdots⟩ := base.named
  have hpath : (listTasksPath base opts).toList =
      '/' :: ('h' :: scheme ++ '/' :: ([] ++ '/' :: (base.host.toList ++ '/' :: 't' :: last))) := by
    rw [← hlast, ← hscheme]
    simp [listTasksPath, BaseURL.text]
  rw [hscheme] at hslash
  have hsegments : splitChars '/' (listTasksPath base opts).toList.tail =
      ['h' :: scheme, [], base.host.toList, 't' :: last] := by
    rw [hpath, List.tail_cons, splitChars_append hslash, splitChars_append List.not_mem_nil,
      splitChars_append hhost, splitChars_of_notMem hquery]
  have hfirst : cleanSegments [] ['h' :: scheme, [], base.host.toList, 't' :: last] =
      cleanSegments ['h' :: scheme] [[], base.host.toList, 't' :: last] := by
    simp [cleanSegments]
  obtain ⟨rest, hrest⟩ : ∃ rest,
      cleanSegments ['h' :: scheme] [[], base.host.toList, 't' :: last] = rest ++ ['h' :: scheme] := by
    refine cleanSegments_keeps fun s hs => ?_
    simp only [List.mem_cons, List.not_mem_nil, or_false] at hs
    rcases hs with rfl | rfl | rfl
    · decide
    · intro heq
      exact hdots (by rw [← String.ofList_toList (s := base.host), heq])
    · simp
  refine ⟨scheme ++ pathText rest.reverse, ?_⟩
  unfold joinedPath
  rw [hsegments, hfirst, hrest, List.reverse_append]
  simp [pathText]

/-- The target of a list is the root, or a path below that of the URL's scheme. -/
theorem listTarget_head (base : BaseURL) (opts : ListTasksOptions) :
    ((TaskRead.list opts).target base).toList = ['/'] ∨
      ∃ cs, ((TaskRead.list opts).target base).toList = '/' :: 'h' :: cs := by
  obtain ⟨cs, hjoined⟩ := joinedPath_list base opts
  unfold TaskRead.target requestTarget
  rw [String.toList_ofList, hjoined]
  dsimp only
  cases hbytes : percentBytes ('/' :: 'h' :: cs) with
  | none => exact .inl rfl
  | some bytes =>
      right
      dsimp only
      split
      · rename_i hstar
        have hletter : 'h' = '%' := (List.cons.inj (List.cons.inj hstar).2).1
        exact absurd hletter (by decide)
      · split
        · exact ⟨cs, rfl⟩
        · rw [percentBytes_cons (by decide), percentBytes_cons (by decide)] at hbytes
          cases hrest : percentBytes cs with
          | none =>
              rw [hrest] at hbytes
              cases hbytes
          | some rest =>
              rw [hrest] at hbytes
              cases hbytes
              exact ⟨_, rfl⟩

theorem list_not_intended (foreign : String → Option String) (base : BaseURL)
    (opts : ListTasksOptions) : ¬(TaskRead.list opts).Intended foreign base := by
  rintro ⟨hlists, -⟩
  have hstarts : startsWith ((TaskRead.list opts).target base) "/tasks" = true := by
    unfold listsTasks at hlists
    exact (Bool.and_eq_true_iff.mp hlists).1
  unfold startsWith at hstarts
  rcases listTarget_head base opts with hroot | ⟨cs, hscheme⟩
  · rw [hroot] at hstarts
    exact absurd hstarts (by decide)
  · rw [hscheme] at hstarts
    simp [List.isPrefixOf] at hstarts

/-! ## Single tasks

The segment of a task's path is decoded to the id it was made of. -/

theorem pathText_tasks (segment : List Char) :
    pathText ["tasks".toList, segment] = "/tasks/".toList ++ segment := by
  simp only [pathText, List.flatMap_cons, List.flatMap_nil, List.append_nil]
  rfl

/-- A plain segment below `/tasks/` is decoded as it is. -/
theorem readTaskId_plain (foreign : String → Option String) {segment : List Char}
    (h : PlainSegment segment) (hne : segment ≠ []) :
    readTaskId foreign (String.ofList (pathText ["tasks".toList, segment])) =
      decodeURIComponent (String.ofList segment) := by
  have hslash := slash_notMem h
  have hrest : (pathText ["tasks".toList, segment]).drop "/tasks/".length = segment := by
    rw [pathText_tasks]
    rfl
  have hstarts : startsWith (String.ofList (pathText ["tasks".toList, segment])) "/tasks/" =
      true := by
    unfold startsWith
    rw [pathText_tasks, @String.toList_ofList (_ ++ segment)]
    exact List.isPrefixOf_iff_prefix.mpr (List.prefix_append _ _)
  have hplain : ∀ s ∈ ["tasks".toList, segment], PlainSegment s := by
    intro s hs
    rcases List.mem_pair.mp hs with rfl | rfl
    · exact ⟨List.all_eq_true.mp (by decide), by decide, by decide⟩
    · exact h
  have hread := @pathname_plain foreign _ hplain ⟨'t', "asks".toList, [segment], rfl⟩ [] (.inl rfl)
    (fun _ h => nomatch h)
  rw [List.append_nil] at hread
  have hsplit : split (String.ofList (pathText ["tasks".toList, segment])) '/' =
      ["", "tasks", String.ofList segment] := by
    have hchars : pathText ["tasks".toList, segment] =
        [] ++ '/' :: ("tasks".toList ++ '/' :: segment) := by simp [pathText]
    unfold split
    rw [String.toList_ofList, hchars, splitChars_append List.not_mem_nil,
      splitChars_append (by decide), splitChars_of_notMem hslash]
    rfl
  unfold readTaskId
  dsimp only
  rw [@String.toList_ofList (pathText _), hrest, hstarts, hread, Option.bind_some, hsplit]
  simp [hne, hslash]

/-- An id that is a segment of its own, with nothing to unescape. -/
structure DirectId (id : String) : Prop where
  named   : id ∉ ["", ".", ".."]
  slash   : '/' ∉ id.toList
  percent : '%' ∉ id.toList

def taskPath (id : String) : List Char := ("/tasks/" ++ id).toList

theorem taskPath_eq (id : String) : taskPath id = "/tasks/".toList ++ id.toList :=
  String.toList_append

theorem DirectId.segment_ne (h : DirectId id) :
    id.toList ≠ [] ∧ id.toList ≠ ['.'] ∧ id.toList ≠ ['.', '.'] := by
  have hid := h.named
  simp only [List.mem_cons, List.not_mem_nil, or_false, not_or] at hid
  refine ⟨fun heq => hid.1 ?_, fun heq => hid.2.1 ?_, fun heq => hid.2.2 ?_⟩ <;>
    exact String.toList_inj.mp heq

theorem DirectId.joinedPath_eq (h : DirectId id) :
    joinedPath (taskPath id) = taskPath id := by
  obtain ⟨hempty, hdot, hdots⟩ := h.segment_ne
  have hpath : taskPath id = '/' :: ("tasks".toList ++ '/' :: id.toList) := by
    rw [taskPath_eq]
    rfl
  have hsplit : splitChars '/' ("tasks".toList ++ '/' :: id.toList) = ["tasks".toList, id.toList] := by
    rw [splitChars_append (by decide), splitChars_of_notMem h.slash]
  rw [hpath]
  apply joinedPath_of_clean
  rw [hsplit]
  simp [cleanSegments, hempty, hdot, hdots]

/-- The segment that is sent for an id. -/
theorem DirectId.sent (h : DirectId id) :
    ∃ segment, requestTarget (taskPath id) = "/tasks/".toList ++ segment ∧
      PlainSegment segment ∧ segment ≠ [] ∧ percentBytes segment = some (utf8 id) := by
  obtain ⟨hempty, hdot, hdots⟩ := h.segment_ne
  have hpercent : '%' ∉ taskPath id := by
    rw [taskPath_eq, List.mem_append, not_or]
    exact ⟨by decide, h.percent⟩
  have hstar : taskPath id ≠ "/%2A".toList := by
    intro heq
    rw [heq] at hpercent
    exact hpercent (by decide)
  have hbytes := percentBytes_plain hpercent
  unfold requestTarget
  dsimp only
  rw [h.joinedPath_eq, hbytes]
  dsimp only
  rw [if_neg hstar]
  split
  · -- the id is sent as it is
    rename_i hall
    refine ⟨id.toList, taskPath_eq id, ⟨fun c hc => ?_, ?_, ?_⟩, hempty, ?_⟩
    · have hmem : c ∈ taskPath id := by
        rw [taskPath_eq]
        exact List.mem_append_right _ hc
      refine (isSegmentChar_of_isPathChar (List.all_eq_true.mp hall c hmem)).resolve_left ?_
      rintro rfl
      exact h.slash hc
    · unfold isSingleDot
      rw [dotted_of_notMem h.percent]
      exact decide_eq_false hdot
    · unfold isDoubleDot
      rw [dotted_of_notMem h.percent]
      exact decide_eq_false hdots
    · rw [percentBytes_plain h.percent, String.ofList_toList]
  · -- the bytes of the id are escaped
    have hescaped : (utf8 id).flatMap escapeByte = goSegments.encode id.toList := by
      rw [← escapeBytes_segment h.slash, String.ofList_toList]
    refine ⟨goSegments.encode id.toList, ?_, goSegments.plain_encode hdot hdots, ?_, ?_⟩
    · have hself : (utf8 "/tasks/").flatMap escapeByte = "/tasks/".toList := by decide
      unfold taskPath
      rw [String.ofList_toList, utf8_append, List.flatMap_append, hself, hescaped]
    · intro hnil
      exact hempty (goSegments.eq_of_encode hnil List.not_mem_nil)
    · rw [← hescaped, percentBytes_escapeBytes]

theorem DirectId.readTaskId_eq (h : DirectId id) (foreign : String → Option String) :
    readTaskId foreign (String.ofList (requestTarget (taskPath id))) = some id := by
  obtain ⟨segment, htarget, hplain, hne, hbytes⟩ := h.sent
  rw [htarget, ← pathText_tasks, readTaskId_plain foreign hplain hne]
  apply decodeURIComponent_eq_some.mpr
  rw [String.toList_ofList]
  exact hbytes

/-- A target that leads to a task is a segment below `/tasks/`. -/
theorem readTaskId_shape {target : List Char}
    (h : readTaskId foreign (String.ofList target) = some id) :
    ∃ segment, target = "/tasks/".toList ++ segment ∧ segment ≠ [] ∧ '/' ∉ segment ∧
      (pathname foreign (String.ofList target)).bind (fun path =>
        decodeURIComponent ((split path '/')[2]?.getD "undefined")) = some id := by
  unfold readTaskId at h
  dsimp only at h
  split at h
  · rename_i hguard
    rw [@String.toList_ofList target] at hguard
    obtain ⟨hfirst, hslash⟩ := Bool.and_eq_true_iff.mp hguard
    obtain ⟨hstarts, hne⟩ := Bool.and_eq_true_iff.mp hfirst
    unfold startsWith at hstarts
    rw [@String.toList_ofList target] at hstarts
    obtain ⟨segment, rfl⟩ := List.isPrefixOf_iff_prefix.mp hstarts
    have hdrop : ("/tasks/".toList ++ segment).drop "/tasks/".length = segment := rfl
    rw [hdrop] at hne hslash
    exact ⟨segment, rfl, by simpa using hne, by simpa using hslash, h⟩
  · cases h

/-- What the server decodes of a target of path characters: the segment, unless it is a dot
segment. -/
theorem decoded_of_read {segment : List Char}
    (hchars : ∀ c ∈ "/tasks/".toList ++ segment, isPathChar c = true) (hslash : '/' ∉ segment)
    (hne : segment ≠ [])
    (h : readTaskId foreign (String.ofList ("/tasks/".toList ++ segment)) = some id) :
    percentBytes segment = some (utf8 id) ∨ (isSingleDot segment = true ∧ id = "") ∨
      (isDoubleDot segment = true ∧ id = "undefined") := by
  obtain ⟨-, -, -, -, hdecoded⟩ := readTaskId_shape h
  rw [← pathText_tasks] at hchars h hdecoded
  have hslashes : ∀ s ∈ ["tasks".toList, segment], '/' ∉ s := by
    intro s hs
    rcases List.mem_pair.mp hs with rfl | rfl
    · decide
    · exact hslash
  have hfirst : ["tasks".toList, segment].head? ≠ some [] := by
    rw [List.head?_cons]
    exact fun h => absurd (Option.some.inj h) (by decide)
  have hread := pathname_pathText foreign (List.cons_ne_nil _ _) hslashes hchars (.inr hfirst)
  have htasks : isDoubleDot "tasks".toList = false ∧ isSingleDot "tasks".toList = false := by decide
  cases hdouble : isDoubleDot segment with
  | true =>
      have hresolved : resolveSegments [] ["tasks".toList, segment] = [[]] := by
        simp [resolveSegments, hdouble]
      rw [hread, hresolved] at hdecoded
      have hroot : ((some (String.ofList (pathText [[]]))).bind fun path =>
          decodeURIComponent ((split path '/')[2]?.getD "undefined")) = some "undefined" := by
        decide
      exact .inr (.inr ⟨rfl, Option.some.inj (hdecoded.symm.trans hroot)⟩)
  | false =>
      cases hsingle : isSingleDot segment with
      | true =>
          have hresolved : resolveSegments [] ["tasks".toList, segment] =
              [[], "tasks".toList] := by
            have hkept : "tasks".toList.flatMap encodePathChar = "tasks".toList := by decide
            simp only [resolveSegments, htasks, hdouble, hsingle, hkept]
            rfl
          rw [hread, hresolved] at hdecoded
          have htasksRoot : ((some (String.ofList (pathText [[], "tasks".toList].reverse))).bind
              fun path => decodeURIComponent ((split path '/')[2]?.getD "undefined")) = some "" := by
            decide
          exact .inr (.inl ⟨rfl, Option.some.inj (hdecoded.symm.trans htasksRoot)⟩)
      | false =>
          have hplain : PlainSegment segment :=
            ⟨isSegmentChar_of_segments hslashes hchars _ (by simp), hsingle, hdouble⟩
          rw [readTaskId_plain foreign hplain hne] at h
          have hbytes := decodeURIComponent_eq_some.mp h
          rw [String.toList_ofList] at hbytes
          exact .inl hbytes

theorem target_of_read {path : List Char}
    (h : readTaskId foreign (String.ofList (requestTarget path)) = some id) :
    ∃ bytes, percentBytes (joinedPath path) = some bytes ∧ joinedPath path ≠ "/%2A".toList := by
  cases hbytes : percentBytes (joinedPath path) with
  | none =>
      have htarget : requestTarget path = ['/'] := by
        unfold requestTarget
        dsimp only
        rw [hbytes]
      rw [htarget] at h
      cases h
  | some bytes =>
      refine ⟨bytes, rfl, fun hstar => ?_⟩
      have htarget : requestTarget path = "/*".toList := by
        unfold requestTarget
        dsimp only
        rw [hbytes]
        exact if_pos hstar
      rw [htarget] at h
      cases h

/-- Only an id that is a segment of its own is read back. -/
theorem directId_of_read
    (h : readTaskId foreign (String.ofList (requestTarget (taskPath id))) = some id) :
    DirectId id := by
  have hnamed : id ∉ ["", ".", ".."] := by
    simp only [List.mem_cons, List.not_mem_nil, or_false, not_or]
    refine ⟨?_, ?_, ?_⟩ <;> rintro rfl <;> cases h
  obtain ⟨bytes, hbytes, hstar⟩ := target_of_read h
  have htarget := percentBytes_requestTarget hbytes hstar
  obtain ⟨segment, hsegment, hne, hslash, -⟩ := readTaskId_shape h
  have hchars := isPathChar_requestTarget (taskPath id)
  rw [hsegment] at h htarget hchars
  have hdecoded : percentBytes segment = some (utf8 id) := by
    rcases decoded_of_read hchars hslash hne h with hdecoded | ⟨-, hempty⟩ | ⟨hdots, hundefined⟩
    · exact hdecoded
    · exact absurd (by simp [hempty]) hnamed
    · -- the root has no third piece, and the word for it is sent as it is
      rw [hundefined] at hsegment
      have hsent : requestTarget (taskPath "undefined") =
          "/tasks/".toList ++ "undefined".toList := by decide +kernel
      have hsame := List.append_cancel_left (hsent.symm.trans hsegment)
      rw [← hsame] at hdots
      exact absurd hdots (by decide)
  have hpath := taskPath_eq id
  have hcount : bytes = utf8 "/tasks/" ++ utf8 id := by
    rw [percentBytes_append (by decide), hdecoded] at htarget
    exact (Option.some.inj htarget).symm
  obtain ⟨cs, hcs⟩ : ∃ cs, taskPath id = '/' :: cs := ⟨_, hpath⟩
  -- what was joined unescapes to the whole path, so nothing was cleaned away
  have hlength : ('/' :: cs).length ≤ bytes.countP isLeadByte := by
    rw [← hcs, hcount, ← utf8_append, ← String.ofList_toList (s := "/tasks/" ++ id), countP_utf8]
    exact Nat.le_refl _
  rw [hcs] at hbytes
  obtain ⟨hjoined, hpercent⟩ := joinedPath_of_count hbytes hlength
  rw [← hcs] at hjoined hpercent hbytes
  rw [hpath, List.mem_append, not_or] at hpercent
  refine ⟨hnamed, fun hmem => ?_, hpercent.2⟩
  -- sent as it is or escaped, the segment keeps a slash of the id
  have hcases : requestTarget (taskPath id) = taskPath id ∨
      requestTarget (taskPath id) = bytes.flatMap escapeByte := by
    unfold requestTarget
    dsimp only
    rw [hbytes]
    dsimp only
    rw [if_neg hstar]
    split
    · exact .inl hjoined
    · exact .inr rfl
  rcases hcases with hkept | hescaped
  · have hsame := List.append_cancel_left (hpath.symm.trans (hkept.symm.trans hsegment))
    rw [hsame] at hmem
    exact hslash hmem
  · have hself : (utf8 "/tasks/").flatMap escapeByte = "/tasks/".toList := by decide
    rw [hcount, List.flatMap_append, hself, hsegment] at hescaped
    have hsame := List.append_cancel_left hescaped
    rw [hsame] at hslash
    have hid := slash_escapeBytes hmem
    rw [String.ofList_toList] at hid
    exact hslash hid

theorem searchParam_of_notMem (name : String) {target : List Char} (h : '?' ∉ target) :
    searchParam name (String.ofList target) = none := by
  have hdrop : target.dropWhile (· ≠ '?') = [] := by
    rw [List.dropWhile_eq_nil_iff]
    intro c hc
    apply decide_eq_true
    rintro rfl
    exact h hc
  unfold searchParam
  rw [String.toList_ofList, hdrop]
  have hsplit : splitChars '&' [] = [[]] := rfl
  dsimp only [List.tail_nil, List.takeWhile_nil]
  rw [hsplit]
  simp

/-- The reads that reach the route that they are for: of a task, without a tenant. -/
def TaskRead.Direct : TaskRead → Prop
  | get taskID tenantID => tenantID = "" ∧ DirectId taskID
  | list _              => False

/-- **When a read reaches its route.** -/
theorem TaskRead.intended_iff (foreign : String → Option String) (base : BaseURL)
    (read : TaskRead) : read.Intended foreign base ↔ read.Direct := by
  cases read with
  | list opts => exact iff_of_false (list_not_intended foreign base opts) id
  | get taskID tenantID =>
      have hquery : '?' ∉ requestTarget (Call.getTask taskID tenantID).path.toList := fun h =>
        absurd (isPathChar_requestTarget _ '?' h) (by decide)
      have hparam : searchParam "tenant_id" ((TaskRead.get taskID tenantID).target base) = none :=
        searchParam_of_notMem _ hquery
      have hpath : (Call.getTask taskID "").path = "/tasks/" ++ taskID := String.append_empty
      unfold Intended Direct
      dsimp only
      rw [hparam]
      constructor
      · rintro ⟨hread, rfl⟩
        rw [Option.getD_none] at hread
        unfold target at hread
        dsimp only at hread
        rw [hpath] at hread
        exact ⟨rfl, directId_of_read hread⟩
      · rintro ⟨rfl, hdirect⟩
        refine ⟨?_, rfl⟩
        unfold target
        dsimp only
        rw [hpath]
        exact hdirect.readTaskId_eq foreign

/-! ## What the transport hands on

With retries on, the body of the last answer has been read and closed before the client sees it. -/

def ReadAnswer.whole (answer : ReadAnswer) : JsonResponse :=
  ⟨answer.response, jsonCopyMembers answer.body⟩

theorem readAll_whole (answer : ReadAnswer) :
    ∃ resp, answer.whole.readAll = (.ok (some answer.whole.json), resp) ∧
      resp.readAll.1 = .ok none ∧ resp.status = answer.status := by
  obtain ⟨b, bytes, htext⟩ : ∃ b bytes, utf8 (stringify answer.body) = b :: bytes := by
    have hne : utf8 (stringify answer.body) ≠ [] := by
      rw [stringify, stringify?]
      have hbrace : utf8 "\x7b" ≠ [] := by decide
      simp [utf8_append, hbrace]
    exact List.exists_cons_of_ne_nil hne
  simp [ReadAnswer.whole, ReadAnswer.response, JsonResponse.readAll, Body.readAll, htext,
    JsonResponse.status]

section

variable {base : BaseURL} {t : RetryTransport} {network : ReadNetwork} {read : TaskRead}
  {answer : ReadAnswer}

theorem answered_eq_some (h : read.answered base t network = some answer) :
    ∃ made, (t.roundTrip network.responses (read.request base)).calls.length = made + 1 ∧
      network.responses.answer made = .ok answer.response := by
  unfold TaskRead.answered at h
  split at h
  · cases h
  · rename_i made hmade
    refine ⟨made, hmade, ?_⟩
    cases hanswer : network.answer made with
    | error err =>
        rw [hanswer] at h
        cases h
    | ok answer' =>
        rw [hanswer] at h
        obtain rfl : answer' = answer := Option.some.inj h
        exact congrArg (Except.map ReadAnswer.response) hanswer

/-- The answers that the transport hands on without trying again. -/
def Kept (t : RetryTransport) (answer : ReadAnswer) : Prop :=
  t.retryEnabled = true → answer.status < 500 ∧ answer.status ≠ 429

theorem isRetryableResponse_eq_false {resp : Response} :
    isRetryableResponse resp = false ↔ resp.statusCode < 500 ∧ resp.statusCode ≠ 429 := by
  unfold isRetryableResponse
  split <;> [skip; split <;> [skip; split]] <;> simp <;> omega

theorem received_kept (h : read.answered base t network = some answer) (hkept : Kept t answer) :
    read.received base t network = .ok answer.whole := by
  obtain ⟨made, hmade, hanswer⟩ := answered_eq_some h
  have hresponse := roundTrip_kept hmade hanswer fun henabled =>
    isRetryableResponse_eq_false.mpr (hkept henabled)
  unfold TaskRead.received doRequest
  dsimp only
  rw [hresponse, h]
  rfl

theorem getTask_drained (h : read.answered base t network = some answer)
    (hdrained : ¬Kept t answer) :
    ∃ message, getTask (read.received base t network) = .error (.other message) := by
  obtain ⟨henabled, hretry⟩ := Classical.not_imp.mp hdrained
  obtain ⟨made, hmade, hanswer⟩ := answered_eq_some h
  unfold TaskRead.received doRequest
  dsimp only
  cases hresponse : (t.roundTrip network.responses (read.request base)).response with
  | none => exact ⟨_, rfl⟩
  | some returned =>
      have hretryable : isRetryableResponse answer.response = true := by
        rw [← Bool.not_eq_false, isRetryableResponse_eq_false]
        exact hretry
      obtain rfl := roundTrip_drained henabled hmade hanswer hretryable hresponse
      have hstatus : answer.status ≠ 404 := fun hfound => hretry (by omega)
      refine ⟨"failed to read response body: " ++ "http: read on closed response body", ?_⟩
      simp [Except.map, getTask, JsonResponse.status, Response.drain, ReadAnswer.response, hstatus,
        parseResponse, JsonResponse.readAll, Body.readAll, Body.close]

end

/-! ## Answers with tasks -/

theorem getTask_task (requestId : String) (task : TaskRecord) :
    getTask (.ok (ReadAnswer.task requestId task).whole) = .ok (zero taskRecord) := by
  have hbody : (ReadAnswer.task requestId task).whole.json =
      [("request_id", .str requestId), ("task", .obj (jsonCopyMembers (taskJs task)))] := rfl
  have hnames : (taskRecordFields.all fun f => ["request_id", "task"].all fun key =>
      !sameName key f.1) = true := by decide
  have hread := @unmarshal_unnamed taskRecordFields
    [("request_id", .str requestId), ("task", .obj (jsonCopyMembers (taskJs task)))] (by
      intro f hf e he
      have hkey : e.1 ∈ ["request_id", "task"] := List.mem_map_of_mem he
      simpa using List.all_eq_true.mp (List.all_eq_true.mp hnames f hf) e.1 hkey)
  have hstatus : (ReadAnswer.task requestId task).whole.status = 200 := rfl
  obtain ⟨resp, hall, -⟩ := readAll_whole (.task requestId task)
  unfold getTask parseResponse
  simp [hstatus, hall, hbody, taskRecord, hread]

theorem status_ne_empty (status : TaskStatus) : status.text ≠ "" := by
  cases status <;> decide

theorem zero_not_sameTask (task : TaskRecord) :
    ¬SameTask (zero taskRecord) (jsonCopyMembers (taskJs task)) := by
  rintro ⟨hfields, -⟩
  have hnodup : ((taskJs task).map Prod.fst).Nodup := by
    have hkeys : (taskJs task).map Prod.fst = ["task_id", "order_id", "context_id",
      "requester_identity", "idempotency_key", "capability", "target_agent", "status", "result",
      "receipt", "updated_at"] := rfl
    rw [hkeys]
    decide
  have hstatus := hfields "status" (by decide) (.str task.status.text) (by
    rw [getEntries_jsonCopyMembers _ hnodup]
    rfl)
  have hempty : JsValue.str "" = .str task.status.text := hstatus
  exact status_ne_empty task.status (JsValue.str.inj hempty).symm

/-! ## Errors

What the server says of a failure is read only where the body is still open. -/

theorem getTask_error {status : { status : Nat // 400 ≤ status }} (h : status.val ≠ 404)
    (requestId : String) (error : ServerError) :
    getTask (.ok (ReadAnswer.error status requestId error).whole) = .error (.api
      { code      := errorCodeFromStatus status
        message   := statusText status
        retryable := (OrderedMap.getEntries (errorCodeFromStatus status)
          ErrorCodeRetryableMap).getD false
        status    := status }) := by
  have hstatus : (ReadAnswer.error status requestId error).whole.status = status := rfl
  obtain ⟨resp, hall, hrest, hleft⟩ := readAll_whole (.error status requestId error)
  unfold getTask parseResponse parseHTTPError
  simp [hstatus, h, status.property, hall, hrest, hleft, ReadAnswer.status]

/-- **What the Go client's reads return.** Only an error answer other than a 404, to a request for a
task without a tenant and by an id that is a segment of its own, is returned as it is, and only where
the transport does not try again after it and its code, its message and its retryability are those
that the client gives to its status. -/
theorem reads_meet_iff (foreign : String → Option String) (base : BaseURL) (t : RetryTransport)
    (network : ReadNetwork) (read : TaskRead) (answer : ReadAnswer)
    (hanswer : read.answered base t network = some answer) :
    read.Meets base t network foreign answer ↔
      read.Direct ∧ ∃ status requestId error,
        answer = .error status requestId error ∧ status.val ≠ 404 ∧
          (t.retryEnabled = true → status.val < 500 ∧ status.val ≠ 429) ∧
          error.code = errorCodeFromStatus status ∧ error.message = statusText status ∧
          error.retryable = (OrderedMap.getEntries (errorCodeFromStatus status)
            ErrorCodeRetryableMap).getD false := by
  unfold TaskRead.Meets
  rw [TaskRead.intended_iff]
  refine and_congr_right fun hdirect => ?_
  cases read with
  | list opts => exact hdirect.elim
  | get taskID tenantID =>
      cases answer with
      | task requestId task =>
          constructor
          · rintro ⟨got, hgot, hsame⟩
            have hok : 200 < 500 ∧ 200 ≠ 429 := by decide
            have hreceived := received_kept hanswer fun _ => hok
            unfold TaskRead.outcome at hgot
            dsimp only at hgot
            rw [hreceived, getTask_task] at hgot
            rw [← Except.ok.inj hgot] at hsame
            exact absurd hsame (zero_not_sameTask task)
          · rintro ⟨_, _, _, heq, -⟩
            cases heq
      | tasks requestId tasks limit nextCursor =>
          constructor
          · exact False.elim
          · rintro ⟨_, _, _, heq, -⟩
            cases heq
      | error status requestId error =>
          have hcarries : (TaskRead.get taskID tenantID).Carries base t network
              (.error status requestId error) ↔
              getTask ((TaskRead.get taskID tenantID).received base t network) =
                .error (.api ⟨error.code, error.message, error.retryable, status⟩) := Iff.rfl
          rw [hcarries]
          by_cases hkept : Kept t (.error status requestId error)
          · rw [received_kept hanswer hkept]
            by_cases hfound : status.val = 404
            · have hnotFound : getTask (.ok (ReadAnswer.error status requestId error).whole) =
                  .error errTaskNotFound := if_pos hfound
              rw [hnotFound]
              constructor
              · intro h
                cases h
              · rintro ⟨_, _, _, heq, hne, -⟩
                cases heq
                exact absurd hfound hne
            · rw [getTask_error hfound]
              constructor
              · intro h
                injection h with h
                injection h with h
                injection h with hcode hmessage hretryable
                exact ⟨status, requestId, error, rfl, hfound, hkept, hcode.symm, hmessage.symm,
                  hretryable.symm⟩
              · rintro ⟨_, _, _, heq, -, -, hcode, hmessage, hretryable⟩
                cases heq
                rw [hcode, hmessage, hretryable]
          · obtain ⟨message, hmessage⟩ := getTask_drained hanswer hkept
            rw [hmessage]
            constructor
            · intro h
              cases h
            · rintro ⟨_, _, _, heq, -, hstatus, -⟩
              cases heq
              exact absurd hstatus hkept

def storedTask : TaskRecord :=
  { taskId            := "t1"
    orderId           := none
    contextId         := none
    requesterIdentity := none
    idempotencyKey    := none
    capability        := some "lookup"
    targetAgent       := some "agent-1"
    status            := .completed
    result            := none
    receipt           := none
    updatedAt         := "2026-01-01T00:00:00.000Z" }

def localURL : BaseURL := ⟨false, "localhost:8787", by decide⟩

/-- An internal error at first, and then the answer. -/
def secondAnswer (answer : ReadAnswer) : ReadNetwork where
  answer attempt := .ok (if attempt = 0 then
    .error ⟨500, by decide⟩ "r1" ⟨"internal_error", "Internal error", true, none⟩ else answer)
  contextError _ := none

theorem reads_meet_iff_sample :
    (TaskRead.get "t1" "").Meets localURL newHTTPTransport
      (secondAnswer (.error ⟨403, by decide⟩ "r2" ⟨"forbidden", "Forbidden", false, none⟩))
      (fun _ => none) (.error ⟨403, by decide⟩ "r2" ⟨"forbidden", "Forbidden", false, none⟩) :=
  (reads_meet_iff (fun _ => none) localURL newHTTPTransport _ (.get "t1" "") _ rfl).mpr
    ⟨⟨rfl, by decide, by decide, by decide⟩, _, _, _, rfl, by decide, by decide, by decide,
      by decide, by decide⟩

/-- The request for the task reaches its route, and the record that comes back has no id. -/
theorem task_not_returned :
    (TaskRead.get "t1" "").Intended (fun _ => none) localURL ∧
      (TaskRead.get "t1" "").outcome localURL newHTTPTransport
        (secondAnswer (.task "r2" storedTask)) = .ok (zero taskRecord) ∧
      ¬(TaskRead.get "t1" "").Meets localURL newHTTPTransport
        (secondAnswer (.task "r2" storedTask)) (fun _ => none) (.task "r2" storedTask) := by
  have hanswer : (TaskRead.get "t1" "").answered localURL newHTTPTransport
      (secondAnswer (.task "r2" storedTask)) = some (.task "r2" storedTask) := rfl
  have hzero : (TaskRead.get "t1" "").outcome localURL newHTTPTransport
      (secondAnswer (.task "r2" storedTask)) = .ok (zero taskRecord) := by
    have hreceived := received_kept hanswer fun _ => ⟨by decide, by decide⟩
    exact (congrArg getTask hreceived).trans (getTask_task "r2" storedTask)
  refine ⟨⟨by decide +kernel, by decide +kernel⟩, hzero, ?_⟩
  rintro ⟨-, got, hgot, hsame⟩
  have hgot' : got = zero taskRecord := Except.ok.inj (hgot.symm.trans hzero)
  rw [hgot'] at hsame
  exact zero_not_sameTask storedTask hsame

end MapProtocol.Sdk.Go
