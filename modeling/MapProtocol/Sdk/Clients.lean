import MapProtocol.Sdk.GoUrl
import MapProtocol.Sdk.Signers

/-!
# The clients of the SDKs

What arrives when the Python and the Go client send a signed request. The Python client does not name
an authentication scheme, so its requests are never taken for signed ones. The Go client signs the
path that it joins, with its query; the server verifies the path that it reads
(`Go.newRequest_accepted_iff`).
-/

namespace MapProtocol.Sdk

open Js

/-- What an HTTP library adds to a request of itself: no header of the protocol. -/
structure HttpLibrary where
  adds : String → Option String
  own  : ∀ name, startsWith name "x-map-" = true → adds name = none

/-- The headers that arrive, under their names in lower case. -/
def HttpLibrary.headers (library : HttpLibrary) (set : List (String × String)) (name : String) :
    Option String := (set.lookup name).or (library.adds name)

/-! ## Python -/

namespace Python

/-- `urllib.parse.quote(s, safe="")`. -/
def quote (s : String) : String :=
  String.ofList (s.toList.flatMap fun c =>
    if c.isAlphanum || "_.-~".toList.contains c then [c] else percentEncode c)

/-- The calls that send a signed request. A body is the text that `json.dumps` made of it; where
that raises, nothing is sent. -/
inductive Call where
  | dispatch (body : String)
  | approve (body : String)
  | getTask (taskId tenantId : String)
  | cancelTask (taskId tenantId : String)
  deriving DecidableEq, Repr

namespace Call

def tenantQuery (tenantId : String) : String :=
  if tenantId = "" then "" else "?tenant_id=" ++ quote tenantId

def method : Call → String
  | getTask _ _ => "GET"
  | _           => "POST"

def path : Call → String
  | dispatch _                => "/dispatch"
  | approve _                 => "/approve"
  | getTask taskId tenantId    => "/tasks/" ++ quote taskId ++ tenantQuery tenantId
  | cancelTask taskId tenantId => "/tasks/" ++ quote taskId ++ "/cancel" ++ tenantQuery tenantId

def body : Call → Option String
  | dispatch body => some body
  | approve body  => some body
  | _             => none

end Call

/-- `get_authorization_header`, after the content type. The timestamp is signed but not sent. -/
def getHeaders (crypto : Crypto) (signer : HTTPSigner) (call : Call) (seconds : Nat)
    (nonce : String) : List (String × String) :=
  let signed := signRequest crypto signer call.method call.path (toString seconds) call.body nonce
  [("content-type", "application/json"), ("map-signature", signed.signature),
    ("x-map-body-hash", signed.bodyHash), ("x-map-nonce", signed.nonce),
    ("x-map-key-id", signer.kid)]

/-- The request of a call, with the target and the body that the library makes of it. -/
def request (crypto : Crypto) (library : HttpLibrary) (signer : HTTPSigner) (call : Call)
    (seconds : Nat) (nonce target : String) (rawBody : List UInt8) : IncomingMessage where
  method := some call.method
  url := some target
  headers := library.headers (getHeaders crypto signer call seconds nonce)
  body := .ok rawBody

theorem request_scheme (crypto : Crypto) (library : HttpLibrary) (signer : HTTPSigner) (call : Call)
    (seconds : Nat) (nonce target : String) (rawBody : List UInt8) :
    (request crypto library signer call seconds nonce target rawBody).headers "x-map-auth-scheme" =
      none := by
  have hadds := library.own "x-map-auth-scheme" (by decide)
  unfold request HttpLibrary.headers
  dsimp only
  rw [hadds]
  rfl

end Python

/-! ## Go -/

namespace Go

/-- A text that `json.Marshal` made. -/
structure Marshalled where
  text  : String
  plain : go.Plain text

theorem plain_append_iff {s t : String} : go.Plain (s ++ t) ↔ go.Plain s ∧ go.Plain t := by
  unfold Encoder.Plain
  rw [String.toList_append]
  exact List.forall_mem_append

/-- `url.QueryEscape`. -/
def queryEscape (s : String) : String :=
  String.ofList (s.toList.flatMap fun c =>
    if c.isAlphanum || "-_.~".toList.contains c then [c]
    else if c = ' ' then ['+']
    else percentEncode c)

/-- The calls that send a signed request. -/
inductive Call where
  | dispatch (body : Marshalled)
  | approve (body : Marshalled)
  | getTask (taskID tenantID : String)

namespace Call

def method : Call → String
  | getTask _ _ => "GET"
  | _           => "POST"

def path : Call → String
  | dispatch _               => "/dispatch"
  | approve _                => "/approve"
  | getTask taskID tenantID  =>
      "/tasks/" ++ taskID ++ (if tenantID = "" then "" else "?tenant_id=" ++ queryEscape tenantID)

def body : Call → String
  | dispatch body => body.text
  | approve body  => body.text
  | getTask _ _   => ""

end Call

/-- `newRequest`, with a signer and at a base URL that has no path. -/
def newRequest (crypto : Crypto) (library : HttpLibrary) (signer : HMACSigner)
    (method path body timestamp nonce : String) : IncomingMessage where
  method := some method
  url := some (String.ofList (requestTarget path.toList))
  headers := library.headers
    [("content-type", "application/json"), ("accept", "application/json"),
      ("user-agent", "mapproto-go/v0.1.0"), ("x-map-auth-scheme", "signed_request"),
      ("x-map-key-id", signer.keyID), ("x-map-timestamp", timestamp),
      ("x-map-request-signature", signer.sign crypto method path body timestamp),
      ("x-map-nonce", nonce)]
  body := .ok (utf8 body)

def request (crypto : Crypto) (library : HttpLibrary) (signer : HMACSigner) (call : Call)
    (timestamp nonce : String) : IncomingMessage :=
  newRequest crypto library signer call.method call.path call.body timestamp nonce

theorem signedRequest_newRequest {env : ServerEnv} {library : HttpLibrary} {signer : HMACSigner}
    {method path body timestamp nonce : String} {r : ServerEnv.SignedRequest} :
    env.signedRequest (newRequest env.crypto library signer method path body timestamp nonce) body =
        some r ↔
      ∃ read, pathname env.foreignPath (String.ofList (requestTarget path.toList)) = some read ∧
        r = ⟨⟨method, read, timestamp, signer.keyID, body⟩,
          signer.sign env.crypto method path body timestamp⟩ := by
  have hpayload : env.requestPayload
      (newRequest env.crypto library signer method path body timestamp nonce) body timestamp
        signer.keyID =
      (env.normalizePath (String.ofList (requestTarget path.toList))).map fun read =>
        ⟨method, read, timestamp, signer.keyID, body⟩ := rfl
  have hsigned : env.signedRequest
      (newRequest env.crypto library signer method path body timestamp nonce) body =
      (env.requestPayload (newRequest env.crypto library signer method path body timestamp nonce)
        body timestamp signer.keyID).toOption.map fun payload =>
          ⟨payload, signer.sign env.crypto method path body timestamp⟩ := rfl
  rw [hsigned, hpayload]
  unfold ServerEnv.normalizePath
  cases pathname env.foreignPath (String.ofList (requestTarget path.toList)) with
  | none => simp [Except.map, Except.toOption]
  | some read => simp [Except.map, Except.toOption, eq_comm]

/-- **When the server accepts what `newRequest` makes.** -/
theorem newRequest_accepted_iff {env : ServerEnv} {signer : HMACSigner}
    (shared : SharedKey env.toRequestEnv signer.keyID signer.secret)
    (hforeign : ForeignPaths env.foreignPath) {now : Int} {timestamp : String}
    (hfresh : env.Fresh now timestamp) {revokedKeyIds : List String}
    (hlive : signer.keyID ∉ revokedKeyIds) (nonces : NonceCache) (library : HttpLibrary)
    {path : String} {cs : List Char} (hpath : path.toList = '/' :: cs)
    (method body nonce : String) :
    (env.getSignedRequestError nonces now
        (newRequest env.crypto library signer method path body timestamp nonce) body
        revokedKeyIds).1 = .ok none ↔
      Steady path.toList ∧ PlainRequest go (signer.request method path body timestamp) := by
  have hpathname : pathname env.foreignPath (String.ofList (requestTarget path.toList)) =
      some path ↔ Steady path.toList := by
    rw [hpath, ← pathname_requestTarget_iff hforeign, ← hpath, String.ofList_toList]
  have hauthentic (read : String) : env.Authentic ⟨⟨method, read, timestamp, signer.keyID, body⟩,
      signer.sign env.crypto method path body timestamp⟩ ↔
        path = read ∧ PlainRequest go (signer.request method path body timestamp) := by
    unfold ServerEnv.Authentic
    rw [HMACSigner.verifies_iff shared, canonicalMembers_inj]
    exact and_congr_left fun _ => ⟨fun h => h.2.2.2.1, fun h => ⟨rfl, rfl, rfl, h, rfl⟩⟩
  rw [ServerEnv.getSignedRequestError_iff, ← hpathname]
  constructor
  · rintro ⟨r, hsigned, -, -, hverifies⟩
    obtain ⟨read, hread, rfl⟩ := signedRequest_newRequest.mp hsigned
    obtain ⟨rfl, hplain⟩ := (hauthentic read).mp hverifies
    exact ⟨hread, hplain⟩
  · rintro ⟨hread, hplain⟩
    exact ⟨_, signedRequest_newRequest.mpr ⟨path, hread, rfl⟩, hlive, hfresh,
      (hauthentic path).mpr ⟨rfl, hplain⟩⟩

/-! ## Calls -/

/-- The calls whose path is signed as the server reads it. -/
def Call.Sendable : Call → Prop
  | dispatch _              => True
  | approve _               => True
  | getTask taskID tenantID =>
      tenantID = "" ∧ Steady ("/tasks/" ++ taskID).toList ∧ go.Plain taskID

theorem steady_endpoint : ∀ path ∈ ["/dispatch", "/approve"], Steady path.toList := by decide

theorem Call.path_head (call : Call) : ∃ cs, call.path.toList = '/' :: cs := by
  cases call with
  | dispatch body => exact ⟨_, (by decide : "/dispatch".toList = '/' :: "dispatch".toList)⟩
  | approve body => exact ⟨_, (by decide : "/approve".toList = '/' :: "approve".toList)⟩
  | getTask taskID tenantID =>
      unfold path
      rw [String.toList_append, String.toList_append]
      exact ⟨_, rfl⟩

theorem Call.plain_method (call : Call) : go.Plain (toUpperCase call.method) := by
  have hall : ∀ m ∈ ["GET", "POST"], go.Plain (toUpperCase m) := by decide
  cases call <;> exact hall _ (by simp [method])

theorem Call.plain_body (call : Call) : go.Plain call.body := by
  cases call with
  | dispatch body => exact body.plain
  | approve body => exact body.plain
  | getTask taskID tenantID => exact fun _ h => nomatch h

theorem not_steady_of_query {path query : String} (h : '?' ∈ query.toList) :
    ¬ Steady (path ++ query).toList := by
  intro hsteady
  have hmem : '?' ∈ (path ++ query).toList := by
    rw [String.toList_append]
    exact List.mem_append_right _ h
  exact absurd (hsteady.chars '?' hmem) (by decide)

theorem Call.sendable_iff (call : Call) :
    call.Sendable ↔ Steady call.path.toList ∧ go.Plain call.path := by
  cases call with
  | dispatch body =>
      have hplain : go.Plain "/dispatch" := by decide
      exact iff_of_true trivial ⟨steady_endpoint "/dispatch" (by simp), hplain⟩
  | approve body =>
      have hplain : go.Plain "/approve" := by decide
      exact iff_of_true trivial ⟨steady_endpoint "/approve" (by simp), hplain⟩
  | getTask taskID tenantID =>
      simp only [Sendable, path]
      by_cases htenant : tenantID = ""
      · rw [if_pos htenant, String.append_empty, plain_append_iff]
        have hendpoint : go.Plain "/tasks/" := by decide
        exact ⟨fun h => ⟨h.2.1, hendpoint, h.2.2⟩, fun h => ⟨htenant, h.1, h.2.2⟩⟩
      · rw [if_neg htenant]
        exact iff_of_false (fun h => htenant h.1) fun h =>
          not_steady_of_query (by simp) h.1

end Go

end MapProtocol.Sdk
