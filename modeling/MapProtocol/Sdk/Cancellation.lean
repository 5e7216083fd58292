import MapProtocol.Js.Segments
import MapProtocol.Sdk.Clients
import MapProtocol.Server.Handler

/-!
# Cancelling a task

Three clients cancel a task by a `POST` to `/tasks/:id/cancel`. They encode the id and send the
tenant as a query. The server takes the id as it stands in the URL, looks for `/cancel` at the very
end of it and reads the tenant from a header (`cancelTask_reaches_iff`).
-/

namespace MapProtocol.Sdk

open Js

/-! ## The server -/

/-- The arguments of the call of `orchestrator.cancelTask` that a request leads to. -/
def cancelTaskCall (request : IncomingMessage) : Option (String × Option String) :=
  match request.method, request.url with
  | some "POST", some url =>
      match cancelledTask url with
      | some taskId =>
          if taskId = "" ∨ includes taskId "/" = true then none
          else some (taskId, request.headers "x-map-tenant-id")
      | none        => none
  | _, _ => none

theorem controlRoute_tasks {url : String} (h : startsWith url "/tasks/" = true) :
    controlRoute url = none := by
  unfold startsWith at h
  obtain ⟨rest, hurl⟩ := List.isPrefixOf_iff_prefix.mp h
  have hother : ∀ opening ∈ ["/admin/agents/", "/admin/keys/"], startsWith url opening = false := by
    intro opening hmem
    unfold startsWith
    rw [← hurl]
    rcases List.mem_pair.mp hmem with rfl | rfl <;> rfl
  simp [controlRoute, hother]

/-- **The request handler makes the call.** -/
theorem handle_cancelTaskCall (env : HandlerEnv) (nonces : NonceCache) (s : ServerState)
    {exchange : HttpExchange} {taskId : String} {tenantId : Option String}
    (h : cancelTaskCall exchange.request = some (taskId, tenantId)) :
    env.handle nonces s exchange = env.advance s (.cancelTask taskId tenantId exchange.faults) := by
  unfold cancelTaskCall at h
  split at h
  · rename_i url hmethod hurl
    split at h
    · rename_i task htask
      split at h
      · cases h
      · rename_i hvalid
        cases h
        have hstarts : startsWith url "/tasks/" = true := by
          by_contra hstarts
          simp [cancelledTask, hstarts] at htask
        have hpolicy : url ≠ "/policy" := by
          rintro rfl
          exact absurd hstarts (by decide)
        -- the routes that are tried first take other paths
        have hadmin : env.server.handleAdminRoutes nonces s.controls (exchange.call s) = none := by
          unfold ServerEnv.handleAdminRoutes HttpExchange.call
          simp [hmethod, hurl, controlRoute_tasks hstarts]
        unfold HandlerEnv.handle HandlerEnv.post
        simp only [hmethod, hurl, hadmin, htask, if_neg hpolicy]
        exact if_neg hvalid
    · cases h
  · cases h

/-! ## Paths with a query -/

/-- What a query is made of here: it stays as it is, whoever sends it. -/
def isQueryChar (c : Char) : Bool := isSegmentChar c && c != '\''

structure IsQuery (query : List Char) : Prop where
  opens : query = [] ∨ ∃ cs, query = '?' :: cs
  chars : ∀ c ∈ query.tail, isQueryChar c = true

/-- `/tasks/:segment/cancel`, with a query. -/
def cancelPath (segment query : List Char) : String :=
  String.ofList (pathText ["tasks".toList, segment, "cancel".toList] ++ query)

/-- What an HTTP library sends for a path at the origin of the server. It resolves dot segments and
leaves a path without them alone. -/
structure UrlLibrary where
  target    : String → Option String
  keeps     : ∀ segment query, PlainSegment segment → IsQuery query →
    target (cancelPath segment query) = some (cancelPath segment query)
  singleDot : ∀ query, IsQuery query →
    target (cancelPath ['.'] query) = some (String.ofList ("/tasks/cancel".toList ++ query))
  doubleDot : ∀ query, IsQuery query →
    target (cancelPath ['.', '.'] query) = some (String.ofList ("/cancel".toList ++ query))

/-- The target of a URL, for a path with a query that needs no encoding. -/
def fetchTarget (path : String) : Option String :=
  (pathname (fun _ => none) path).map fun pathname =>
    pathname ++ String.ofList (path.toList.dropWhile (· ≠ '?'))

section

variable {query : List Char}

theorem IsQuery.gt (h : IsQuery query) : ∀ c ∈ query, 32 < c.toNat := by
  intro c hc
  rcases h.opens with rfl | ⟨cs, rfl⟩
  · cases hc
  · rcases List.mem_cons.mp hc with rfl | hc
    · decide
    · exact gt_of_isSegmentChar (Bool.and_eq_true_iff.mp (h.chars c hc)).1

theorem IsQuery.slash_notMem (h : IsQuery query) : '/' ∉ query := by
  intro hc
  rcases h.opens with rfl | ⟨cs, rfl⟩
  · cases hc
  · rcases List.mem_cons.mp hc with hc | hc
    · cases hc
    · exact absurd (h.chars _ hc) (by decide)

theorem fetchTarget_keeps {segment : List Char} (hsegment : PlainSegment segment)
    (hquery : IsQuery query) :
    fetchTarget (cancelPath segment query) = some (cancelPath segment query) := by
  have hplain : ∀ s ∈ ["tasks".toList, segment, "cancel".toList], PlainSegment s := by
    have hnamed : ∀ s ∈ ["tasks".toList, "cancel".toList], PlainSegment s := by
      intro s hs
      have hclosed : (["tasks".toList, "cancel".toList].all fun s => s.all isSegmentChar &&
        !isSingleDot s && !isDoubleDot s) = true := by decide
      have hs' := List.all_eq_true.mp hclosed s hs
      simp only [Bool.and_eq_true, Bool.not_eq_true', List.all_eq_true] at hs'
      exact ⟨hs'.1.1, hs'.1.2, hs'.2⟩
    intro s hs
    simp only [List.mem_cons, List.not_mem_nil, or_false] at hs
    rcases hs with rfl | rfl | rfl
    · exact hnamed _ (by simp)
    · exact hsegment
    · exact hnamed _ (by simp)
  have hpath := pathname_plain (fun _ => none) hplain ⟨_, _, _, rfl⟩ hquery.opens hquery.gt
  have hkept : ∀ c ∈ pathText ["tasks".toList, segment, "cancel".toList],
      decide (c ≠ '?') = true := by
    intro c hc
    rcases isSegmentChar_of_mem_pathText hplain hc with rfl | hseg
    · decide
    · exact decide_eq_true (ne_of_isSegmentChar hseg (by decide))
  unfold fetchTarget cancelPath
  rw [hpath, String.toList_ofList, List.dropWhile_append_of_pos hkept]
  rcases hquery.opens with rfl | ⟨cs, rfl⟩
  · simp
  · simp [String.ofList_append]

/-- A query takes no part in resolving the path before it. -/
theorem fetchTarget_query {path : List Char} (hpath : ∀ c ∈ path, 32 < c.toNat ∧ c ≠ '?' ∧ c ≠ '#')
    (hquery : IsQuery query) {resolved : String}
    (hresolved : pathname (fun _ => none) (String.ofList path) = some resolved) :
    fetchTarget (String.ofList (path ++ query)) = some (resolved ++ String.ofList query) := by
  have hkept : ∀ c ∈ path, (c ≠ '?' && c ≠ '#') = true := by
    intro c hc
    simp [(hpath c hc).2.1, (hpath c hc).2.2]
  have hmark : ∀ c ∈ path, decide (c ≠ '?') = true := fun c hc => decide_eq_true (hpath c hc).2.1
  have hgt : ∀ c ∈ path ++ query, 32 < c.toNat := by
    intro c hc
    rcases List.mem_append.mp hc with hc | hc
    · exact (hpath c hc).1
    · exact hquery.gt c hc
  have hquery' : query.takeWhile (fun c => c ≠ '?' && c ≠ '#') = [] ∧
      query.dropWhile (fun c => decide (c ≠ '?')) = query := by
    rcases hquery.opens with rfl | ⟨cs, rfl⟩ <;> simp
  -- the query is cut off before the path is read
  have hsame : pathname (fun _ => none) (String.ofList (path ++ query)) =
      pathname (fun _ => none) (String.ofList path) := by
    unfold pathname
    rw [String.toList_ofList, String.toList_ofList, cleanTarget_eq_self hgt,
      cleanTarget_eq_self fun c hc => (hpath c hc).1, List.takeWhile_append_of_pos hkept,
      List.takeWhile_eq_self_iff.mpr hkept, hquery'.1, List.append_nil]
  unfold fetchTarget
  rw [hsame, hresolved, String.toList_ofList, List.dropWhile_append_of_pos hmark, hquery'.2]
  rfl

end

def fetch : UrlLibrary where
  target := fetchTarget
  keeps _ _ hsegment hquery := fetchTarget_keeps hsegment hquery
  singleDot query hquery := by
    have hresolved : pathname (fun _ => none) (String.ofList "/tasks/./cancel".toList) =
        some "/tasks/cancel" := by decide
    rw [String.ofList_append]
    exact fetchTarget_query (List.all_iff_forall_prop.mp (by decide)) hquery hresolved
  doubleDot query hquery := by
    have hresolved : pathname (fun _ => none) (String.ofList "/tasks/../cancel".toList) =
        some "/cancel" := by decide
    rw [String.ofList_append]
    exact fetchTarget_query (List.all_iff_forall_prop.mp (by decide)) hquery hresolved

/-! ## The clients -/

/-- `application/x-www-form-urlencoded`. -/
def formEncode (s : String) : List Char :=
  s.toList.flatMap fun c =>
    if c.isAlphanum || "*-._".toList.contains c then [c]
    else if c = ' ' then ['+']
    else percentEncode c

def TypeScript.buildQuery : Option String → List Char
  | some tenantId => "?tenant_id=".toList ++ formEncode tenantId
  | none          => []

/-- `toQuery({ tenant_id })`, which leaves out an empty value. -/
def Reference.toQuery : Option String → List Char
  | some tenantId => if tenantId = "" then [] else "?tenant_id=".toList ++ formEncode tenantId
  | none          => []

/-- `quote(s, safe="")`. -/
def Python.segmentEncoder : SegmentEncoder where
  keeps c := c.isAlphanum || "_.-~".toList.contains c
  percent := by decide
  dot := by decide
  segment _ h := isSegmentChar_of_kept (by decide) h

/-- What a signer of the TypeScript package adds to a request. -/
structure TypeScript.RequestSignature where
  kid       : String
  timestamp : String
  signature : String

/-- A client that cancels, with the headers that it is created with and what it signs with. -/
inductive CancelClient where
  | typescript (defaultHeaders : List (String × String))
      (signed : Option TypeScript.RequestSignature)
  | reference (defaultHeaders : List (String × String))
  | python (signed : Option (HTTPSigner × Nat × String))

namespace CancelClient

/-- Headers under their names in lower case, the last first. -/
def lowered (headers : List (String × String)) : List (String × String) :=
  (headers.map fun header => (toLowerCase header.1, header.2)).reverse

def defaultHeaders : CancelClient → List (String × String)
  | typescript headers _ => headers
  | reference headers    => headers
  | python _             => []

def encoder : CancelClient → SegmentEncoder
  | typescript _ _ => uriComponent
  | reference _    => uriComponent
  | python _       => Python.segmentEncoder

def query : CancelClient → Option String → List Char
  | typescript _ _, tenantId => TypeScript.buildQuery tenantId
  | reference _, tenantId    => Reference.toQuery tenantId
  | python _, tenantId       => (Python.Call.tenantQuery (tenantId.getD "")).toList

/-- The path that `cancelTask` makes. -/
def path (client : CancelClient) (taskId : String) (tenantId : Option String) : String :=
  match client with
  | typescript _ _ => "/tasks/" ++ encodeURIComponent taskId ++ "/cancel" ++
      String.ofList (TypeScript.buildQuery tenantId)
  | reference _    => "/tasks/" ++ encodeURIComponent taskId ++ "/cancel" ++
      String.ofList (Reference.toQuery tenantId)
  | python _       => (Python.Call.cancelTask taskId (tenantId.getD "")).path

/-- The headers that `cancelTask` sends. -/
def headers (crypto : Crypto) (client : CancelClient) (taskId : String) (tenantId : Option String) :
    List (String × String) :=
  match client with
  | typescript defaultHeaders signed =>
      (match signed with
        | some s => [("x-map-auth-scheme", "signed_request"), ("x-map-key-id", s.kid),
            ("x-map-timestamp", s.timestamp), ("x-map-request-signature", s.signature)]
        | none   => []) ++ lowered defaultHeaders ++ [("content-type", "application/json")]
  | reference defaultHeaders =>
      lowered defaultHeaders ++ [("content-type", "application/json; charset=utf-8")]
  | python (some (signer, seconds, nonce)) =>
      Python.getHeaders crypto signer (.cancelTask taskId (tenantId.getD "")) seconds nonce
  | python none => [("content-type", "application/json")]

def urlLibrary (httpx : UrlLibrary) : CancelClient → UrlLibrary
  | python _ => httpx
  | _        => fetch

/-- The body: `json={}` or none. -/
def requestBody : CancelClient → List UInt8
  | python _ => utf8 "\x7b\x7d"
  | _        => []

/-- The request of `cancelTask(taskId, tenantId)`. -/
def request (crypto : Crypto) (library : HttpLibrary) (httpx : UrlLibrary) (client : CancelClient)
    (taskId : String) (tenantId : Option String) : Option IncomingMessage :=
  ((client.urlLibrary httpx).target (client.path taskId tenantId)).map fun url =>
    { method := some "POST"
      url := some url
      headers := library.headers (client.headers crypto taskId tenantId)
      body := .ok client.requestBody }

end CancelClient

/-! ## What they send -/

theorem isQueryChar_percentEncode (c : Char) : ∀ d ∈ percentEncode c, isQueryChar d = true := by
  intro d hd
  obtain ⟨b, -, hd⟩ := List.mem_flatMap.mp hd
  have hseg := isSegmentChar_percentByte b d hd
  have hne : ∀ n : Fin 16, upperHexDigit n ≠ '\'' := by decide
  have hlt := b.toNat_lt
  have hquote : d ≠ '\'' := by
    rcases List.mem_cons.mp hd with rfl | hd
    · decide
    · rcases List.mem_cons.mp hd with rfl | hd
      · exact hne ⟨b.toNat / 16, by omega⟩
      · rw [List.mem_singleton.mp hd]
        exact hne ⟨b.toNat % 16, by omega⟩
  simp [isQueryChar, hseg, hquote]

theorem isQueryChar_of_kept {others : List Char} (hothers : (others.all isQueryChar) = true)
    {c : Char} (h : (c.isAlphanum || others.contains c) = true) : isQueryChar c = true := by
  rcases Bool.or_eq_true_iff.mp h with hletter | hother
  · have hseg := @isSegmentChar_of_kept [] rfl c (by rw [hletter]; rfl)
    have hquote : c ≠ '\'' := by
      rintro rfl
      exact absurd hletter (by decide)
    simp [isQueryChar, hseg, hquote]
  · exact List.all_eq_true.mp hothers c (List.contains_iff_mem.mp hother)

theorem isQueryChar_formEncode (s : String) : ∀ c ∈ formEncode s, isQueryChar c = true := by
  intro c hc
  obtain ⟨d, -, hc⟩ := List.mem_flatMap.mp hc
  split at hc
  · rename_i hkept
    rw [List.mem_singleton.mp hc]
    exact isQueryChar_of_kept (by decide) hkept
  · split at hc
    · rw [List.mem_singleton.mp hc]
      decide
    · exact isQueryChar_percentEncode d c hc

theorem isQuery_tenant {value : List Char} (h : ∀ c ∈ value, isQueryChar c = true) :
    IsQuery ("?tenant_id=".toList ++ value) where
  opens := .inr ⟨_, rfl⟩
  chars c hc := by
    rcases List.mem_append.mp (show c ∈ "tenant_id=".toList ++ value from hc) with hc | hc
    · have hname : ("tenant_id=".toList.all isQueryChar) = true := by decide
      exact List.all_eq_true.mp hname c hc
    · exact h c hc

theorem isQuery_nil : IsQuery [] := ⟨.inl rfl, fun _ h => nomatch h⟩

namespace CancelClient

variable (client : CancelClient)

theorem isQuery_query (tenantId : Option String) : IsQuery (client.query tenantId) := by
  have hform : ∀ value, IsQuery ("?tenant_id=".toList ++ formEncode value) := fun value =>
    isQuery_tenant (isQueryChar_formEncode value)
  cases client with
  | typescript _ _ =>
      cases tenantId with
      | none => exact isQuery_nil
      | some value => exact hform value
  | reference _ =>
      cases tenantId with
      | none => exact isQuery_nil
      | some value =>
          unfold query Reference.toQuery
          dsimp only
          split
          · exact isQuery_nil
          · exact hform value
  | python _ =>
      unfold query Python.Call.tenantQuery
      dsimp only
      split
      · exact isQuery_nil
      · rw [String.toList_append]
        refine isQuery_tenant fun c hc => ?_
        rw [Python.quote, String.toList_ofList] at hc
        obtain ⟨d, -, hc⟩ := List.mem_flatMap.mp hc
        split at hc
        · rename_i hkept
          rw [List.mem_singleton.mp hc]
          exact isQueryChar_of_kept (by decide) hkept
        · exact isQueryChar_percentEncode d c hc

theorem path_eq (taskId : String) (tenantId : Option String) : client.path taskId tenantId =
    cancelPath (client.encoder.encode taskId.toList) (client.query tenantId) := by
  have hshape : ∀ segment query : List Char,
      "/tasks/" ++ String.ofList segment ++ "/cancel" ++ String.ofList query =
        cancelPath segment query := by
    intro segment query
    apply String.toList_inj.mp
    simp [cancelPath, pathText]
  cases client with
  | typescript _ _ =>
      rw [path, encodeURIComponent_eq]
      exact hshape ..
  | reference _ =>
      rw [path, encodeURIComponent_eq]
      exact hshape ..
  | python _ =>
      rw [← hshape, query, String.ofList_toList]
      rfl

/-- The tenant header among the default headers. -/
def tenantHeader : Option String := (lowered client.defaultHeaders).lookup "x-map-tenant-id"

theorem headers_tenant (crypto : Crypto) (library : HttpLibrary) (taskId : String)
    (tenantId : Option String) :
    library.headers (client.headers crypto taskId tenantId) "x-map-tenant-id" =
      client.tenantHeader := by
  have hadds := library.own "x-map-tenant-id" (by decide)
  have happend : ∀ es fs : List (String × String), fs.lookup "x-map-tenant-id" = none →
      (es ++ fs).lookup "x-map-tenant-id" = es.lookup "x-map-tenant-id" := by
    intro es fs hfs
    rw [List.lookup_append, hfs, Option.or_none]
  unfold HttpLibrary.headers
  rw [hadds, Option.or_none]
  cases client with
  | typescript defaults signed =>
      unfold headers
      dsimp only
      rw [happend _ [("content-type", "application/json")] rfl]
      cases signed with
      | none => rfl
      | some s => rw [List.lookup_append]; rfl
  | reference defaults => exact happend _ _ rfl
  | python signed =>
      cases signed with
      | none => rfl
      | some signed => rfl

end CancelClient

/-! ## When the server is led to the call -/

theorem cancelledTask_query {path query : List Char} (hquery : IsQuery query) (hne : query ≠ []) :
    cancelledTask (String.ofList (path ++ query)) = none := by
  have hends : endsWith (String.ofList (path ++ query)) "/cancel" = false := by
    rw [← Bool.not_eq_true]
    intro hends
    have hsuffix := List.isSuffixOf_iff_suffix.mp hends
    rw [@String.toList_ofList (path ++ query)] at hsuffix
    rcases List.suffix_or_suffix_of_suffix hsuffix (List.suffix_append path query) with h | h
    · exact hquery.slash_notMem (h.subset (by decide))
    · obtain ⟨cs, rfl⟩ := hquery.opens.resolve_left hne
      exact absurd (h.subset List.mem_cons_self) (by decide)
  unfold cancelledTask
  rw [hends, Bool.and_false]
  rfl

theorem cancelledTask_cancelPath (segment : List Char) :
    cancelledTask (cancelPath segment []) = some (String.ofList segment) := by
  have hshape : cancelPath segment [] =
      String.ofList ("/tasks/".toList ++ (segment ++ "/cancel".toList)) := by
    apply String.toList_inj.mp
    simp [cancelPath, pathText]
  rw [hshape]
  unfold cancelledTask
  rw [between_append]
  have hstarts : startsWith (String.ofList ("/tasks/".toList ++ (segment ++ "/cancel".toList)))
      "/tasks/" = true := by
    unfold startsWith
    rw [@String.toList_ofList ("/tasks/".toList ++ _)]
    exact List.isPrefixOf_iff_prefix.mpr (List.prefix_append _ _)
  have hends : endsWith (String.ofList ("/tasks/".toList ++ (segment ++ "/cancel".toList)))
      "/cancel" = true := by
    unfold endsWith
    rw [@String.toList_ofList ("/tasks/".toList ++ _), ← List.append_assoc]
    exact List.isSuffixOf_iff_suffix.mpr (List.suffix_append _ _)
  rw [hstarts, hends]
  rfl

/-- The request leads the server to cancel the task for the tenant. -/
def ReachesTask (crypto : Crypto) (library : HttpLibrary) (httpx : UrlLibrary)
    (client : CancelClient) (taskId : String) (tenantId : Option String) : Prop :=
  ∃ request, client.request crypto library httpx taskId tenantId = some request ∧
    cancelTaskCall request = some (taskId, tenantId)

/-- No tenant has to be sent, the tenant header is that tenant, and the id is its own encoding and
no dot segment. -/
structure Reachable (client : CancelClient) (taskId : String) (tenantId : Option String) : Prop where
  query   : client.query tenantId = []
  header  : client.tenantHeader = tenantId
  encoded : client.encoder.encode taskId.toList = taskId.toList
  id      : taskId ≠ "" ∧ taskId ≠ "." ∧ taskId ≠ ".."

section

variable (crypto : Crypto) (library : HttpLibrary) (httpx : UrlLibrary) (client : CancelClient)
  (taskId : String) (tenantId : Option String)

theorem cancelTaskCall_iff {request : IncomingMessage} {url : String}
    (hmethod : request.method = some "POST") (hurl : request.url = some url) :
    cancelTaskCall request = some (taskId, tenantId) ↔
      cancelledTask url = some taskId ∧ ¬ (taskId = "" ∨ includes taskId "/" = true) ∧
        request.headers "x-map-tenant-id" = tenantId := by
  unfold cancelTaskCall
  rw [hmethod, hurl]
  cases htask : cancelledTask url with
  | none => simp [htask]
  | some task =>
      simp only [htask, Option.some.injEq]
      split
      · rename_i hinvalid
        refine iff_of_false (fun h => nomatch h) ?_
        rintro ⟨rfl, hvalid, -⟩
        exact hvalid hinvalid
      · rename_i hvalid
        constructor
        · rintro ⟨⟩
          exact ⟨rfl, hvalid, rfl⟩
        · rintro ⟨rfl, -, rfl⟩
          rfl

theorem reachesTask_iff : ReachesTask crypto library httpx client taskId tenantId ↔
    ∃ url, (client.urlLibrary httpx).target (client.path taskId tenantId) = some url ∧
      cancelledTask url = some taskId ∧ ¬ (taskId = "" ∨ includes taskId "/" = true) ∧
      client.tenantHeader = tenantId := by
  have hheader := client.headers_tenant crypto library taskId tenantId
  unfold ReachesTask CancelClient.request
  constructor
  · rintro ⟨request, hmap, hcall⟩
    obtain ⟨url, hurl, rfl⟩ := Option.map_eq_some_iff.mp hmap
    obtain ⟨htask, hvalid, htenant⟩ := (cancelTaskCall_iff taskId tenantId rfl rfl).mp hcall
    exact ⟨url, hurl, htask, hvalid, hheader.symm.trans htenant⟩
  · rintro ⟨url, hurl, htask, hvalid, htenant⟩
    refine ⟨_, Option.map_eq_some_iff.mpr ⟨url, hurl, rfl⟩, ?_⟩
    exact (cancelTaskCall_iff taskId tenantId rfl rfl).mpr
      ⟨htask, hvalid, hheader.trans htenant⟩

theorem slash_notMem_encode (cs : List Char) : '/' ∉ client.encoder.encode cs := fun h =>
  absurd (client.encoder.isSegmentChar_encode cs '/' h) (by decide)

/-- A dot segment is resolved, and what is left names no task. -/
theorem not_reachesTask_dots (h : taskId = "." ∨ taskId = "..") :
    ¬ ReachesTask crypto library httpx client taskId tenantId := by
  rw [reachesTask_iff]
  rintro ⟨url, hurl, htask, hvalid, -⟩
  have hquery := client.isQuery_query tenantId
  have hresolved : ∃ path ∈ ["/tasks/cancel", "/cancel"],
      url = String.ofList (path.toList ++ client.query tenantId) := by
    have hkept : ∀ cs ∈ [['.'], ['.', '.']], client.encoder.encode cs = cs := by
      have hdot := client.encoder.dot
      simp [SegmentEncoder.encode, hdot]
    rw [client.path_eq] at hurl
    rcases h with rfl | rfl
    -- no encoder escapes a dot, so the segment is resolved away
    · rw [show ".".toList = ['.'] from rfl, hkept _ (by simp),
        (client.urlLibrary httpx).singleDot _ hquery] at hurl
      exact ⟨_, by simp, (Option.some.inj hurl).symm⟩
    · rw [show "..".toList = ['.', '.'] from rfl, hkept _ (by simp),
        (client.urlLibrary httpx).doubleDot _ hquery] at hurl
      exact ⟨_, by simp, (Option.some.inj hurl).symm⟩
  obtain ⟨path, hpath, rfl⟩ := hresolved
  by_cases hnone : client.query tenantId = []
  · rw [hnone, List.append_nil, String.ofList_toList] at htask
    have hnames : ∀ p ∈ ["/tasks/cancel", "/cancel"], cancelledTask p = some "" ∨
        cancelledTask p = none := by decide
    rcases hnames path hpath with hp | hp
    · exact hvalid (.inl (Option.some.inj (htask.symm.trans hp)))
    · cases htask.symm.trans hp
  · cases (cancelledTask_query hquery hnone).symm.trans htask

theorem plainSegment_encode (hdots : ¬ (taskId = "." ∨ taskId = "..")) :
    PlainSegment (client.encoder.encode taskId.toList) := by
  obtain ⟨hsingle, hdouble⟩ := not_or.mp hdots
  exact client.encoder.plain_encode (fun h => hsingle (String.toList_inj.mp h))
    (fun h => hdouble (String.toList_inj.mp h))

theorem ReachesTask.reachable (h : ReachesTask crypto library httpx client taskId tenantId) :
    Reachable client taskId tenantId := by
  have hdots : ¬ (taskId = "." ∨ taskId = "..") := fun hdots =>
    not_reachesTask_dots crypto library httpx client taskId tenantId hdots h
  have hquery := client.isQuery_query tenantId
  rw [reachesTask_iff, client.path_eq,
    (client.urlLibrary httpx).keeps _ _ (plainSegment_encode client taskId hdots) hquery] at h
  obtain ⟨url, ⟨⟩, htask, hvalid, htenant⟩ := h
  by_cases hnone : client.query tenantId = []
  · rw [hnone, cancelledTask_cancelPath] at htask
    have hencoded := congrArg String.toList (Option.some.inj htask)
    rw [@String.toList_ofList (client.encoder.encode taskId.toList)] at hencoded
    exact ⟨hnone, htenant, hencoded, (not_or.mp hvalid).1, not_or.mp hdots⟩
  · cases (cancelledTask_query hquery hnone).symm.trans htask

theorem Reachable.reachesTask (h : Reachable client taskId tenantId) :
    ReachesTask crypto library httpx client taskId tenantId := by
  obtain ⟨hnone, htenant, hencoded, hempty, hdots⟩ := h
  rw [reachesTask_iff, client.path_eq, (client.urlLibrary httpx).keeps _ _
    (plainSegment_encode client taskId (not_or.mpr hdots)) (client.isQuery_query tenantId), hnone]
  refine ⟨_, rfl, ?_, ?_, htenant⟩
  · rw [cancelledTask_cancelPath, hencoded, String.ofList_toList]
  · rintro (h | h)
    · exact hempty h
    · have hslash : '/' ∈ taskId.toList :=
        (List.singleton_infix_iff ..).mp (includesChars_iff.mp h)
      rw [← hencoded] at hslash
      exact slash_notMem_encode client _ hslash

/-- **A cancellation reaches the task** exactly where neither the tenant nor the id has to be written
otherwise than it is. -/
theorem cancelTask_reaches_iff : ReachesTask crypto library httpx client taskId tenantId ↔
    Reachable client taskId tenantId :=
  ⟨ReachesTask.reachable crypto library httpx client taskId tenantId,
    Reachable.reachesTask crypto library httpx client taskId tenantId⟩

end

open Orchestrator (noCrypto)

def bareLibrary : HttpLibrary where
  adds _ := none
  own _ _ := rfl

/-- A tenant, or an id with a colon, is not what the server is led to. -/
theorem cancellation_lost :
    ¬ ReachesTask noCrypto bareLibrary fetch (.typescript [] none) "task-1" (some "acme") ∧
    ¬ ReachesTask noCrypto bareLibrary fetch (.reference []) "task:1" none ∧
    ¬ ReachesTask noCrypto bareLibrary fetch (.python none) "task-1" (some "acme") := by
  refine ⟨fun h => ?_, fun h => ?_, fun h => ?_⟩
  · exact absurd h.reachable.query (by decide)
  · exact absurd h.reachable.encoded (by decide)
  · exact absurd h.reachable.query (by decide)

end MapProtocol.Sdk
