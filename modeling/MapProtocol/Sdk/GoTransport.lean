import MapProtocol.Lib.Retry

/-!
# The retrying transport of the Go client

`doWithRetry` clones the request for each attempt. A clone takes the bytes of the request's body by
reading it to its end, so that the request itself has nothing left for the next clone; and a response
that calls for a retry is read to its end whether or not another attempt follows.
-/

namespace MapProtocol.Sdk.Go

/-- An `io.ReadCloser`: the bytes left to read, the error that ends them where it is not the end of
the stream, and the error of a read once the stream is closed, where closing it has an effect. -/
structure Body where
  unread  : List UInt8
  failure : Option String := none
  closed  : Option String := none
  deriving DecidableEq, Repr

/-- `io.ReadAll`, with the stream it leaves. -/
def Body.readAll (body : Body) : List UInt8 × Option String × Body :=
  (body.unread, body.failure, { body with unread := [] })

def Body.close (body : Body) : Body :=
  match body.closed with
  | some message => { body with
      unread := []
      failure := some message }
  | none         => body

/-- The body that `io.NopCloser(&readCloser{data: bodyBytes})` reads. -/
def Body.ofBytes (bodyBytes : List UInt8) : Body := ⟨bodyBytes, none, none⟩

def bodyBytes (body : Option Body) : List UInt8 := (body.map Body.unread).getD []

structure Request where
  method : String
  url    : String
  header : List (String × List String)
  body   : Option Body

structure Response where
  statusCode : Nat
  header     : List (String × List String)
  body       : Option Body

/-- What meets the attempts: the answer of `Client.Do` to each, and the error of the request's
context before it. -/
structure Network where
  answer       : Nat → Except String Response
  contextError : Nat → Option String

structure HTTPTransport where
  maxRetries : Int

/-! ## The transport -/

def isRetryableResponse (resp : Response) : Bool :=
  if resp.statusCode ≥ 500 then true
  else if resp.statusCode = 429 then true
  else if resp.statusCode = 503 then true
  else false

/-- `cloneRequest`, with the request it leaves behind. -/
def cloneRequest (req : Request) : Request × Request :=
  match req.body with
  | none      => (req, req)
  | some body =>
      let (bodyBytes, err, body) := body.readAll
      let body := body.close
      match err with
      | none   => ({ req with body := some (.ofBytes bodyBytes) }, { req with body := some body })
      | some _ => ({ req with body := some body }, { req with body := some body })

/-- The response once its body is read and closed. -/
def Response.drain (resp : Response) : Response :=
  { resp with body := resp.body.map fun body => body.readAll.2.2.close }

/-- The requests handed to `Client.Do`, and what the caller gets. -/
structure Outcome where
  calls    : List Request
  response : Option Response
  error    : Option String

namespace HTTPTransport

variable (t : HTTPTransport) (network : Network)

/-- The loop from an attempt on, with `resp` and `err` as the attempt before left them. The first
argument counts the attempts up to `MaxRetries`. -/
def attemptsFrom : Nat → Nat → Request → Option Response → Option String → Outcome
  | 0, _, _, resp, err         => ⟨[], resp, err⟩
  | n + 1, attempt, req, _, _ =>
      match if attempt > 0 then network.contextError attempt else none with
      | some err => ⟨[], none, some err⟩
      | none     =>
          let (reqClone, req) := cloneRequest req
          let outcome : Outcome := match network.answer attempt with
            | .error err =>
                if attempt ≥ t.maxRetries then
                  ⟨[], none, some ("request failed after " ++ toString attempt ++ " attempts: " ++
                    err)⟩
                else attemptsFrom n (attempt + 1) req none (some err)
            | .ok resp   =>
                if isRetryableResponse resp then
                  attemptsFrom n (attempt + 1) req (some resp.drain) none
                else ⟨[], some resp, none⟩
          ⟨reqClone :: outcome.calls, outcome.response, outcome.error⟩

def doWithRetry (req : Request) : Outcome :=
  attemptsFrom t network (t.maxRetries + 1).toNat 0 req none none

end HTTPTransport

/-- An `HTTPTransport` with `RetryEnabled`. -/
structure RetryTransport extends HTTPTransport where
  retryEnabled : Bool

def newHTTPTransport : RetryTransport := ⟨⟨3⟩, true⟩

def RetryTransport.roundTrip (t : RetryTransport) (network : Network) (req : Request) : Outcome :=
  if t.retryEnabled then t.doWithRetry network req
  else match network.answer 0 with
    | .ok resp   => ⟨[req], some resp, none⟩
    | .error err => ⟨[req], none, some err⟩

/-! ## Which attempts are made -/

/-- An answer that the transport takes as a reason to try again. -/
def callsForRetry : Except String Response → Bool
  | .error _ => true
  | .ok resp => isRetryableResponse resp

/-- After this attempt the transport makes another one if it may. -/
def Network.again (network : Network) (attempt : Nat) : Bool :=
  callsForRetry (network.answer attempt) && (network.contextError (attempt + 1)).isNone

/-- The clones of a request, taken one after another. -/
def clones : Nat → Request → List Request
  | 0, _       => []
  | n + 1, req => (cloneRequest req).1 :: clones n (cloneRequest req).2

theorem length_clones (n : Nat) (req : Request) : (clones n req).length = n := by
  induction n generalizing req with
  | zero => rfl
  | succ n ih => rw [clones, List.length_cons, ih]

/-- The answer that an attempt leaves when another is to follow: read and closed. -/
def drained : Except String Response → Option Response
  | .error _ => none
  | .ok resp => some resp.drain

section

variable {t : HTTPTransport} {network : Network} {n attempt : Nat}

/-- One attempt: its answer is the caller's, or the loop goes on without it. -/
theorem attemptsFrom_succ (req : Request) (resp : Option Response) (err : Option String)
    (hlast : (attempt + n : Int) = t.maxRetries)
    (hcontext : attempt = 0 ∨ network.contextError attempt = none) :
    let outcome := t.attemptsFrom network (n + 1) attempt req resp err
    (callsForRetry (network.answer attempt) = false ∧ outcome.calls = [(cloneRequest req).1] ∧
      ∃ answer, network.answer attempt = .ok answer ∧ outcome.response = some answer) ∨
    (callsForRetry (network.answer attempt) = true ∧ ∃ err,
      let next := t.attemptsFrom network n (attempt + 1) (cloneRequest req).2
        (drained (network.answer attempt)) err
      outcome.calls = (cloneRequest req).1 :: next.calls ∧ outcome.response = next.response) := by
  have hopen : (if attempt > 0 then network.contextError attempt else none) = none := by
    rcases hcontext with rfl | hcontext
    · rfl
    · rw [hcontext, ite_self]
  simp only [HTTPTransport.attemptsFrom, hopen]
  cases hanswer : network.answer attempt with
  | error message =>
      -- a failed attempt, the last one or not, leaves no response
      refine .inr ⟨rfl, some message, ?_⟩
      dsimp only
      split
      · obtain rfl : n = 0 := by omega
        exact ⟨rfl, rfl⟩
      · exact ⟨rfl, rfl⟩
  | ok answer =>
      cases hretryable : isRetryableResponse answer with
      | true => exact .inr ⟨hretryable, none, by simp only [hretryable]; exact ⟨rfl, rfl⟩⟩
      | false =>
          simp only [hretryable]
          exact .inl ⟨hretryable, rfl, answer, rfl, rfl⟩

/-- The loop stops where the context has an error. -/
theorem attemptsFrom_cancelled {message : String}
    (h : network.contextError (attempt + 1) = some message) (req : Request)
    (resp : Option Response) (err : Option String) :
    (t.attemptsFrom network n (attempt + 1) req resp err).calls = [] ∧
      (t.attemptsFrom network n (attempt + 1) req resp err).response =
        if n = 0 then resp else none := by
  cases n with
  | zero => exact ⟨rfl, rfl⟩
  | succ n => simp [HTTPTransport.attemptsFrom, h]

theorem attemptsFrom_calls (req : Request) (resp : Option Response) (err : Option String)
    (hlast : (attempt + n : Int) = t.maxRetries + 1)
    (hcontext : attempt = 0 ∨ network.contextError attempt = none) :
    (t.attemptsFrom network n attempt req resp err).calls =
      clones (tries network.again n attempt) req := by
  induction n generalizing attempt req resp err with
  | zero => rfl
  | succ n ih =>
      rw [tries, Nat.add_comm 1, Network.again]
      rcases attemptsFrom_succ req resp err
          (show (attempt + n : Int) = t.maxRetries by omega) hcontext with
        ⟨hretry, hcalls, -⟩ | ⟨hretry, err', hcalls, -⟩
      · rw [hcalls, hretry]
        rfl
      · rw [hcalls, hretry, Bool.true_and, clones]
        congr 1
        cases hcancelled : network.contextError (attempt + 1) with
        | none => exact ih _ _ _ (by omega) (.inr hcancelled)
        | some message => exact (attemptsFrom_cancelled hcancelled ..).1

/-- The answer that the caller gets: the last one, drained where it calls for a retry. -/
def Delivers (network : Network) (n attempt made : Nat) (returned : Response) : Prop :=
  ∃ answer, network.answer (attempt + made - 1) = .ok answer ∧
    (isRetryableResponse answer = false ∧ returned = answer ∨
      isRetryableResponse answer = true ∧ made = n ∧ returned = answer.drain)

theorem delivers_answer {answer returned : Response} (hanswer : network.answer attempt = .ok answer)
    (hretry : isRetryableResponse answer = false) :
    Delivers network n attempt 1 returned ↔ some answer = some returned := by
  unfold Delivers
  rw [Nat.add_sub_cancel, hanswer]
  constructor
  · rintro ⟨_, hsame, ⟨-, rfl⟩ | ⟨hnot, -⟩⟩
    · rw [Except.ok.inj hsame]
    · obtain rfl := Except.ok.inj hsame
      exact absurd (hretry.symm.trans hnot) Bool.noConfusion
  · rintro ⟨⟩
    exact ⟨answer, rfl, .inl ⟨hretry, rfl⟩⟩

theorem delivers_last {returned : Response} (hretry : callsForRetry (network.answer attempt) = true) :
    Delivers network n attempt 1 returned ↔
      n = 1 ∧ drained (network.answer attempt) = some returned := by
  unfold Delivers
  rw [Nat.add_sub_cancel]
  constructor
  · rintro ⟨answer, hanswer, ⟨hnot, -⟩ | ⟨-, rfl, rfl⟩⟩
    · rw [hanswer] at hretry
      exact absurd (hretry.symm.trans hnot) Bool.noConfusion
    · rw [hanswer]
      exact ⟨rfl, rfl⟩
  · rintro ⟨rfl, hdrained⟩
    cases hanswer : network.answer attempt with
    | error message =>
        rw [hanswer] at hdrained
        cases hdrained
    | ok answer =>
        rw [hanswer] at hdrained hretry
        exact ⟨answer, rfl, .inr ⟨hretry, rfl, (Option.some.inj hdrained).symm⟩⟩

theorem attemptsFrom_response (req : Request) (resp : Option Response) (err : Option String)
    (hlast : (attempt + n : Int) = t.maxRetries)
    (hcontext : attempt = 0 ∨ network.contextError attempt = none) {returned : Response} :
    (t.attemptsFrom network (n + 1) attempt req resp err).response = some returned ↔
      Delivers network (n + 1) attempt (tries network.again (n + 1) attempt) returned := by
  induction n generalizing attempt req resp err with
  | zero =>
      have hone : tries network.again 1 attempt = 1 := by
        rw [tries, tries, ite_self]
      rw [hone]
      rcases attemptsFrom_succ req resp err hlast hcontext with
        ⟨hretry, -, answer, hanswer, hresponse⟩ | ⟨hretry, err', -, hresponse⟩
      · rw [hanswer] at hretry
        rw [hresponse, delivers_answer hanswer hretry]
      · rw [hresponse, delivers_last hretry, HTTPTransport.attemptsFrom]
        simp
  | succ n ih =>
      rw [tries, Network.again]
      rcases attemptsFrom_succ req resp err hlast hcontext with
        ⟨hretry, -, answer, hanswer, hresponse⟩ | ⟨hretry, err', -, hresponse⟩
      · rw [hretry, hresponse]
        rw [hanswer] at hretry
        exact (delivers_answer hanswer hretry).symm
      · rw [hresponse, hretry, Bool.true_and]
        cases hcancelled : network.contextError (attempt + 1) with
        | none =>
            -- the context is looked at before the next attempt
            have hindex : attempt + (1 + tries network.again (n + 1) (attempt + 1)) - 1 =
                attempt + 1 + tries network.again (n + 1) (attempt + 1) - 1 := by
              omega
            rw [ih _ _ _ (by omega) (.inr hcancelled), Option.isNone_none, if_pos rfl, Delivers,
              Delivers, hindex, Nat.add_comm 1, Nat.add_right_cancel_iff]
        | some message =>
            have hnone : (t.attemptsFrom network (n + 1) (attempt + 1) (cloneRequest req).2
                (drained (network.answer attempt)) err').response = none :=
              (attemptsFrom_cancelled hcancelled ..).2
            rw [hnone]
            refine iff_of_false (by simp) ?_
            intro h
            exact absurd ((delivers_last hretry).mp h).1 (by omega)

end

/-! ## Requests sent again

The first clone uses up the body of the request, and the later ones are made from what is left. -/

/-- The same request, with the same bytes for its body. -/
def Request.SameAs (sent req : Request) : Prop :=
  sent.method = req.method ∧ sent.url = req.url ∧ sent.header = req.header ∧
    bodyBytes sent.body = bodyBytes req.body

/-- Every attempt sends the request, there are no more of them than allowed, and a response that the
caller gets can be read as it was answered. -/
structure Resends (t : HTTPTransport) (network : Network) (req : Request) : Prop where
  same   : ∀ sent ∈ (t.doWithRetry network req).calls, sent.SameAs req
  atMost : (t.doWithRetry network req).calls.length ≤ (t.maxRetries + 1).toNat
  unread : ∀ returned, (t.doWithRetry network req).response = some returned →
    ∃ answer, network.answer ((t.doWithRetry network req).calls.length - 1) = .ok answer ∧
      bodyBytes returned.body = bodyBytes answer.body

def Request.ReadsToEnd (req : Request) : Prop := ∀ body, req.body = some body → body.failure = none

/-- An attempt whose outcome has the transport make the next one. -/
def Network.CallsForAnother (network : Network) (attempt : Nat) : Prop :=
  callsForRetry (network.answer attempt) = true ∧ network.contextError (attempt + 1) = none

/-- The body of the request is empty, or is read to its end by the only attempt there is; and where
all attempts are used up, the last answer calls for no retry or has an empty body. -/
structure Resendable (t : HTTPTransport) (network : Network) (req : Request) : Prop where
  request  : bodyBytes req.body = [] ∨ t.maxRetries < 0 ∨
    req.ReadsToEnd ∧ ¬ (0 < t.maxRetries ∧ network.CallsForAnother 0)
  response : 0 ≤ t.maxRetries → (∀ k : Nat, k < t.maxRetries → network.CallsForAnother k) →
    ∀ answer, network.answer t.maxRetries.toNat = .ok answer →
      isRetryableResponse answer = true → bodyBytes answer.body = []

section

variable {req : Request}

theorem close_unread {body : Body} (h : body.unread = []) : body.close.unread = [] := by
  unfold Body.close
  split
  · rfl
  · exact h

/-- A clone is the request, but for the body that both of them are left with. -/
theorem cloneRequest_shape (req : Request) :
    ∃ cloned left, cloneRequest req = ({ req with body := cloned }, { req with body := left }) ∧
      bodyBytes left = [] ∧ (bodyBytes cloned = bodyBytes req.body ∨ bodyBytes cloned = []) ∧
      (req.ReadsToEnd → bodyBytes cloned = bodyBytes req.body) ∧
      (bodyBytes cloned = bodyBytes req.body → bodyBytes req.body = [] ∨ req.ReadsToEnd) := by
  obtain ⟨method, url, header, body⟩ := req
  cases body with
  | none =>
      refine ⟨none, none, rfl, rfl, .inl rfl, fun _ => rfl, fun _ => .inl rfl⟩
  | some body =>
      have hleft : bodyBytes (some body.readAll.2.2.close) = [] := close_unread rfl
      cases hfailure : body.failure with
      | none =>
          -- the clone takes the bytes; the original is left read and closed
          refine ⟨some (.ofBytes body.unread), some body.readAll.2.2.close, ?_, hleft, .inl rfl,
            fun _ => rfl, fun _ => .inr ?_⟩
          · simp [cloneRequest, Body.readAll, hfailure]
          · rintro _ ⟨⟩
            exact hfailure
      | some message =>
          refine ⟨some body.readAll.2.2.close, some body.readAll.2.2.close, ?_, hleft, .inr hleft,
            fun h => ?_, fun h => .inl (h.symm.trans hleft)⟩
          · simp [cloneRequest, Body.readAll, hfailure]
          · exact absurd ((h body rfl).symm.trans hfailure) (fun h => nomatch h)

theorem clones_of_empty {m : Nat} (h : bodyBytes req.body = []) :
    ∀ sent ∈ clones m req, sent.SameAs req := by
  induction m generalizing req with
  | zero => exact fun _ h => nomatch h
  | succ m ih =>
      obtain ⟨cloned, left, hclone, hleft, hcloned, -, -⟩ := cloneRequest_shape req
      intro sent hsent
      rw [clones, hclone] at hsent
      rcases List.mem_cons.mp hsent with rfl | hsent
      · refine ⟨rfl, rfl, rfl, ?_⟩
        rcases hcloned with hcloned | hcloned
        · exact hcloned
        · exact hcloned.trans h.symm
      · obtain ⟨hmethod, hurl, hheader, hbytes⟩ := ih hleft sent hsent
        exact ⟨hmethod, hurl, hheader, hbytes.trans (hleft.trans h.symm)⟩

/-- All clones are the request if they have nothing to read, or if there is one at most and reading
does not fail. -/
theorem clones_same_iff {m : Nat} :
    (∀ sent ∈ clones m req, sent.SameAs req) ↔
      bodyBytes req.body = [] ∨ m = 0 ∨ req.ReadsToEnd ∧ m ≤ 1 := by
  obtain ⟨cloned, left, hclone, hleft, hcloned, hends, hends'⟩ := cloneRequest_shape req
  constructor
  · intro h
    cases m with
    | zero => exact .inr (.inl rfl)
    | succ m =>
        rw [clones, hclone] at h
        have hfirst := (h _ (List.mem_cons_self ..)).2.2.2
        rcases hends' hfirst with hempty | hends
        · exact .inl hempty
        cases m with
        | zero => exact .inr (.inr ⟨hends, Nat.le_refl 1⟩)
        | succ m =>
            obtain ⟨cloned', left', hclone', -, hcloned', -, -⟩ :=
              cloneRequest_shape { req with body := left }
            rw [clones, hclone'] at h
            have hsecond := (h _ (List.mem_cons_of_mem _ (List.mem_cons_self ..))).2.2.2
            -- the second clone is made of a body that was already read
            have hempty : bodyBytes cloned' = [] := by
              rcases hcloned' with hcloned' | hcloned'
              · exact hcloned'.trans hleft
              · exact hcloned'
            exact .inl (hsecond.symm.trans hempty)
  · rintro (hempty | rfl | ⟨hreads, hone⟩)
    · exact clones_of_empty hempty
    · exact fun _ h => nomatch h
    · intro sent hsent
      obtain rfl | rfl : m = 0 ∨ m = 1 := by omega
      · cases hsent
      · rw [clones, hclone, clones, List.mem_singleton] at hsent
        rw [hsent]
        exact ⟨rfl, rfl, rfl, hends hreads⟩

end

section

variable (t : HTTPTransport) (network : Network) (req : Request)

theorem again_iff {attempt : Nat} :
    network.again attempt = true ↔ network.CallsForAnother attempt := by
  rw [Network.again, Bool.and_eq_true, Option.isNone_iff_eq_none, Network.CallsForAnother]

theorem doWithRetry_calls : (t.doWithRetry network req).calls =
    clones (tries network.again (t.maxRetries + 1).toNat 0) req := by
  by_cases hnone : t.maxRetries < 0
  · have hzero : (t.maxRetries + 1).toNat = 0 := by omega
    rw [HTTPTransport.doWithRetry, hzero]
    rfl
  · exact attemptsFrom_calls req none none (by omega) (.inl rfl)

theorem doWithRetry_response {returned : Response} :
    (t.doWithRetry network req).response = some returned ↔ 0 ≤ t.maxRetries ∧
      Delivers network (t.maxRetries + 1).toNat 0
        (tries network.again (t.maxRetries + 1).toNat 0) returned := by
  by_cases hnone : t.maxRetries < 0
  · have hzero : (t.maxRetries + 1).toNat = 0 := by omega
    rw [HTTPTransport.doWithRetry, hzero]
    refine iff_of_false (fun h => nomatch h) fun h => ?_
    omega
  · obtain ⟨n, hn⟩ : ∃ n : Nat, t.maxRetries = n := ⟨t.maxRetries.toNat, by omega⟩
    have hsucc : (t.maxRetries + 1).toNat = n + 1 := by omega
    rw [HTTPTransport.doWithRetry, hsucc, attemptsFrom_response req none none (by omega) (.inl rfl)]
    exact ⟨fun h => ⟨by omega, h⟩, And.right⟩

theorem drain_bytes (resp : Response) : bodyBytes resp.drain.body = [] := by
  unfold Response.drain
  cases resp.body with
  | none => rfl
  | some body => exact close_unread rfl

/-- One attempt is made at most, unless the first calls for another. -/
theorem tries_le_one_iff : tries network.again (t.maxRetries + 1).toNat 0 ≤ 1 ↔
    ¬ (0 < t.maxRetries ∧ network.CallsForAnother 0) := by
  rw [← Nat.not_lt, lt_tries_iff, ← again_iff]
  simp only [Nat.lt_one_iff, forall_eq, Nat.zero_add]
  refine not_congr (and_congr_left fun _ => ?_)
  omega

theorem tries_eq_all_iff (h : 0 ≤ t.maxRetries) :
    tries network.again (t.maxRetries + 1).toNat 0 = (t.maxRetries + 1).toNat ↔
      ∀ k : Nat, k < t.maxRetries → network.CallsForAnother k := by
  rw [tries_eq_iff]
  constructor
  · intro hall k hk
    rw [← again_iff, ← Nat.zero_add k]
    exact hall k (by omega)
  · intro hall k hk
    rw [again_iff, Nat.zero_add]
    exact hall k (by omega)

theorem response_unread_iff :
    (∀ returned, (t.doWithRetry network req).response = some returned →
      ∃ answer, network.answer ((t.doWithRetry network req).calls.length - 1) = .ok answer ∧
        bodyBytes returned.body = bodyBytes answer.body) ↔
    (0 ≤ t.maxRetries → (∀ k : Nat, k < t.maxRetries → network.CallsForAnother k) →
      ∀ answer, network.answer t.maxRetries.toNat = .ok answer →
        isRetryableResponse answer = true → bodyBytes answer.body = []) := by
  simp only [doWithRetry_calls, length_clones, doWithRetry_response, Delivers, Nat.zero_add]
  constructor
  · intro h hallowed hall answer hanswer hretry
    have hmade := (tries_eq_all_iff t network hallowed).mpr hall
    have hlast : (t.maxRetries + 1).toNat - 1 = t.maxRetries.toNat := by omega
    rw [hmade, hlast] at h
    obtain ⟨answer', hanswer', hbytes⟩ :=
      h answer.drain ⟨hallowed, answer, hanswer, .inr ⟨hretry, rfl, rfl⟩⟩
    obtain rfl := Except.ok.inj (hanswer.symm.trans hanswer')
    exact hbytes.symm.trans (drain_bytes answer)
  · rintro h returned ⟨hallowed, answer, hanswer, ⟨-, rfl⟩ | ⟨hretry, hmade, rfl⟩⟩
    · exact ⟨returned, hanswer, rfl⟩
    · have hlast : (t.maxRetries + 1).toNat - 1 = t.maxRetries.toNat := by omega
      have hall := (tries_eq_all_iff t network hallowed).mp hmade
      refine ⟨answer, hanswer, (drain_bytes answer).trans ?_⟩
      rw [hmade, hlast] at hanswer
      exact (h hallowed hall answer hanswer hretry).symm

/-- **The transport resends the request** exactly where nothing is lost by it: the body of the
request is empty or sent once, and the last answer is not taken from the caller. -/
theorem resends_iff : Resends t network req ↔ Resendable t network req := by
  have hsame : (∀ sent ∈ (t.doWithRetry network req).calls, sent.SameAs req) ↔
      bodyBytes req.body = [] ∨ t.maxRetries < 0 ∨
        req.ReadsToEnd ∧ ¬ (0 < t.maxRetries ∧ network.CallsForAnother 0) := by
    rw [doWithRetry_calls, clones_same_iff, tries_le_one_iff, ← Nat.le_zero, ← Nat.not_lt,
      tries_pos_iff]
    have hnone : ¬ 0 < (t.maxRetries + 1).toNat ↔ t.maxRetries < 0 := by omega
    rw [hnone]
  have hatMost : (t.doWithRetry network req).calls.length ≤ (t.maxRetries + 1).toNat := by
    rw [doWithRetry_calls, length_clones]
    exact tries_le ..
  constructor
  · rintro ⟨hrequest, -, hresponse⟩
    exact ⟨hsame.mp hrequest, (response_unread_iff t network req).mp hresponse⟩
  · rintro ⟨hrequest, hresponse⟩
    exact ⟨hsame.mpr hrequest, hatMost, (response_unread_iff t network req).mpr hresponse⟩

end

/-! ## The last answer -/

section

variable {t : RetryTransport} {network : Network} {req : Request} {made : Nat} {answer : Response}

theorem roundTrip_kept (hmade : (t.roundTrip network req).calls.length = made + 1)
    (hanswer : network.answer made = .ok answer)
    (hkept : t.retryEnabled = true → isRetryableResponse answer = false) :
    (t.roundTrip network req).response = some answer := by
  unfold RetryTransport.roundTrip at hmade ⊢
  split at hmade
  · rename_i henabled
    rw [doWithRetry_calls, length_clones] at hmade
    have hle := tries_le network.again (t.maxRetries + 1).toNat 0
    rw [if_pos henabled, doWithRetry_response, hmade]
    refine ⟨by omega, answer, ?_, .inl ⟨hkept henabled, rfl⟩⟩
    rw [Nat.zero_add, Nat.add_sub_cancel]
    exact hanswer
  · rename_i hdisabled
    rw [if_neg hdisabled]
    obtain rfl : made = 0 := by
      revert hmade
      cases network.answer 0 <;> exact fun hmade => (Nat.succ.inj hmade).symm
    rw [hanswer]

theorem roundTrip_drained {returned : Response} (henabled : t.retryEnabled = true)
    (hmade : (t.roundTrip network req).calls.length = made + 1)
    (hanswer : network.answer made = .ok answer) (hretry : isRetryableResponse answer = true)
    (h : (t.roundTrip network req).response = some returned) : returned = answer.drain := by
  unfold RetryTransport.roundTrip at hmade h
  rw [if_pos henabled] at hmade h
  rw [doWithRetry_calls, length_clones] at hmade
  obtain ⟨-, last, hlast, hdelivered⟩ := doWithRetry_response _ _ _ |>.mp h
  rw [hmade, Nat.zero_add, Nat.add_sub_cancel, hanswer] at hlast
  obtain rfl := Except.ok.inj hlast
  rcases hdelivered with ⟨hnot, -⟩ | ⟨-, -, hdrained⟩
  · exact absurd (hretry.symm.trans hnot) Bool.noConfusion
  · exact hdrained

end

/-- The server is unavailable twice and then answers. -/
def sampleNetwork : Network where
  answer attempt := .ok ⟨if attempt < 2 then 503 else 200, [], some (.ofBytes [111, 107])⟩
  contextError _ := none

def sampleRequest : Request := ⟨"POST", "http://localhost/dispatch", [], some (.ofBytes [123, 125])⟩

/-- The second attempt has no body, and two attempts give a response that is already read. -/
theorem request_not_resent :
    ¬ Resends ⟨3⟩ sampleNetwork sampleRequest ∧
    ¬ Resends ⟨0⟩ sampleNetwork { sampleRequest with body := none } := by
  have hsecond : (HTTPTransport.doWithRetry ⟨3⟩ sampleNetwork sampleRequest).calls.map
      (fun sent => bodyBytes sent.body) = [[123, 125], [], []] := rfl
  constructor
  · rintro ⟨hsame, -, -⟩
    have hmem : ([] : List UInt8) ∈ (HTTPTransport.doWithRetry ⟨3⟩ sampleNetwork
        sampleRequest).calls.map (fun sent => bodyBytes sent.body) := by
      rw [hsecond]
      decide
    obtain ⟨sent, hsent, hempty⟩ := List.mem_map.mp hmem
    exact absurd (hempty.symm.trans (hsame sent hsent).2.2.2) (by decide)
  · rintro ⟨-, -, hunread⟩
    obtain ⟨answer, hanswer, hbytes⟩ := hunread _ rfl
    obtain rfl := Except.ok.inj hanswer
    exact absurd hbytes (by decide)

end MapProtocol.Sdk.Go
