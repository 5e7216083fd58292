import MapProtocol.Js.Json
import MapProtocol.Lib.Retry

/-!
# Retries of the TypeScript and the Python client

The server marks each error as retryable or not. Neither client looks at the mark: the TypeScript
client asks a table of its own for the code of the error, the Python client looks for a code where
the server puts none. Both stop in time (`retries_follow_iff`).
-/

namespace MapProtocol.Sdk

open Js

/-! ## What the server answers -/

structure ServerError where
  code      : String
  message   : String
  retryable : Bool
  details   : Option JsObject := none

/-- `sendError`: the body of an error answer. -/
def errorBody (requestId : String) (error : ServerError) : JsObject :=
  [("request_id", .str requestId),
    ("error", .obj ([("code", .str error.code), ("message", .str error.message),
      ("retryable", .bool error.retryable)] ++
        (error.details.map fun details => ("details", .obj details)).toList))]

inductive Answer where
  | success (status : { status : Nat // 200 ≤ status ∧ status < 300 }) (body : JsObject)
  | error (status : { status : Nat // 400 ≤ status }) (requestId : String) (error : ServerError)

def Answer.status : Answer → Nat
  | success status _ => status
  | error status _ _ => status

def Answer.body : Answer → JsObject
  | success _ body      => body
  | error _ requestId e => errorBody requestId e

/-- What comes of one attempt: no answer, for a reason, or one, as a text. -/
inductive Attempt where
  | failure (message : String)
  | answer (answer : Answer) (text : String)

/-! ## The clients -/

/-- `ERROR_CODE_RETRYABLE_MAP`, alike in both packages. -/
def ERROR_CODE_RETRYABLE_MAP : List (String × Bool) :=
  [("agent_not_found", false), ("agent_disabled", false), ("capability_not_found", false),
    ("capability_disabled", false), ("policy_denied", false), ("approval_required", false),
    ("approval_denied", false), ("approval_expired", false), ("invalid_delegation_token", false),
    ("token_expired", false), ("token_invalid_signature", false), ("token_missing_scope", false),
    ("schema_validation_failed", false), ("schema_version_unsupported", false),
    ("schema_negotiation_failed", false), ("tenant_mismatch", false),
    ("rate_limit_exceeded", true), ("request_timeout", true), ("internal_error", true),
    ("invalid_request", false), ("idempotency_conflict", false), ("resource_not_found", false),
    ("unauthorized", true), ("forbidden", false)]

/-- How many requests were sent, and what the caller gets. -/
structure Run (E : Type) where
  sends  : Nat
  result : Except E JsObject

def Run.after {E : Type} (run : Run E) : Run E := { run with sends := run.sends + 1 }

namespace TypeScript

/-- `MapError` by its name, or `MapAPIError`. -/
inductive ClientError where
  | map (name message : String)
  | api (code : JsValue) (message : JsValue) (retryable : JsValue) (status : Nat)

/-- `v?.[key]`. -/
def optional (v : JsValue) (key : String) : JsValue :=
  match v with
  | .undefined => .undefined
  | .null      => .undefined
  | v          => v.property key

/-- `doRequest`, once the answer is there or is not. -/
def doRequest : Attempt → Except ClientError JsObject
  | .failure message => .error (.map "MapError" ("Request failed: " ++ message))
  | .answer answer _ =>
      if 200 ≤ answer.status ∧ answer.status < 300 then .ok answer.body
      else
        let err := optional (.obj answer.body) "error"
        .error (.api ((optional err "code").orElse (.str "request_failed"))
          ((optional err "message").orElse (.str ("HTTP " ++ toString answer.status)))
          ((optional err "retryable").orElse (.bool (decide (answer.status ≥ 500))))
          answer.status)

/-- `ERROR_CODE_RETRYABLE_MAP[code]`, with what an object inherits. -/
def retryableCode (code : JsValue) : Bool :=
  ((JsValue.obj (ERROR_CODE_RETRYABLE_MAP.map fun e => (e.1, .bool e.2))).property
    (toText code)).truthy

/-- Is the error one after which the loop goes on? -/
def goesOn : ClientError → Bool
  | .api code _ _ _ => retryableCode code
  | .map name _     => name == "MapTimeoutError"

/-- The loop of `request` from an attempt on. The first argument counts the attempts up to
`retryAttempts`. -/
def requestFrom (retryAttempts : Int) (attempts : Nat → Attempt) : Nat → Nat → Run ClientError
  | 0, _           => ⟨0, .error (.map "MapError" "Request failed after retries")⟩
  | n + 1, attempt =>
      match doRequest (attempts attempt) with
      | .ok body   => ⟨1, .ok body⟩
      | .error err =>
          if attempt = retryAttempts then ⟨1, .error err⟩
          else if !goesOn err then ⟨1, .error err⟩
          else (requestFrom retryAttempts attempts n (attempt + 1)).after

/-- `request`, without middleware. -/
def request (retryAttempts : Int) (attempts : Nat → Attempt) : Run ClientError :=
  requestFrom retryAttempts attempts (retryAttempts + 1).toNat 0

end TypeScript

namespace Python

structure MapAPIError where
  code      : JsValue
  message   : JsValue
  retryable : Bool
  status    : Nat

/-- `error_data.get(key, default)`. -/
def getDefault (data : JsObject) (key : String) (default : JsValue) : JsValue :=
  (OrderedMap.getEntries key data).getD default

/-- `ERROR_CODE_RETRYABLE_MAP.get(code, default)`. -/
def retryableCode (code : JsValue) (default : Bool) : Bool :=
  match code with
  | .str code => (ERROR_CODE_RETRYABLE_MAP.lookup code).getD default
  | _         => default

/-- The error of an answer whose status is 400 or more, for a text of its body. -/
def apiError (text : String) (answer : Answer) : MapAPIError :=
  let code := getDefault answer.body "code" (.str "internal_error")
  ⟨code, getDefault answer.body "message" (.str text),
    retryableCode code (decide (answer.status ≥ 500)), answer.status⟩

/-- The loop of `_dispatch_with_retry` from an attempt on. -/
def dispatchFrom (retryAttempts : Int) (attempts : Nat → Attempt) : Nat → Nat → Run MapAPIError
  | 0, _           =>
      ⟨0, .error ⟨.str "internal_error", .str "Request failed", true, 500⟩⟩
  | n + 1, attempt =>
      match attempts attempt with
      | .failure message    =>
          if attempt < retryAttempts then (dispatchFrom retryAttempts attempts n (attempt + 1)).after
          else ⟨1, .error ⟨.str "request_timeout", .str message, true, 408⟩⟩
      | .answer answer text =>
          if answer.status < 400 then ⟨1, .ok answer.body⟩
          else
            let err := apiError text answer
            if attempt < retryAttempts ∧ err.retryable = true then
              (dispatchFrom retryAttempts attempts n (attempt + 1)).after
            else ⟨1, .error err⟩

def dispatchWithRetry (retryAttempts : Int) (attempts : Nat → Attempt) : Run MapAPIError :=
  dispatchFrom retryAttempts attempts (retryAttempts + 1).toNat 0

end Python

/-! ## When a client goes on -/

inductive RetryingClient where
  | typescript
  | python
  deriving DecidableEq, Repr

namespace RetryingClient

def sends (client : RetryingClient) (retryAttempts : Int) (attempts : Nat → Attempt) : Nat :=
  match client with
  | typescript => (TypeScript.request retryAttempts attempts).sends
  | python     => (Python.dispatchWithRetry retryAttempts attempts).sends

/-- What makes a client try again: its own table for the code, or any error and any failure. -/
def triesAgain : RetryingClient → Attempt → Bool
  | typescript, .answer (.error _ _ error) _ => TypeScript.retryableCode (.str error.code)
  | typescript, _                            => false
  | python, .answer (.success _ _) _         => false
  | python, _                                => true

end RetryingClient

theorem doRequest_goesOn (attempt : Attempt) :
    (∃ body, TypeScript.doRequest attempt = .ok body ∧
        RetryingClient.typescript.triesAgain attempt = false) ∨
      ∃ err, TypeScript.doRequest attempt = .error err ∧
        RetryingClient.typescript.triesAgain attempt = TypeScript.goesOn err := by
  cases attempt with
  | failure message => exact .inr ⟨_, rfl, rfl⟩
  | answer answer text =>
      cases answer with
      | success status body => exact .inl ⟨body, if_pos status.2, rfl⟩
      | error status requestId error =>
          have hstatus : ¬ (200 ≤ status.val ∧ status.val < 300) := by
            have := status.2
            omega
          exact .inr ⟨_, if_neg hstatus, rfl⟩

theorem apiError_retryable (status : { status : Nat // 400 ≤ status }) (requestId text : String)
    (error : ServerError) :
    (Python.apiError text (.error status requestId error)).retryable = true := rfl

section

variable {retryAttempts : Int} {attempts : Nat → Attempt} {n attempt : Nat}

theorem requestFrom_sends (h : (attempt + n : Int) = retryAttempts + 1) :
    (TypeScript.requestFrom retryAttempts attempts n attempt).sends =
      tries (fun k => RetryingClient.typescript.triesAgain (attempts k)) n attempt := by
  induction n generalizing attempt with
  | zero => rfl
  | succ n ih =>
      rw [TypeScript.requestFrom, tries]
      rcases doRequest_goesOn (attempts attempt) with ⟨body, hbody, hstops⟩ | ⟨err, herr, hgoes⟩
      · rw [hbody, hstops]
        rfl
      · rw [herr, hgoes]
        dsimp only
        split
        · obtain rfl : n = 0 := by omega
          rw [tries, ite_self]
        · cases TypeScript.goesOn err with
          | false => rfl
          | true => rw [if_pos rfl, ← ih (by omega), Nat.add_comm 1]; rfl

theorem dispatchFrom_sends (h : (attempt + n : Int) = retryAttempts + 1) :
    (Python.dispatchFrom retryAttempts attempts n attempt).sends =
      tries (fun k => RetryingClient.python.triesAgain (attempts k)) n attempt := by
  induction n generalizing attempt with
  | zero => rfl
  | succ n ih =>
      rw [Python.dispatchFrom, tries]
      have hlast : ¬ (attempt : Int) < retryAttempts → n = 0 := by
        intro hlast
        omega
      cases hattempt : attempts attempt with
      | failure message =>
          dsimp only
          split
          · rw [Run.after, ih (by omega), Nat.add_comm 1]
            rfl
          · rename_i hstop
            rw [hlast hstop, tries, ite_self]
      | answer answer text =>
          cases answer with
          | success status body =>
              have hstatus : (Answer.success status body).status < 400 :=
                Nat.lt_trans status.2.2 (by decide)
              dsimp only
              rw [if_pos hstatus]
              rfl
          | error status requestId e =>
              have hstatus : ¬ (Answer.error status requestId e).status < 400 :=
                Nat.not_lt.mpr status.2
              dsimp only
              rw [if_neg hstatus, apiError_retryable]
              split
              · rw [Run.after, ih (by omega), Nat.add_comm 1]
                rfl
              · rename_i hstop
                rw [hlast fun h => hstop ⟨h, rfl⟩, tries, ite_self]

end

/-! ## The server's verdict -/

/-- What is asked of a client after an attempt: nothing after a failure, unless failures count as
well. -/
def verdict (failures : Bool) : Attempt → Option Bool
  | .failure _               => if failures then some true else none
  | .answer (.success _ _) _ => some false
  | .answer (.error _ _ e) _ => some e.retryable

/-- A client sends again as the verdicts say, and not too often. -/
structure FollowsVerdicts (client : RetryingClient) (failures : Bool) (retryAttempts : Int)
    (attempts : Nat → Attempt) : Prop where
  atMost : client.sends retryAttempts attempts ≤ (retryAttempts + 1).toNat
  again  : ∀ i v, i < client.sends retryAttempts attempts → (i + 1 : Int) < retryAttempts + 1 →
    verdict failures (attempts i) = some v →
      (i + 1 < client.sends retryAttempts attempts ↔ v = true)

/-- The client takes the outcome of an attempt as the server means it. -/
def RetryingClient.Heeds (client : RetryingClient) (failures : Bool) : Attempt → Prop
  | .failure _               => failures = true → client = python
  | .answer (.success _ _) _ => True
  | .answer (.error _ _ e) _ =>
      match client with
      | typescript => TypeScript.retryableCode (.str e.code) = e.retryable
      | python     => e.retryable = true

theorem sends_eq (client : RetryingClient) (retryAttempts : Int) (attempts : Nat → Attempt) :
    client.sends retryAttempts attempts =
      tries (fun k => client.triesAgain (attempts k)) (retryAttempts + 1).toNat 0 := by
  by_cases hnone : retryAttempts + 1 ≤ 0
  · have hzero : (retryAttempts + 1).toNat = 0 := by omega
    cases client with
    | typescript =>
        unfold RetryingClient.sends TypeScript.request
        rw [hzero]
        rfl
    | python =>
        unfold RetryingClient.sends Python.dispatchWithRetry
        rw [hzero]
        rfl
  · cases client with
    | typescript => exact requestFrom_sends (by omega)
    | python => exact dispatchFrom_sends (by omega)

/-- To heed an outcome is to do what the verdict says. -/
theorem heeds_iff (client : RetryingClient) (failures : Bool) (attempt : Attempt) :
    client.Heeds failures attempt ↔
      ∀ v, verdict failures attempt = some v → client.triesAgain attempt = v := by
  have hsome : ∀ b w : Bool, (∀ v, some w = some v → b = v) ↔ b = w := by
    intro b w
    exact ⟨fun h => h w rfl, fun h v hv => h.trans (Option.some.inj hv)⟩
  cases attempt with
  | failure message =>
      cases failures with
      | false =>
          refine iff_of_true ?_ ?_
          · intro h
            cases h
          · intro v h
            cases h
      | true => cases client <;> simp [RetryingClient.Heeds, verdict, RetryingClient.triesAgain]
  | answer answer text =>
      cases answer with
      | success status body =>
          refine iff_of_true trivial ((hsome _ _).mpr ?_)
          cases client <;> rfl
      | error status requestId e =>
          refine Iff.trans ?_ (hsome _ _).symm
          cases client with
          | typescript => exact Iff.rfl
          | python => exact eq_comm

/-- **Retries follow the server's verdict** exactly as long as each outcome that the client gets to,
with attempts left, is one that it takes as the server means it. -/
theorem retries_follow_iff (client : RetryingClient) (failures : Bool) (retryAttempts : Int)
    (attempts : Nat → Attempt) :
    FollowsVerdicts client failures retryAttempts attempts ↔
      ∀ i : Nat, i < retryAttempts → (∀ j < i, client.triesAgain (attempts j) = true) →
        client.Heeds failures (attempts i) := by
  have hfollows : ObeysVerdicts (fun k => client.triesAgain (attempts k))
      (fun k => verdict failures (attempts k)) (retryAttempts + 1).toNat ↔
      ∀ i : Nat, i < retryAttempts → (∀ j < i, client.triesAgain (attempts j) = true) →
        client.Heeds failures (attempts i) := by
    rw [obeysVerdicts_iff]
    simp only [heeds_iff]
    constructor
    · exact fun h i hi hbefore v hv => h i v (by omega) hbefore hv
    · exact fun h i v hi hbefore hv => h i (by omega) hbefore v hv
  rw [← hfollows]
  constructor
  · rintro ⟨-, hagain⟩ i v hmade hmore hverdict
    rw [sends_eq] at hagain
    exact hagain i v hmade (by omega) hverdict
  · intro h
    constructor
    · rw [sends_eq]
      exact tries_le ..
    · intro i v hmade hmore hverdict
      rw [sends_eq] at hmade ⊢
      exact h i v hmade (by omega) hverdict

/-- Two answers to a dispatch. -/
def sampleAnswer (retryable : Bool) (code : String) : Attempt :=
  .answer (.error ⟨400, by decide⟩ "r1" ⟨code, "The requested operation could not be completed.",
    retryable, none⟩) ""

/-- A retryable error is dropped by one client, and a refusal is repeated by the other. -/
theorem verdict_not_followed :
    ¬ FollowsVerdicts .typescript false 3 (fun _ => sampleAnswer true "request_failed") ∧
    ¬ FollowsVerdicts .python false 3 (fun _ => sampleAnswer false "policy_denied") := by
  constructor
  · rintro ⟨-, hagain⟩
    have hsends : RetryingClient.typescript.sends 3 (fun _ => sampleAnswer true "request_failed") =
        1 := by decide
    have hnext := hagain 0 true (by rw [hsends]; decide) (by decide) rfl
    rw [hsends] at hnext
    exact absurd (hnext.mpr rfl) (by decide)
  · rintro ⟨-, hagain⟩
    have hsends : RetryingClient.python.sends 3 (fun _ => sampleAnswer false "policy_denied") =
        4 := by decide
    have hnext := hagain 0 false (by rw [hsends]; decide) (by decide) rfl
    rw [hsends] at hnext
    exact absurd (hnext.mp (by decide)) (by decide)

end MapProtocol.Sdk
