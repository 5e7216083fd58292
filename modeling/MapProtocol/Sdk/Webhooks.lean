import MapProtocol.Js.Bytes
import MapProtocol.Py.Json
import Mathlib.Logic.Function.Basic

/-!
# Signed webhooks

A delivery carries a signature and the timestamp that went into it. The Python sender signs the
event's id, the timestamp and its own text of the data, and leaves the body to the HTTP library; the
TypeScript dispatcher does not use the secret at all. The verifier expects the word `payload` in
place of the id, and the body as it arrived (`authenticates_iff`).
-/

namespace MapProtocol.Sdk

open Js

inductive WebhookEventType where
  | taskDispatched
  | taskProposed
  | taskAccepted
  | taskAwaitingApproval
  | taskDenied
  | taskRunning
  | taskCompleted
  | taskFailed
  | taskRevoked
  | agentRegistered
  | agentDeregistered
  deriving DecidableEq, Repr

def WebhookEventType.value : WebhookEventType → String
  | taskDispatched       => "task.dispatched"
  | taskProposed         => "task.proposed"
  | taskAccepted         => "task.accepted"
  | taskAwaitingApproval => "task.awaiting_approval"
  | taskDenied           => "task.denied"
  | taskRunning          => "task.running"
  | taskCompleted        => "task.completed"
  | taskFailed           => "task.failed"
  | taskRevoked          => "task.revoked"
  | agentRegistered      => "agent.registered"
  | agentDeregistered    => "agent.deregistered"

/-- An event, with its data as a value of the language. -/
structure WebhookEvent (Data : Type) where
  id         : String
  type       : WebhookEventType
  timestamp  : String
  data       : Data
  retryCount : Option Nat := none

/-- The request that reaches an endpoint. -/
structure Delivery where
  headers : List (String × String)
  body    : String

def Delivery.signature (delivery : Delivery) : Option String :=
  delivery.headers.lookup "X-MAP-Webhook-Signature"

def Delivery.timestamp (delivery : Delivery) : Option String :=
  delivery.headers.lookup "X-MAP-Webhook-Timestamp"

/-- What the Python package takes from elsewhere: the hex digest of HMAC-SHA256 of a text under a
key, the text that the HTTP library makes of JSON data, and the digits that `int` reads beyond
ASCII. -/
structure PythonLibraries where
  hmacSha256   : String → String → String
  jsonBody     : Py.Dict → String
  foreignDigit : Char → Option Nat

namespace Python

variable (libraries : PythonLibraries)

def jsonDumps (data : Py.Dict) : String := Py.dumps (.dict data)

/-- `_sign_payload`, at a time in seconds. -/
def signPayload (secret : String) (event : WebhookEvent Py.Dict) (seconds : Nat) :
    List (String × String) :=
  let timestamp := toString seconds
  let payload := event.id ++ "." ++ timestamp ++ "." ++ jsonDumps event.data
  [("X-MAP-Webhook-Signature", libraries.hmacSha256 secret payload),
    ("X-MAP-Webhook-Timestamp", timestamp)]

/-- `_send_single`, without additional headers. -/
def sendSingle (secret : String) (event : WebhookEvent Py.Dict) (seconds : Nat) : Delivery where
  headers := [("Content-Type", "application/json"), ("X-MAP-Webhook-Event", event.type.value),
      ("X-MAP-Webhook-Delivery", event.id)] ++
    if secret = "" then [] else signPayload libraries secret event seconds
  body := libraries.jsonBody event.data

/-- `verify_webhook_signature`. A header that is missing is `None`, which raises and so fails. -/
def verifyWebhookSignature (payload : String) (signature timestamp : Option String)
    (secret : String) (currentTime toleranceSeconds : Int) : Bool :=
  match signature, timestamp with
  | some signature, some timestamp =>
      match Py.int libraries.foreignDigit timestamp with
      | none    => false
      | some ts =>
          if |currentTime - ts| > toleranceSeconds then false
          else
            let expectedPayload := "payload." ++ timestamp ++ "." ++ payload
            signature == libraries.hmacSha256 secret expectedPayload
  | _, _ => false

end Python

namespace TypeScript

/-- `Buffer.from(text).toString("base64")`. -/
def base64 (text : String) : String :=
  let chars := (base64url text).toList.map fun c =>
    if c = '-' then '+' else if c = '_' then '/' else c
  String.ofList (chars ++ List.replicate ((4 - chars.length % 4) % 4) '=')

def eventToJs (event : WebhookEvent JsObject) : JsObject :=
  [("id", .str event.id), ("type", .str event.type.value), ("timestamp", .str event.timestamp),
    ("data", .obj event.data),
    ("retryCount", match event.retryCount with
      | some n => .num n
      | none   => .undefined)]

/-- `signPayload`, at a time in milliseconds: the signature and the timestamp. -/
def signPayload (event : WebhookEvent JsObject) (_secret : String) (ms : Nat) : String × String :=
  let timestamp := toISOString ms
  let payload := event.id ++ "." ++ timestamp ++ "." ++ stringify event.data
  (base64 payload, timestamp)

/-- `deliverToEndpoint`, for an endpoint with a secret. -/
def deliverToEndpoint (event : WebhookEvent JsObject) (secret : String) (ms : Nat) : Delivery :=
  let (signature, timestamp) := signPayload event secret ms
  { headers := [("Content-Type", "application/json"), ("X-MAP-Webhook-Event", event.type.value),
      ("X-MAP-Webhook-Delivery", event.id), ("X-MAP-Webhook-Signature", signature),
      ("X-MAP-Webhook-Timestamp", timestamp)]
    body := stringify (eventToJs event) }

end TypeScript

/-! ## What the verifier makes of a delivery -/

/-- Something signed and sent, at a time of the clock. -/
inductive Sending where
  | python (event : WebhookEvent Py.Dict) (seconds : Nat)
  | typescript (event : WebhookEvent JsObject) (ms : Nat)

namespace Sending

variable (libraries : PythonLibraries) (secret : String)

def delivery : Sending → Delivery
  | python event seconds => Python.sendSingle libraries secret event seconds
  | typescript event ms  => TypeScript.deliverToEndpoint event secret ms

def seconds : Sending → Nat
  | python _ seconds => seconds
  | typescript _ ms  => ms / 1000

/-- The delivery is accepted within the tolerance, and with no other secret, timestamp or body. -/
structure Authenticates (sending : Sending) : Prop where
  accepted : ∀ currentTime tolerance : Int, |currentTime - sending.seconds| ≤ tolerance →
    Python.verifyWebhookSignature libraries (sending.delivery libraries secret).body
      (sending.delivery libraries secret).signature (sending.delivery libraries secret).timestamp
      secret currentTime tolerance = true
  rejected : ∀ (body : String) (timestamp : Option String) (key : String)
      (currentTime tolerance : Int),
    ¬ (body = (sending.delivery libraries secret).body ∧
      timestamp = (sending.delivery libraries secret).timestamp ∧ key = secret) →
    Python.verifyWebhookSignature libraries body (sending.delivery libraries secret).signature
      timestamp key currentTime tolerance = false

/-- The text that is signed is the text that is verified: the event is named `payload` and the
library writes its data as the signer does, or the event's name makes up for the difference. -/
def SignsWhatIsSent (event : WebhookEvent Py.Dict) (seconds : Nat) : Prop :=
  (event.id = "payload" ∧ Python.jsonDumps event.data = libraries.jsonBody event.data) ∨
  ∃ rest, event.id = "payload." ++ rest ∧
    rest ++ "." ++ toString seconds ++ "." ++ Python.jsonDumps event.data =
      toString seconds ++ "." ++ libraries.jsonBody event.data

end Sending

/-! ## Texts with a separator -/

section

variable {α : Type} {sep : α} {a b x y : List α}

theorem append_sep_cases (hb : sep ∉ b) (h : a ++ sep :: x = b ++ sep :: y) :
    (a = b ∧ x = y) ∨ ∃ rest, a = b ++ sep :: rest ∧ rest ++ sep :: x = y := by
  rcases List.append_eq_append_iff.mp h with ⟨gap, hgap, hx⟩ | ⟨gap, hgap, hy⟩
  · cases gap with
    | nil => exact .inl ⟨by simpa using hgap.symm, (List.cons.inj hx).2⟩
    | cons c gap =>
        have hc := (List.cons.inj hx).1
        exact absurd (by rw [hgap, hc]; simp) hb
  · cases gap with
    | nil => exact .inl ⟨by simpa using hgap, (List.cons.inj hy).2.symm⟩
    | cons c gap =>
        obtain ⟨rfl, rfl⟩ := List.cons.inj hy
        exact .inr ⟨gap, hgap, rfl⟩

end

/-! ## Signed and verified texts -/

theorem dot_notMem_toString (n : Nat) : '.' ∉ (toString n).toList := fun h =>
  absurd (isDigit_of_mem_toString h) (by decide)

section

variable {libraries : PythonLibraries}

theorem dot_notMem_of_int {s : String} {n : Int} (h : Py.int libraries.foreignDigit s = some n) :
    '.' ∉ s.toList := by
  intro hdot
  have hnone := @Py.int_eq_none libraries.foreignDigit s '.' hdot (by decide) (by decide) rfl
  exact absurd (hnone.symm.trans h) (fun h => nomatch h)

theorem int_toISOString (ms : Nat) : Py.int libraries.foreignDigit (toISOString ms) = none := by
  have hcolon : ':' ∈ (toISOString ms).toList := by
    unfold toISOString
    simp only [String.toList_append, List.mem_append]
    simp
  exact Py.int_eq_none hcolon (by decide) (by decide) rfl

end

section

variable {a b x y : String}

theorem toList_dotted (a x : String) : (a ++ "." ++ x).toList = a.toList ++ '.' :: x.toList := by
  simp only [String.toList_append, List.append_assoc]
  rfl

theorem dotted_cases (hb : '.' ∉ b.toList) (h : a ++ "." ++ x = b ++ "." ++ y) :
    (a = b ∧ x = y) ∨ ∃ rest, a = b ++ "." ++ rest ∧ rest ++ "." ++ x = y := by
  have hchars := congrArg String.toList h
  rw [toList_dotted, toList_dotted] at hchars
  rcases append_sep_cases hb hchars with ⟨hab, hxy⟩ | ⟨rest, ha, hy⟩
  · exact .inl ⟨String.toList_inj.mp hab, String.toList_inj.mp hxy⟩
  · refine .inr ⟨String.ofList rest, String.toList_inj.mp ?_, String.toList_inj.mp ?_⟩
    · rw [toList_dotted, String.toList_ofList, ha]
    · rw [toList_dotted, String.toList_ofList, hy]

theorem dotted_inj (ha : '.' ∉ a.toList) (hb : '.' ∉ b.toList) (h : a ++ "." ++ x = b ++ "." ++ y) :
    a = b ∧ x = y := by
  rcases dotted_cases hb h with heq | ⟨rest, rfl, -⟩
  · exact heq
  · rw [toList_dotted] at ha
    exact absurd (by simp) ha

theorem verified_eq (timestamp body : String) :
    "payload." ++ timestamp ++ "." ++ body = "payload" ++ "." ++ (timestamp ++ "." ++ body) := by
  simp only [← String.append_assoc]
  rfl

/-- When the text signed with an event's id is the text verified for a body. -/
theorem signed_eq_verified_iff {id timestamp data body : String} :
    id ++ "." ++ timestamp ++ "." ++ data = "payload." ++ timestamp ++ "." ++ body ↔
      (id = "payload" ∧ data = body) ∨
      ∃ rest, id = "payload." ++ rest ∧
        rest ++ "." ++ timestamp ++ "." ++ data = timestamp ++ "." ++ body := by
  have hshape : ∀ s : String, s ++ "." ++ timestamp ++ "." ++ data =
      s ++ "." ++ (timestamp ++ "." ++ data) := by
    intro s
    simp only [String.append_assoc]
  rw [verified_eq, hshape]
  constructor
  · intro h
    rcases dotted_cases (by decide) h with ⟨hid, hrest⟩ | ⟨rest, hid, hrest⟩
    · refine .inl ⟨hid, ?_⟩
      have hchars := congrArg String.toList hrest
      rw [toList_dotted, toList_dotted, List.append_right_inj] at hchars
      exact String.toList_inj.mp (List.cons.inj hchars).2
    · exact .inr ⟨rest, hid, (hshape rest).trans hrest⟩
  · rintro (⟨rfl, rfl⟩ | ⟨rest, rfl, hrest⟩)
    · rfl
    · rw [← hrest, hshape]
      simp only [← String.append_assoc]
      rfl

theorem verified_inj {t t' : String} (ht : '.' ∉ t.toList) (ht' : '.' ∉ t'.toList)
    (h : "payload." ++ t ++ "." ++ x = "payload." ++ t' ++ "." ++ y) : t = t' ∧ x = y := by
  rw [verified_eq, verified_eq] at h
  exact dotted_inj ht ht' (dotted_inj (by decide) (by decide) h).2

end

/-! ## When a delivery authenticates -/

section

variable {libraries : PythonLibraries} {secret : String}

/-- What the verifier asks for. -/
theorem verify_iff {payload signature timestamp key : String} {currentTime tolerance : Int} :
    Python.verifyWebhookSignature libraries payload (some signature) (some timestamp) key
        currentTime tolerance = true ↔
      ∃ ts, Py.int libraries.foreignDigit timestamp = some ts ∧ |currentTime - ts| ≤ tolerance ∧
        signature = libraries.hmacSha256 key ("payload." ++ timestamp ++ "." ++ payload) := by
  unfold Python.verifyWebhookSignature
  dsimp only
  cases hts : Py.int libraries.foreignDigit timestamp with
  | none => simp
  | some ts =>
      dsimp only
      by_cases hlate : |currentTime - ts| > tolerance
      · rw [if_pos hlate]
        refine iff_of_false Bool.false_ne_true ?_
        rintro ⟨_, ⟨⟩, hsoon, -⟩
        exact absurd hsoon (Int.not_le.mpr hlate)
      · rw [if_neg hlate, beq_iff_eq]
        constructor
        · exact fun h => ⟨ts, rfl, Int.not_lt.mp hlate, h⟩
        · exact fun ⟨_, _, _, h⟩ => h

theorem sendSingle_headers (hsecret : secret ≠ "") (event : WebhookEvent Py.Dict) (seconds : Nat) :
    (Python.sendSingle libraries secret event seconds).signature =
        some (libraries.hmacSha256 secret (event.id ++ "." ++ toString seconds ++ "." ++
          Python.jsonDumps event.data)) ∧
      (Python.sendSingle libraries secret event seconds).timestamp = some (toString seconds) := by
  unfold Python.sendSingle
  rw [if_neg hsecret]
  exact ⟨rfl, rfl⟩

/-- A signature of Python is verified for the texts that spell the signed one. -/
theorem python_verified_iff (hinj : Function.Injective2 libraries.hmacSha256)
    {event : WebhookEvent Py.Dict} {seconds : Nat} {body timestamp key : String}
    {currentTime tolerance : Int} :
    Python.verifyWebhookSignature libraries body
        (some (libraries.hmacSha256 secret (event.id ++ "." ++ toString seconds ++ "." ++
          Python.jsonDumps event.data))) (some timestamp) key currentTime tolerance = true ↔
      ∃ ts, Py.int libraries.foreignDigit timestamp = some ts ∧ |currentTime - ts| ≤ tolerance ∧
        secret = key ∧ event.id ++ "." ++ toString seconds ++ "." ++ Python.jsonDumps event.data =
          "payload." ++ timestamp ++ "." ++ body := by
  rw [verify_iff]
  refine exists_congr fun ts => and_congr_right fun _ => and_congr_right fun _ => ?_
  exact ⟨fun h => hinj h, fun ⟨hkey, htext⟩ => by rw [hkey, htext]⟩

theorem not_authenticates_typescript (event : WebhookEvent JsObject) (ms : Nat) :
    ¬ Sending.Authenticates libraries secret (.typescript event ms) := by
  rintro ⟨haccepted, -⟩
  have hverified := haccepted (ms / 1000 : Nat) 0 (by simp [Sending.seconds])
  obtain ⟨ts, hts, -⟩ := verify_iff.mp hverified
  exact absurd ((int_toISOString ms).symm.trans hts) (fun h => nomatch h)

theorem authenticates_python_iff (hinj : Function.Injective2 libraries.hmacSha256)
    (event : WebhookEvent Py.Dict) (seconds : Nat) :
    Sending.Authenticates libraries secret (.python event seconds) ↔
      secret ≠ "" ∧ Sending.SignsWhatIsSent libraries event seconds := by
  by_cases hsecret : secret = ""
  · subst hsecret
    constructor
    · rintro ⟨haccepted, -⟩
      have hverified := haccepted seconds 0 (by simp [Sending.seconds])
      cases hverified
    · exact fun h => absurd rfl h.1
  have hsignature : (Sending.delivery libraries secret (.python event seconds)).signature =
      some (libraries.hmacSha256 secret (event.id ++ "." ++ toString seconds ++ "." ++
        Python.jsonDumps event.data)) := (sendSingle_headers hsecret event seconds).1
  have htimestamp : (Sending.delivery libraries secret (.python event seconds)).timestamp =
      some (toString seconds) := (sendSingle_headers hsecret event seconds).2
  have hbody : (Sending.delivery libraries secret (.python event seconds)).body =
      libraries.jsonBody event.data := rfl
  have hsigns : event.id ++ "." ++ toString seconds ++ "." ++ Python.jsonDumps event.data =
      "payload." ++ toString seconds ++ "." ++ libraries.jsonBody event.data ↔
      Sending.SignsWhatIsSent libraries event seconds := signed_eq_verified_iff
  constructor
  · rintro ⟨haccepted, -⟩
    have hverified := haccepted seconds 0 (by simp [Sending.seconds])
    rw [hsignature, htimestamp, hbody, python_verified_iff hinj] at hverified
    obtain ⟨ts, -, -, -, htext⟩ := hverified
    exact ⟨hsecret, hsigns.mp htext⟩
  · rintro ⟨-, hsends⟩
    have htext := hsigns.mpr hsends
    constructor
    · intro currentTime tolerance hsoon
      rw [hsignature, htimestamp, hbody, python_verified_iff hinj]
      exact ⟨seconds, Py.int_toString seconds, hsoon, rfl, htext⟩
    · intro body timestamp key currentTime tolerance hother
      rw [hsignature, Bool.eq_false_iff]
      rw [htimestamp, hbody] at hother
      intro hverified
      cases timestamp with
      | none => cases hverified
      | some timestamp =>
          rw [python_verified_iff hinj] at hverified
          obtain ⟨ts, hts, -, hkey, htext'⟩ := hverified
          obtain ⟨htime, hbody'⟩ := verified_inj (dot_notMem_toString seconds)
            (dot_notMem_of_int hts) (htext.symm.trans htext')
          exact hother ⟨hbody'.symm, by rw [htime], hkey.symm⟩

/-- **A delivery authenticates** exactly where Python signs, with a secret, the text that is
verified. -/
theorem authenticates_iff (hinj : Function.Injective2 libraries.hmacSha256) (sending : Sending) :
    sending.Authenticates libraries secret ↔
      ∃ event seconds, sending = .python event seconds ∧ secret ≠ "" ∧
        Sending.SignsWhatIsSent libraries event seconds := by
  cases sending with
  | typescript event ms =>
      refine iff_of_false (not_authenticates_typescript event ms) ?_
      rintro ⟨event', seconds, hpython, -⟩
      cases hpython
  | python event seconds =>
      rw [authenticates_python_iff hinj]
      constructor
      · exact fun h => ⟨event, seconds, rfl, h⟩
      · rintro ⟨_, _, ⟨⟩, h⟩
        exact h

end

/-! ## Two deliveries -/

/-- A digest from which the key and the text can be read back. -/
def sampleDigest (key text : String) : String := quote key ++ text

theorem sampleDigest_injective : Function.Injective2 sampleDigest := by
  intro key key' text text' h
  have hchars := congrArg String.toList h
  have hquote : ∀ key text : String, (sampleDigest key text).toList =
      '"' :: (key.toList.flatMap escapeChar ++ '"' :: text.toList) := by
    intro key text
    simp [sampleDigest, quote]
  rw [hquote, hquote] at hchars
  have hread := congrArg parseUnits (List.cons.inj hchars).2
  have hread' : ∀ key text : String, parseUnits (key.toList.flatMap escapeChar ++
      '"' :: text.toList) = some (key.toList.flatMap unitsOf, text.toList) := fun key text =>
    Encoder.javascript.parseUnits_escape key.toList text.toList
  rw [hread', hread'] at hread
  obtain ⟨hkey, htext⟩ := Prod.mk.inj (Option.some.inj hread)
  exact ⟨eq_of_units hkey, String.toList_inj.mp htext⟩

/-- A library that writes no spaces. -/
def sampleLibraries : PythonLibraries where
  hmacSha256 := sampleDigest
  jsonBody data := Py.dumps (.dict data)
  foreignDigit _ := none

theorem payload_authenticates :
    Sending.Authenticates sampleLibraries "secret"
      (.python ⟨"payload", .taskCompleted, "2024-02-29T00:00:00.000Z", [("ok", .bool true)], none⟩
        1709164800) :=
  (authenticates_iff sampleDigest_injective _).mpr ⟨_, _, rfl, by decide, .inl ⟨rfl, rfl⟩⟩

/-- An event with a name of its own is not verified, whoever sends it. -/
theorem webhook_not_verified :
    (∀ libraries : PythonLibraries, Function.Injective2 libraries.hmacSha256 →
      ¬ Sending.Authenticates libraries "secret"
        (.python ⟨"wh_1", .taskCompleted, "2024-02-29T00:00:00.000Z", [("ok", .bool true)], none⟩
          1709164800)) ∧
    ∀ libraries : PythonLibraries, ¬ Sending.Authenticates libraries "secret"
      (.typescript ⟨"payload", .taskCompleted, "2024-02-29T00:00:00.000Z", [("ok", .bool true)],
        none⟩ 1709164800000) := by
  refine ⟨fun libraries hinj h => ?_, fun libraries => not_authenticates_typescript _ _⟩
  rcases ((authenticates_python_iff hinj _ _).mp h).2 with ⟨hid, -⟩ | ⟨rest, hid, -⟩
  · exact absurd hid (by decide)
  · have hhead := congrArg (fun s : String => s.toList.head?) hid
    simp only [String.toList_append] at hhead
    exact absurd hhead (by simp)

end MapProtocol.Sdk
