import MapProtocol.Js.PropertyList
import MapProtocol.Security.Verification
import MapProtocol.Server.ApprovalNotifier
import Mathlib.Data.Nat.Bitwise

/-!
# Signatures of approval requests

`sign` writes the payload with `JSON.stringify` and the list of its own member names, which selects
the members of nested objects too. What is signed of the requester and of the input is therefore what
stands under names that are names of the payload (`verify_sign_iff`). A requester's `id` and
`tenant_id` are not.
-/

namespace MapProtocol

open Js

/-- `Omit<ApprovalNotification, "signature">`. The outer `none` of `riskClass` is a payload without
such a member, the inner one an `undefined` member. -/
structure ApprovalPayload where
  approvalId : String
  taskId : String
  capability : String
  targetAgent : String
  reason : String
  requester : JsObject
  riskClass : Option (Option String)
  inputSummary : JsObject
  requestedAt : String
  approveUrl : String
  approvalReference : String

namespace ApprovalPayload

def riskMember : Option (Option String) → JsObject
  | none      => []
  | some risk => [("risk_class", JsValue.ofString? risk)]

def toJs (p : ApprovalPayload) : JsObject :=
  [("approval_id", .str p.approvalId), ("task_id", .str p.taskId), ("capability", .str p.capability),
    ("target_agent", .str p.targetAgent), ("reason", .str p.reason), ("requester", .obj p.requester)] ++
  riskMember p.riskClass ++
  [("input_summary", .obj p.inputSummary), ("requested_at", .str p.requestedAt),
    ("approve_url", .str p.approveUrl), ("approval_reference", .str p.approvalReference)]

/-- `Object.keys(payload).sort()`. -/
def names (p : ApprovalPayload) : List String := p.toJs.keys.insertionSort codeUnitOrder

/-- The requester and the input are JSON. -/
def WellFormed (p : ApprovalPayload) : Prop := IsJson (.obj p.requester) ∧ IsJson (.obj p.inputSummary)

end ApprovalPayload

/-- The parameters of `notify` that go into the payload. -/
structure NotifyParams where
  taskId : String
  capability : String
  targetAgent : String
  reason : String
  requester : JsObject
  riskClass : Option String
  inputSummary : JsObject
  approvalReference : String

/-- `hmac secret text` is `createHmac("sha256", secret).update(text).digest("hex")`. -/
structure ApprovalNotifier where
  serverBaseUrl : String
  signingSecret : String
  hmac : String → String → String

/-- The comparison at the end of `verify`. -/
def constantTimeEquals (expected signature : String) : Bool :=
  if (codeUnits expected).length ≠ (codeUnits signature).length then false
  else
    let units := (codeUnits expected).zip (codeUnits signature)
    units.foldl (fun diff u => diff ||| (u.1 ^^^ u.2)) 0 = 0

namespace ApprovalNotifier

/-- The payload that `notify` signs; the clock is read twice. -/
def payloadWithoutSig (notifier : ApprovalNotifier) (params : NotifyParams) (now requestedAt : Nat) :
    ApprovalPayload where
  approvalId := "approval:" ++ params.taskId ++ ":" ++ toString now
  taskId := params.taskId
  capability := params.capability
  targetAgent := params.targetAgent
  reason := params.reason
  requester := params.requester
  riskClass := some params.riskClass
  inputSummary := redactMembers [] params.inputSummary
  requestedAt := toISOString requestedAt
  approveUrl := notifier.serverBaseUrl ++ "/approve"
  approvalReference := params.approvalReference

/-- What `sign` hashes. -/
def canonical (p : ApprovalPayload) : String := (stringifyListed p.names (.obj p.toJs)).getD "undefined"

def sign (notifier : ApprovalNotifier) (p : ApprovalPayload) : String :=
  notifier.hmac notifier.signingSecret (canonical p)

def verify (notifier : ApprovalNotifier) (payload : ApprovalPayload) (signature : String) : Bool :=
  constantTimeEquals (notifier.sign payload) signature

end ApprovalNotifier

/-! ## Comparing signatures -/

theorem foldl_diff_eq_zero (us : List (Nat × Nat)) (diff : Nat) :
    us.foldl (fun diff u => diff ||| (u.1 ^^^ u.2)) diff = 0 ↔ diff = 0 ∧ ∀ u ∈ us, u.1 = u.2 := by
  induction us generalizing diff with
  | nil => simp
  | cons u us ih => simp [ih, Nat.or_eq_zero_iff, and_assoc]

theorem constantTimeEquals_iff {a b : String} : constantTimeEquals a b = true ↔ a = b := by
  unfold constantTimeEquals
  constructor
  · intro h
    split at h
    · cases h
    · rename_i hlength
      have hlength : (codeUnits a).length = (codeUnits b).length := by simpa using hlength
      obtain ⟨-, hunits⟩ := (foldl_diff_eq_zero _ 0).mp (of_decide_eq_true h)
      have heq : codeUnits a = codeUnits b := by
        refine List.ext_getElem hlength fun i hi hi' => ?_
        exact hunits (_, _) (List.mem_iff_getElem.mpr ⟨i, by simp [hi, hi'], List.getElem_zip⟩)
      exact eq_of_units heq
  · rintro rfl
    rw [if_neg (by simp), decide_eq_true_eq, foldl_diff_eq_zero]
    refine ⟨rfl, fun u hu => ?_⟩
    obtain ⟨i, hi, rfl⟩ := List.mem_iff_getElem.mp hu
    rw [List.getElem_zip]

/-! ## What a signature covers -/

namespace ApprovalPayload

theorem names_eq (p : ApprovalPayload) : p.names =
    ["approval_id", "approval_reference", "approve_url", "capability", "input_summary", "reason",
      "requested_at", "requester"] ++ (if p.riskClass.isSome then ["risk_class"] else []) ++
    ["target_agent", "task_id"] := by
  unfold names
  cases hrisk : p.riskClass with
  | none =>
      simp only [toJs, hrisk, riskMember, JsObject.keys]
      show List.insertionSort codeUnitOrder ["approval_id", "task_id", "capability", "target_agent",
        "reason", "requester", "input_summary", "requested_at", "approve_url",
        "approval_reference"] = _
      decide +kernel
  | some risk =>
      simp only [toJs, hrisk, riskMember, JsObject.keys, Option.isSome_some, if_true]
      show List.insertionSort codeUnitOrder ["approval_id", "task_id", "capability", "target_agent",
        "reason", "requester", "risk_class", "input_summary", "requested_at", "approve_url",
        "approval_reference"] = _
      decide +kernel

theorem names_ordered (p : ApprovalPayload) : p.names.Pairwise codeUnitOrder := by
  rw [names_eq]
  cases p.riskClass.isSome <;> decide +kernel

theorem names_nodup (p : ApprovalPayload) : p.names.Nodup := by
  rw [names_eq]
  cases p.riskClass.isSome <;> decide

theorem isRecord_toJs {p : ApprovalPayload} (h : p.WellFormed) : IsRecord p.toJs := by
  refine ⟨?_, ?_⟩
  · have hnames := p.names_nodup
    unfold names at hnames
    exact (List.perm_insertionSort codeUnitOrder p.toJs.keys).nodup_iff.mp hnames
  · intro e he
    unfold toJs at he
    rcases List.mem_append.mp he with he | he
    · rcases List.mem_append.mp he with he | he
      · simp only [List.mem_cons, List.not_mem_nil, or_false] at he
        rcases he with rfl | rfl | rfl | rfl | rfl | rfl
        all_goals first | exact .inr trivial | exact .inr h.1
      · cases hrisk : p.riskClass with
        | none => simp [riskMember, hrisk] at he
        | some risk =>
            obtain rfl : e = ("risk_class", JsValue.ofString? risk) := by
              simpa [riskMember, hrisk] using he
            cases risk with
            | none => exact .inl rfl
            | some s => exact .inr trivial
    · simp only [List.mem_cons, List.not_mem_nil, or_false] at he
      rcases he with rfl | rfl | rfl | rfl
      all_goals first | exact .inr trivial | exact .inr h.2

/-- The payloads are equal as JSON values. -/
def Same (p q : ApprovalPayload) : Prop := SameJson (.obj p.toJs) (.obj q.toJs)

def covers (p : ApprovalPayload) (place : Place) : Bool := covered p.names place

def coveredAt (p : ApprovalPayload) (place : Place) : Option Shape :=
  coveredShape p.names (.obj p.toJs) place

end ApprovalPayload

namespace ApprovalNotifier

variable {notifier : ApprovalNotifier} {p q : ApprovalPayload}

/-- A signature is of one text. -/
def Injective (notifier : ApprovalNotifier) : Prop :=
  Function.Injective (notifier.hmac notifier.signingSecret)

theorem canonical_eq_iff (hp : p.WellFormed) (hq : q.WellFormed) :
    canonical p = canonical q ↔ ∀ place, p.coveredAt place = q.coveredAt place := by
  unfold ApprovalPayload.coveredAt
  rw [← stringifyListed_eq_iff codeUnitOrder_antisymm p.names_nodup q.names_nodup p.names_ordered
    q.names_ordered (ApprovalPayload.isRecord_toJs hp) (ApprovalPayload.isRecord_toJs hq)]
  constructor
  · exact fun h => congrArg some h
  · exact fun h => Option.some.inj h

/-- **A signature is accepted for the payloads that agree with the signed one where it covers them.** -/
theorem verify_sign_iff (hmac : notifier.Injective) (hp : p.WellFormed) (hq : q.WellFormed) :
    notifier.verify q (notifier.sign p) = true ↔ ∀ place, p.coveredAt place = q.coveredAt place := by
  rw [verify, constantTimeEquals_iff, ← canonical_eq_iff hp hq, sign, sign, hmac.eq_iff, eq_comm]

theorem coveredAt_eq_iff_of_same (h : p.Same q) : (∀ place, p.coveredAt place = q.coveredAt place) ↔
    ∀ place, (shapeAt (.obj p.toJs) place).isSome = true → p.covers place = q.covers place := by
  refine forall_congr' fun place => ?_
  unfold ApprovalPayload.coveredAt ApprovalPayload.covers coveredShape
  rw [h place]
  cases shapeAt (.obj q.toJs) place with
  | none => simp
  | some shape => cases covered p.names place <;> cases covered q.names place <;> simp

/-- **When a signature stands for the whole payload**: where the payloads are equal, if the signature
covers the same places of both; where they are not, if they differ at a place that is covered. -/
theorem signature_exact_iff (notifier : ApprovalNotifier) (p q : ApprovalPayload)
    (hmac : notifier.Injective) (hp : p.WellFormed) (hq : q.WellFormed) :
    (notifier.verify q (notifier.sign p) = true ↔ p.Same q) ↔
      (p.Same q → ∀ place, (shapeAt (.obj p.toJs) place).isSome = true →
        p.covers place = q.covers place) ∧
      (¬ p.Same q → ∃ place, p.coveredAt place ≠ q.coveredAt place) := by
  rw [verify_sign_iff hmac hp hq]
  by_cases hsame : p.Same q
  · rw [← coveredAt_eq_iff_of_same hsame]
    simp [hsame]
  · simp [hsame]

end ApprovalNotifier

/-! ## What `notify` signs -/

theorem isJson_redactMembers {es : List (String × JsValue)} (h : (es.map Prod.fst).Nodup)
    (hes : ∀ e ∈ es, IsJson (redactValue e.2)) : IsJson (.obj (redactMembers [] es)) := by
  have hnodup : ((redactedMembers es).map Prod.fst).Nodup := by
    rw [keys_redactedMembers]
    exact (List.filter_sublist.map Prod.fst).nodup h
  have hvalues : HaveJson (redactedMembers es) := by
    refine haveJson_iff.mpr fun e he => ?_
    obtain ⟨e, hkept, rfl⟩ := List.mem_map.mp he
    have hvalue := hes e (List.mem_of_mem_filter hkept)
    unfold redactedMember
    dsimp only
    -- whatever the name is
    generalize isSensitive e.1 = sensitive
    cases sensitive with
    | true  => trivial
    | false => exact hvalue
  rw [redactMembers_nil h]
  exact ⟨hnodup, hvalues⟩

mutual

theorem isJson_redactValue : ∀ v, IsJson v → IsJson (redactValue v)
  | .undefined, h   => absurd h id
  | .inherited _, h => absurd h id
  | .null, h        => by rwa [redactValue]; simp
  | .bool _, h      => by rwa [redactValue]; simp
  | .num _, h       => by rwa [redactValue]; simp
  | .str _, h       => by rwa [redactValue]; simp
  | .arr _, h       => by rwa [redactValue]; simp
  | .obj es, h      => by
      rw [redactValue]
      exact isJson_redactMembers h.1 (isJson_redactMemberValues es h.2)

theorem isJson_redactMemberValues : ∀ es, HaveJson es → ∀ e ∈ es, IsJson (redactValue e.2)
  | [], _, _, he           => by cases he
  | (_, v) :: es, h, e, he => by
      rcases List.mem_cons.mp he with heq | he
      · rw [heq]
        exact isJson_redactValue v h.1
      · exact isJson_redactMemberValues es h.2 e he

end

theorem ApprovalNotifier.payloadWithoutSig_wellFormed (notifier : ApprovalNotifier)
    {params : NotifyParams} (hrequester : IsJson (.obj params.requester))
    (hinput : IsJson (.obj params.inputSummary)) (now requestedAt : Nat) :
    (notifier.payloadWithoutSig params now requestedAt).WellFormed := by
  have hredacted := isJson_redactValue _ hinput
  rw [redactValue] at hredacted
  exact ⟨hrequester, hredacted⟩

/-! ## Two requesters -/

def sampleNotifier : ApprovalNotifier where
  serverBaseUrl := "http://localhost:8787"
  signingSecret := "s0"
  hmac secret text := secret ++ text

def sampleApproval (capability requesterId : String) : ApprovalPayload :=
  sampleNotifier.payloadWithoutSig
    { taskId := "t1", capability := capability, targetAgent := "a1", reason := "policy"
      requester := [("type", .str "user"), ("id", .str requesterId)], riskClass := none
      inputSummary := [("currency", .str "EUR")], approvalReference := "ref" } 0 0

theorem sampleNotifier_injective : sampleNotifier.Injective := fun _ _ h => by
  have htexts := congrArg String.toList h
  simp only [sampleNotifier, String.toList_append] at htexts
  exact String.toList_inj.mp (List.append_cancel_left htexts)

theorem sampleApproval_wellFormed (capability requesterId : String) :
    (sampleApproval capability requesterId).WellFormed :=
  sampleNotifier.payloadWithoutSig_wellFormed (by simp [IsJson, HaveJson])
    (by simp [IsJson, HaveJson]) 0 0

/-- Another capability is noticed. -/
theorem ApprovalNotifier.capability_signed :
    sampleNotifier.verify (sampleApproval "drop" "alice")
        (sampleNotifier.sign (sampleApproval "read" "alice")) = true ↔
      (sampleApproval "read" "alice").Same (sampleApproval "drop" "alice") := by
  have hexact := ApprovalNotifier.signature_exact_iff sampleNotifier (sampleApproval "read" "alice")
    (sampleApproval "drop" "alice") sampleNotifier_injective (sampleApproval_wellFormed "read" "alice")
    (sampleApproval_wellFormed "drop" "alice")
  have hdiffer : (sampleApproval "read" "alice").coveredAt [.member "capability"] ≠
      (sampleApproval "drop" "alice").coveredAt [.member "capability"] := by decide +kernel
  have hunequal : ¬ (sampleApproval "read" "alice").Same (sampleApproval "drop" "alice") := by
    intro hsame
    exact absurd (hsame [.member "capability"]) (by decide +kernel)
  apply hexact.mpr
  constructor
  · intro hsame
    exact absurd hsame hunequal
  · intro _
    exact Exists.intro [.member "capability"] hdiffer

/-- The signature for one requester is accepted for another. -/
theorem ApprovalNotifier.requester_unsigned :
    ¬ (sampleNotifier.verify (sampleApproval "read" "mallory")
        (sampleNotifier.sign (sampleApproval "read" "alice")) = true ↔
      (sampleApproval "read" "alice").Same (sampleApproval "read" "mallory")) := by
  have haccepted : sampleNotifier.verify (sampleApproval "read" "mallory")
      (sampleNotifier.sign (sampleApproval "read" "alice")) = true := by
    rw [ApprovalNotifier.verify, constantTimeEquals_iff]
    decide +kernel
  intro h
  have hshape := h.mp haccepted [.member "requester", .member "id"]
  exact absurd hshape (by decide +kernel)

end MapProtocol
