import MapProtocol.ControlPlane.Orchestrator
import MapProtocol.Py.JsonSchema

/-!
# The Python SDK's schemas

`validate_execution_receipt` and `validate_result_package` check an answer of the server against a
schema, or for the fields that it requires where the `jsonschema` package is not installed. Both ask
a receipt for a field `action_taken`, which no receipt has; the schema of results knows neither the
negotiation nor the context of a result.
-/

namespace MapProtocol.Sdk.Python

open Js Py

/-! ## Schemas -/

def text : Schema := { type := .string }

def nonEmptyText : Schema := { type := .string, minLength := 1 }

def texts : Schema := { type := .array, items := some text }

def receiptFields : List String :=
  ["receipt_id", "task_id", "agent_id", "action_taken", "resource_touched", "policy_checks",
    "timestamp", "result_hash", "signature"]

/-- `_load_schema("execution-receipt")`. -/
def executionReceiptSchema : Schema where
  type                 := .object
  additionalProperties := false
  required             := receiptFields
  properties           :=
    [("receipt_id", nonEmptyText), ("task_id", nonEmptyText), ("tenant_id", nonEmptyText),
      ("request_id", nonEmptyText), ("agent_id", nonEmptyText), ("action_taken", nonEmptyText),
      ("resource_touched", nonEmptyText), ("policy_checks", texts), ("approval_used", text),
      ("timestamp", text), ("result_hash", nonEmptyText), ("requested_schema_version", text),
      ("executed_schema_version", text), ("signature", nonEmptyText)]

def resultFields : List String := ["task_id", "status", "structured_output", "followup_required"]

def statuses : List String :=
  ["accepted", "proposed", "awaiting_approval", "denied", "running", "completed", "failed",
    "revoked"]

def resultProperties : List (String × Schema) :=
  [("task_id", nonEmptyText), ("status", { type := .string, enum := some statuses }),
    ("summary", text), ("structured_output", { type := .object }), ("receipt_ref", text),
    ("negotiated_schema_version", text), ("requested_schema_version", text),
    ("executed_schema_version", text), ("redactions_applied", texts),
    ("followup_required", { type := .boolean }), ("escalation_reason", text)]

/-- `_load_schema("result-package")`. -/
def resultPackageSchema : Schema where
  type                 := .object
  additionalProperties := false
  required             := resultFields
  properties           := resultProperties

/-! ## Validators -/

structure ValidationErrorDetail where
  field   : String
  message : String
  code    : String
  /-- The `schema_path` of the error's context. -/
  context : Option String := none
  deriving DecidableEq

/-- What the `jsonschema` package says of a value that is not valid: the path to the part at fault,
of property names and indices, the path as a text, and a message. -/
structure SchemaError where
  absolutePath : List (String ⊕ Nat)
  pathText     : String
  message      : String

/-- The package, where it is installed. -/
abbrev SchemaPackage := Option (Schema → JsValue → SchemaError)

/-- `str(error) if error else "root"`. -/
def fieldOfPath : String ⊕ Nat → String
  | .inl name => if name = "" then "root" else name
  | .inr i    => if i = 0 then "root" else toString i

def parseJsonSchemaErrors (exc : SchemaError) (codeStart : String) : List ValidationErrorDetail :=
  let code := codeStart ++ "_validation_failed"
  match exc.absolutePath with
  | []   => [{ field := "root", message := exc.message, code }]
  | path => path.map fun part =>
      { field := fieldOfPath part, message := exc.message, code, context := some exc.pathText }

/-- The checks without the package: an object, with its fields. -/
def validateBasic (title codeStart : String) (requiredFields : List String) (input : JsValue) :
    Except (List ValidationErrorDetail) Unit :=
  let code := codeStart ++ "_validation_failed"
  match input with
  | .obj members =>
      let errors := (requiredFields.filter fun name =>
          !(OrderedMap.getEntries name members).isSome).map fun name =>
        ({ field := name, message := "Missing required field: " ++ name, code } :
          ValidationErrorDetail)
      if errors.isEmpty then .ok () else .error errors
  | _ => .error [{ field := "root", message := title ++ " must be an object", code }]

/-- A validator, with its schema and its fallback's texts. -/
def validateWith (schema : Schema) (title codeStart : String) (requiredFields : List String)
    (package : SchemaPackage) (input : JsValue) : Except (List ValidationErrorDetail) Unit :=
  match package with
  | none        => validateBasic title codeStart requiredFields input
  | some errorOf =>
      if schema.valid input then .ok ()
      else .error (parseJsonSchemaErrors (errorOf schema input) codeStart)

def validateExecutionReceipt : SchemaPackage → JsValue → Except (List ValidationErrorDetail) Unit :=
  validateWith executionReceiptSchema "Execution receipt" "execution_receipt" receiptFields

def validateResultPackage : SchemaPackage → JsValue → Except (List ValidationErrorDetail) Unit :=
  validateWith resultPackageSchema "Result package" "result_package" resultFields

theorem validateBasic_eq_ok_iff (title codeStart : String) (requiredFields : List String)
    (members : List (String × JsValue)) :
    validateBasic title codeStart requiredFields (.obj members) = .ok () ↔
      ∀ name ∈ requiredFields, (OrderedMap.getEntries name members).isSome = true := by
  unfold validateBasic
  simp [Option.isSome_iff_ne_none]

theorem validateWith_eq_ok_iff {schema : Schema} {title codeStart : String}
    {requiredFields : List String} {package : SchemaPackage} {members : List (String × JsValue)} :
    validateWith schema title codeStart requiredFields package (.obj members) = .ok () ↔
      match package with
      | none   => ∀ name ∈ requiredFields, (OrderedMap.getEntries name members).isSome = true
      | some _ => schema.valid (.obj members) = true := by
  cases package with
  | none => exact validateBasic_eq_ok_iff title codeStart requiredFields members
  | some errorOf =>
      unfold validateWith
      dsimp only
      split <;> simp_all

/-! ## Receipts -/

theorem nodup_receipt (r : ExecutionReceipt) : (r.toJs.map Prod.fst).Nodup := by
  have hkeys : r.toJs.map Prod.fst = ["receipt_id", "intent_id", "capability", "action",
    "timestamp", "status", "task_id", "tenant_id", "request_id", "agent_id", "resource_touched",
    "policy_checks", "approval_used", "result_hash", "requested_schema_version",
    "executed_schema_version", "negotiation", "signature"] := rfl
  rw [hkeys]
  decide

theorem action_taken_missing (r : ExecutionReceipt) :
    OrderedMap.getEntries "action_taken" (jsonCopyMembers r.toJs) = none := by
  rw [getEntries_jsonCopyMembers _ (nodup_receipt r)]
  rfl

theorem receipt_refused (package : SchemaPackage) (r : ExecutionReceipt) :
    validateExecutionReceipt package (.obj (jsonCopyMembers r.toJs)) ≠ .ok () := by
  intro hok
  have hmissing := action_taken_missing r
  have hchecked := validateWith_eq_ok_iff.mp hok
  cases package with
  | none =>
      have hpresent := hchecked "action_taken" (by decide)
      rw [hmissing] at hpresent
      cases hpresent
  | some errorOf =>
      have hrequired := ((valid_closed_iff (nodup_receipt r) _ _).mp hchecked).1
      have hpresent := hrequired "action_taken" (by decide)
      rw [← getEntries_jsonCopyMembers _ (nodup_receipt r), hmissing] at hpresent
      cases hpresent

/-! ## Results -/

theorem nodup_result (r : ResultPackage) : (r.toJs.map Prod.fst).Nodup := by
  have hkeys : r.toJs.map Prod.fst = ["task_id", "context_id", "status", "summary",
    "structured_output", "negotiated_schema_version", "requested_schema_version",
    "executed_schema_version", "negotiation", "redactions_applied", "followup_required",
    "escalation_reason", "extensions"] := rfl
  rw [hkeys]
  decide

theorem text_valid {t : Option String} {v : JsValue} (h : jsonCopy? (.ofString? t) = some v) :
    text.valid v = true := by
  cases t with
  | none => cases h
  | some s =>
      cases h
      simp [text, Schema.valid]

theorem texts_valid {ts : Option (List String)} {v : JsValue}
    (h : jsonCopy? (stringsToJs ts) = some v) : texts.valid v = true := by
  cases ts with
  | none => cases h
  | some ss =>
      cases h
      have helements : ∀ ss : List String,
          (jsonCopyElements (ss.map .str)).all (fun x => text.valid x) = true := by
        intro ss
        induction ss with
        | nil => rfl
        | cons s ss ih =>
            have hs := @text_valid (some s) (.str s) rfl
            simp [jsonCopyElements, jsonCopy?, hs, ih]
      exact helements ss

theorem nonEmptyText_valid_iff (s : String) : nonEmptyText.valid (.str s) = true ↔ s ≠ "" := by
  have hlength : 1 ≤ s.length ↔ s ≠ "" := by
    rw [Nat.one_le_iff_ne_zero, ne_eq, ne_eq, ← String.length_toList, List.length_eq_zero_iff,
      String.toList_eq_nil_iff]
  simp [nonEmptyText, Schema.valid, hlength]

theorem status_valid (status : TaskStatus) :
    Schema.valid { type := .string, enum := some statuses } (.str status.text) = true := by
  cases status <;> decide

/-- **What the schema of results says of a result.** -/
theorem result_valid_iff (r : ResultPackage) :
    resultPackageSchema.valid (.obj (jsonCopyMembers r.toJs)) = true ↔
      r.taskId ≠ "" ∧ r.contextId = none ∧ r.negotiation = none ∧ r.extensions = none := by
  refine (valid_closed_iff (nodup_result r) resultFields resultProperties).trans ?_
  constructor
  · rintro ⟨-, hnames, hvalues⟩
    -- a member that the schema does not know is refused, unless JSON drops it
    have hunknown : ∀ name v, (name, v) ∈ r.toJs → name ∉ resultProperties.map Prod.fst →
        jsonCopy? v = none :=
      fun name v hmem hname => (hnames _ hmem).resolve_right hname
    refine ⟨?_, ?_, ?_, ?_⟩
    · exact (nonEmptyText_valid_iff _).mp
        (hvalues ("task_id", nonEmptyText) (by simp [resultProperties]) (.str r.taskId) rfl)
    · have hcontext := hunknown "context_id" (.ofString? r.contextId)
        (by simp [ResultPackage.toJs]) (by decide)
      cases hc : r.contextId with
      | none => rfl
      | some c => simp [hc, JsValue.ofString?, jsonCopy?] at hcontext
    · have hnegotiation := hunknown "negotiation" (negotiationToJs r.negotiation)
        (by simp [ResultPackage.toJs]) (by decide)
      cases hn : r.negotiation with
      | none => rfl
      | some n => simp [hn, negotiationToJs, jsonCopy?] at hnegotiation
    · have hextensions := hunknown "extensions" (stringsToJs r.extensions)
        (by simp [ResultPackage.toJs]) (by decide)
      cases he : r.extensions with
      | none => rfl
      | some e => simp [he, stringsToJs, jsonCopy?] at hextensions
  · rintro ⟨htask, hcontext, hnegotiation, hextensions⟩
    refine ⟨?_, ?_, ?_⟩
    · intro name hname
      simp only [resultFields, List.mem_cons, List.not_mem_nil, or_false] at hname
      rcases hname with rfl | rfl | rfl | rfl <;> rfl
    · intro e he
      simp only [ResultPackage.toJs, List.mem_cons, List.not_mem_nil, or_false] at he
      rcases he with rfl | rfl | rfl | rfl | rfl | rfl | rfl | rfl | rfl | rfl | rfl | rfl | rfl
      case inr.inl => exact .inl (by rw [hcontext]; rfl)
      case inr.inr.inr.inr.inr.inr.inr.inr.inl => exact .inl (by rw [hnegotiation]; rfl)
      case inr.inr.inr.inr.inr.inr.inr.inr.inr.inr.inr.inr => exact .inl (by rw [hextensions]; rfl)
      all_goals exact .inr (by simp [resultProperties])
    · intro p hp v hv
      simp only [resultProperties, List.mem_cons, List.not_mem_nil, or_false] at hp
      rcases hp with rfl | rfl | rfl | rfl | rfl | rfl | rfl | rfl | rfl | rfl | rfl
      · cases hv
        exact (nonEmptyText_valid_iff _).mpr htask
      · cases hv
        exact status_valid r.status
      · exact text_valid hv
      · cases hv
        simp [Schema.valid, Schema.validProperties]
      · cases hv
      · exact text_valid hv
      · exact text_valid hv
      · exact text_valid hv
      · exact texts_valid hv
      · cases hv
        simp [Schema.valid]
      · exact text_valid hv

theorem result_fields (r : ResultPackage) :
    ∀ name ∈ resultFields, (OrderedMap.getEntries name (jsonCopyMembers r.toJs)).isSome = true := by
  intro name hname
  rw [getEntries_jsonCopyMembers _ (nodup_result r)]
  simp only [resultFields, List.mem_cons, List.not_mem_nil, or_false] at hname
  rcases hname with rfl | rfl | rfl | rfl <;> rfl

/-! ## Answers -/

/-- Neither validator raises an error on the answer, after the JSON round trip. -/
def Described (package : SchemaPackage) (out : InvokeResult) : Prop :=
  validateExecutionReceipt package (.obj (jsonCopyMembers out.receipt.toJs)) = .ok () ∧
    validateResultPackage package (.obj (jsonCopyMembers out.result.toJs)) = .ok ()

theorem result_ok_iff (package : SchemaPackage) (r : ResultPackage) :
    validateResultPackage package (.obj (jsonCopyMembers r.toJs)) = .ok () ↔
      package = none ∨
        r.taskId ≠ "" ∧ r.contextId = none ∧ r.negotiation = none ∧ r.extensions = none := by
  refine validateWith_eq_ok_iff.trans ?_
  cases package with
  | none => exact ⟨fun _ => .inl rfl, fun _ => result_fields r⟩
  | some errorOf =>
      refine (result_valid_iff r).trans ⟨.inr, ?_⟩
      rintro (hnone | h)
      · cases hnone
      · exact h

/-- **The schemas describe no answer**, for they describe no receipt. A result by itself passes
without the package, and with it exactly if it has neither a context nor a negotiation nor
extensions. -/
theorem answer_never_described (package : SchemaPackage) (out : InvokeResult) :
    ¬Described package out ∧
      (validateResultPackage package (.obj (jsonCopyMembers out.result.toJs)) = .ok () ↔
        package = none ∨ out.result.taskId ≠ "" ∧ out.result.contextId = none ∧
          out.result.negotiation = none ∧ out.result.extensions = none) :=
  ⟨fun h => receipt_refused package out.receipt h.1, result_ok_iff package out.result⟩

theorem cancelled_accepted (package : SchemaPackage) (record : TaskRecord) {taskId : String}
    (h : taskId ≠ "") :
    validateResultPackage package
      (.obj (jsonCopyMembers (Orchestrator.cancelResult record taskId).toJs)) = .ok () :=
  (result_ok_iff _ _).mpr (.inr ⟨h, rfl, rfl, rfl⟩)

def cancelledReceipt : ExecutionReceipt where
  toUnsignedReceipt := Orchestrator.cancelReceipt 0 "t" "pay" "agent"
    { type := .user, id := "u", tenantId := none } none
  signature := "signature"

theorem cancelled_undescribed :
    validateExecutionReceipt none (.obj (jsonCopyMembers cancelledReceipt.toJs)) =
        .error [{ field := "action_taken", message := "Missing required field: action_taken",
                  code := "execution_receipt_validation_failed" }] ∧
      ∀ record errorOf package,
        executionReceiptSchema.valid (.obj (jsonCopyMembers cancelledReceipt.toJs)) = false ∧
          validateResultPackage (some errorOf)
            (.obj (jsonCopyMembers (Orchestrator.cancelResult record "t").toJs)) = .ok () ∧
          ¬Described package ⟨Orchestrator.cancelResult record "t", cancelledReceipt⟩ := by
  refine ⟨by rfl, fun record errorOf package => ⟨by rfl, ?_, ?_⟩⟩
  · exact cancelled_accepted (some errorOf) record (by decide)
  · exact fun h => receipt_refused package cancelledReceipt h.1

end MapProtocol.Sdk.Python
