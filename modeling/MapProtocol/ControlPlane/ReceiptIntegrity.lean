import MapProtocol.Security.Wire

/-!
# The integrity check of the receipt store

`verifyReceiptIntegrity` goes through the receipts in order and collects errors: fields that are
missing, and timestamps that go back. Its docstring has it check signatures; what it checks is that
there is one (`verifyReceiptIntegrity_valid`).
-/

namespace MapProtocol

open Js Wire

/-- The receipts by id, and the order of the ids. -/
structure ReceiptContent where
  receipts : OrderedMap String Record
  order    : List String

def ReceiptContent.list (content : ReceiptContent) : List Record :=
  content.order.filterMap content.receipts.get

structure ReceiptReport where
  valid  : Bool
  total  : Nat
  errors : List String

/-- `${v}`, of a field. -/
def fieldText (receipt : Record) (key : String) : String := toText (field receipt key)

/-- `a < b` of two dates, of which an invalid one has no time. -/
def dateBefore : Option Int → Option Int → Bool
  | some a, some b => decide (a < b)
  | _, _           => false

section

variable (newDate : JsValue → Option Int)

/-- The errors of the fields other than the id. -/
def presenceErrors (receipt : Record) : List String :=
  (if !(field receipt "signature").truthy then
    ["Receipt " ++ fieldText receipt "receipt_id" ++ " is missing signature"] else []) ++
  (if !(field receipt "timestamp").truthy then
    ["Receipt " ++ fieldText receipt "receipt_id" ++ " is missing timestamp"] else []) ++
  (if !(field receipt "task_id").truthy then
    ["Receipt " ++ fieldText receipt "receipt_id" ++ " is missing task_id"] else [])

/-- The error of a timestamp that goes back. -/
def orderErrors (receipt : Record) : Option Record → List String
  | none      => []
  | some prev =>
      if (field prev "timestamp").truthy && (field receipt "timestamp").truthy &&
          dateBefore (newDate (field receipt "timestamp")) (newDate (field prev "timestamp")) then
        ["Receipt " ++ fieldText receipt "receipt_id" ++ " has timestamp " ++
          fieldText receipt "timestamp" ++ " which is before previous receipt " ++
          fieldText prev "receipt_id" ++ " timestamp " ++ fieldText prev "timestamp"]
      else []

/-- The errors of one receipt, after `prev`. Without an id nothing else of it is checked. -/
def receiptErrors (index : Nat) (prev : Option Record) (receipt : Record) : List String :=
  if !(field receipt "receipt_id").truthy then
    ["Receipt at index " ++ toString index ++ " is missing receipt_id"]
  else presenceErrors receipt ++ orderErrors newDate receipt prev

def integrityErrors : Nat → Option Record → List Record → List String
  | _, _, []                     => []
  | index, prev, receipt :: rest =>
      receiptErrors newDate index prev receipt ++ integrityErrors (index + 1) (some receipt) rest

def verifyReceiptIntegrity (content : ReceiptContent) : ReceiptReport :=
  let errors := integrityErrors newDate 0 none content.list
  ⟨errors.isEmpty, content.list.length, errors⟩

end

/-! ## What it accepts -/

/-- The fields that the check asks for are there. -/
structure Complete (receipt : Record) : Prop where
  receiptId : (field receipt "receipt_id").truthy = true
  signature : (field receipt "signature").truthy = true
  timestamp : (field receipt "timestamp").truthy = true
  taskId    : (field receipt "task_id").truthy = true

variable {newDate : JsValue → Option Int}

variable (newDate) in
/-- The timestamp of `receipt` is not before that of `prev`. -/
def Follows (prev receipt : Record) : Prop :=
  dateBefore (newDate (field receipt "timestamp")) (newDate (field prev "timestamp")) = false

variable (newDate) in
/-- Every receipt is complete, and the timestamps never go back. -/
def InOrder (receipts : List Record) : Prop :=
  (∀ receipt ∈ receipts, Complete receipt) ∧ receipts.IsChain (Follows newDate)

theorem presenceErrors_eq_nil {receipt : Record} : presenceErrors receipt = [] ↔
    (field receipt "signature").truthy = true ∧ (field receipt "timestamp").truthy = true ∧
      (field receipt "task_id").truthy = true := by
  unfold presenceErrors
  simp

theorem receiptErrors_eq_nil {index : Nat} {prev : Option Record} {receipt : Record} :
    receiptErrors newDate index prev receipt = [] ↔
      Complete receipt ∧ orderErrors newDate receipt prev = [] := by
  unfold receiptErrors
  constructor
  · intro h
    split at h
    · cases h
    · rename_i hid
      obtain ⟨hpresence, horder⟩ := List.append_eq_nil_iff.mp h
      obtain ⟨hsignature, htimestamp, htask⟩ := presenceErrors_eq_nil.mp hpresence
      exact ⟨⟨by simpa using hid, hsignature, htimestamp, htask⟩, horder⟩
  · rintro ⟨⟨hid, hsignature, htimestamp, htask⟩, horder⟩
    rw [hid, if_neg (by simp), horder, List.append_nil]
    exact presenceErrors_eq_nil.mpr ⟨hsignature, htimestamp, htask⟩

theorem orderErrors_some_eq_nil {prev receipt : Record}
    (hprev : (field prev "timestamp").truthy = true)
    (hreceipt : (field receipt "timestamp").truthy = true) :
    orderErrors newDate receipt (some prev) = [] ↔ Follows newDate prev receipt := by
  unfold orderErrors Follows
  simp [hprev, hreceipt]

theorem integrityErrors_some_eq_nil {index : Nat} {prev : Record} {receipts : List Record}
    (hprev : (field prev "timestamp").truthy = true) :
    integrityErrors newDate index (some prev) receipts = [] ↔
      (∀ receipt ∈ receipts, Complete receipt) ∧ (prev :: receipts).IsChain (Follows newDate) := by
  induction receipts generalizing index prev with
  | nil => simp [integrityErrors]
  | cons receipt rest ih =>
      rw [integrityErrors, List.append_eq_nil_iff, receiptErrors_eq_nil, List.isChain_cons_cons,
        List.forall_mem_cons]
      constructor
      · rintro ⟨⟨hcomplete, horder⟩, hrest⟩
        obtain ⟨hall, hchain⟩ := (ih hcomplete.timestamp).mp hrest
        have hfollows := (orderErrors_some_eq_nil hprev hcomplete.timestamp).mp horder
        exact ⟨⟨hcomplete, hall⟩, hfollows, hchain⟩
      · rintro ⟨⟨hcomplete, hall⟩, hfollows, hchain⟩
        have horder := (orderErrors_some_eq_nil hprev hcomplete.timestamp).mpr hfollows
        exact ⟨⟨hcomplete, horder⟩, (ih hcomplete.timestamp).mpr ⟨hall, hchain⟩⟩

/-- **What the check accepts**: no signature is verified. -/
theorem verifyReceiptIntegrity_valid {content : ReceiptContent} :
    (verifyReceiptIntegrity newDate content).valid = true ↔ InOrder newDate content.list := by
  unfold verifyReceiptIntegrity InOrder
  rw [List.isEmpty_iff]
  cases content.list with
  | nil => simp [integrityErrors]
  | cons receipt rest =>
      rw [integrityErrors, List.append_eq_nil_iff, receiptErrors_eq_nil, List.forall_mem_cons]
      constructor
      · rintro ⟨⟨hcomplete, -⟩, hrest⟩
        obtain ⟨hall, hchain⟩ := (integrityErrors_some_eq_nil hcomplete.timestamp).mp hrest
        exact ⟨⟨hcomplete, hall⟩, hchain⟩
      · rintro ⟨⟨hcomplete, hall⟩, hchain⟩
        exact ⟨⟨hcomplete, rfl⟩, (integrityErrors_some_eq_nil hcomplete.timestamp).mpr ⟨hall, hchain⟩⟩

def AllVerify (config : SigningConfig) (receipts : List Record) : Prop :=
  ∀ receipt ∈ receipts, Wire.verifyReceiptSignature config receipt = true

/-- **When the check is one of signatures.** It accepts what is complete and in order; so it is as good
as its signatures say exactly where that is so with all of them, or with neither. -/
theorem receiptIntegrity_sound_iff (config : SigningConfig) (newDate : JsValue → Option Int)
    (content : ReceiptContent) :
    ((verifyReceiptIntegrity newDate content).valid = true ↔ AllVerify config content.list) ↔
      (InOrder newDate content.list ∧ AllVerify config content.list) ∨
        (¬ InOrder newDate content.list ∧ ¬ AllVerify config content.list) := by
  rw [verifyReceiptIntegrity_valid]
  constructor
  · intro h
    by_cases hverify : AllVerify config content.list
    · exact .inl ⟨h.mpr hverify, hverify⟩
    · exact .inr ⟨fun horder => hverify (h.mp horder), hverify⟩
  · rintro (⟨horder, hverify⟩ | ⟨horder, hverify⟩)
    · exact ⟨fun _ => hverify, fun _ => horder⟩
    · exact ⟨fun h => absurd h horder, fun h => absurd h hverify⟩

/-- A receipt whose signature is no signature. -/
def forgedReceipt : Record :=
  (((OrderedMap.empty.set "receipt_id" (.str "receipt:t1")).set "signature" (.str "forged")).set
    "timestamp" (.str "2026-01-01T00:00:00.000Z")).set "task_id" (.str "t1")

def forgedContent : ReceiptContent :=
  ⟨OrderedMap.empty.set "receipt:t1" forgedReceipt, ["receipt:t1"]⟩

theorem forged_accepted : (verifyReceiptIntegrity (fun _ => none) forgedContent).valid = true ∧
    ¬ AllVerify SigningConfig.oneKey forgedContent.list := by
  have hlist : forgedContent.list = [forgedReceipt] := rfl
  constructor
  · rw [verifyReceiptIntegrity_valid, hlist]
    refine ⟨fun receipt h => ?_, .singleton _⟩
    rw [List.mem_singleton.mp h]
    exact ⟨rfl, rfl, rfl, rfl⟩
  · intro h
    have hverify := h forgedReceipt (by rw [hlist]; exact List.mem_singleton_self _)
    exact absurd hverify (by decide)

end MapProtocol
