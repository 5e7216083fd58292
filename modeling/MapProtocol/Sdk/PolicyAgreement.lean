import MapProtocol.Lib.FirstMatch
import MapProtocol.Sdk.PolicyRules

/-!
# Where the policy engines of the packages agree

Both engines sort, filter and stop alike; they differ in what a comparison makes of its two sides. A
field is read alike if its flag has been set or its path leads through objects only
(`FieldAlike`), and every operator says of which values it is answered alike (`OperatorAlike`).
As long as every comparison that is met is of this kind, the engines come to one result
(`evaluate_alike`).
-/

namespace MapProtocol.Sdk

open Js Py

/-! ## Fields -/

def Envelope.constraints (envelope : Envelope) : Dict :=
  (envelope.common.map fun es => ("common", Value.dict es)).toList ++
    (envelope.domain.map fun es => ("domain", Value.dict es)).toList

/-- What a path leads to. -/
def readAt : Value → List String → Option Value
  | v, []                => some v
  | .dict es, part :: parts =>
      match OrderedMap.getEntries part es with
      | some w => readAt w parts
      | none   => none
  | _, _                 => none

/-- The path meets nothing that objects or arrays have by themselves. -/
def PlainPath : Value → List String → Prop
  | .dict es, part :: parts =>
      match OrderedMap.getEntries part es with
      | some w => PlainPath w parts
      | none   => part ∉ JsValue.objectPrototype
  | .list xs, part :: _  => TypeScript.hasProperty part (.arr (elementsToJs xs)) = false
  | _, _                 => True

/-- The path of a field below the constraints. -/
def constraintPath (field : String) : List String :=
  split (String.ofList (field.toList.drop "constraints.".length)) '.'

/-- What an envelope and a context hold at a field. -/
def valueAt (envelope : Envelope) (context : Option PolicyContext) (field : String) :
    Option Value :=
  if field = "risk_class" then some (.str envelope.riskClass.text)
  else if field = "target_agent" then some (.str envelope.targetAgent)
  else if field = "requester.type" then some (.str envelope.requesterIdentity.type.text)
  else if field = "requester.id" then some (.str envelope.requesterIdentity.id)
  else if field = "requester.tenant_id" then envelope.requesterIdentity.tenantId.map .str
  else if field = "delegation_token_valid" then
    (context.bind PolicyContext.delegationTokenValid).map .bool
  else if field = "resource_in_scope" then (context.bind PolicyContext.resourceInScope).map .bool
  else if field = "time_window_valid" then
    some (.bool ((context.bind PolicyContext.timeWindowValid).getD true))
  else if startsWith field "constraints." then
    readAt (.dict envelope.constraints) (constraintPath field)
  else none

/-- Both packages read the field alike: the flags that they default differently are set, and a path
is plain. -/
structure FieldAlike (envelope : Envelope) (context : Option PolicyContext) (field : String) :
    Prop where
  token : field = "delegation_token_valid" →
    (context.bind PolicyContext.delegationTokenValid).isSome
  scope : field = "resource_in_scope" → (context.bind PolicyContext.resourceInScope).isSome
  path  : startsWith field "constraints." = true →
    PlainPath (.dict envelope.constraints) (constraintPath field)

theorem getEntries_membersToJs (key : String) (es : Dict) :
    OrderedMap.getEntries key (membersToJs es) = (OrderedMap.getEntries key es).map Value.toJs := by
  induction es with
  | nil => rfl
  | cons e es ih =>
      obtain ⟨k, v⟩ := e
      rw [membersToJs, OrderedMap.getEntries, OrderedMap.getEntries]
      split
      · rfl
      · exact ih

/-- A path that is plain is read in TypeScript as it is written. -/
theorem TypeScript.getNestedValue_plain {v : Value} {parts : List String} (h : PlainPath v parts) :
    TypeScript.getNestedValue v.toJs parts = ofGiven (readAt v parts) := by
  induction parts generalizing v with
  | nil => cases v <;> rfl
  | cons part parts ih =>
      rw [TypeScript.getNestedValue]
      cases v with
      | dict es =>
          rw [PlainPath] at h
          have hread := getEntries_membersToJs part es
          rw [readAt, Value.toJs]
          cases hpart : OrderedMap.getEntries part es with
          | some w =>
              rw [hpart] at h hread
              have hhas : TypeScript.hasProperty part (.obj (membersToJs es)) = true := by
                simp [TypeScript.hasProperty, JsObject.has, hread]
              have hproperty : (JsValue.obj (membersToJs es)).property part = w.toJs := by
                simp [JsValue.property, hread]
              rw [hhas, hproperty]
              exact ih h
          | none =>
              rw [hpart] at h hread
              -- what every object inherits is not on a plain path
              have hhas : TypeScript.hasProperty part (.obj (membersToJs es)) = false := by
                simp [TypeScript.hasProperty, JsObject.has, hread, h]
              simp [hhas, ofGiven]
      | list xs =>
          rw [PlainPath] at h
          simp [Value.toJs, h, readAt, ofGiven]
      | none => rfl
      | bool b => cases b <;> rfl
      | int n => simp [Value.toJs, TypeScript.isObject, readAt, ofGiven]
      | float q => simp [Value.toJs, TypeScript.isObject, readAt, ofGiven]
      | str s => simp [Value.toJs, TypeScript.isObject, readAt, ofGiven]

theorem Python.getNestedValue_eq (v : Value) (parts : List String) :
    Python.getNestedValue v parts = (readAt v parts).getD .none := by
  induction parts generalizing v with
  | nil => cases v <;> rfl
  | cons part parts ih =>
      cases v with
      | dict es =>
          rw [Python.getNestedValue, readAt]
          cases OrderedMap.getEntries part es with
          | some w => exact ih w
          | none => rfl
      | _ => rfl

theorem Python.getNestedValue_constraints (envelope : Envelope) (part : String)
    (parts : List String) :
    Python.getNestedValue (.dict (Python.constraints envelope)) (part :: parts) =
      (readAt (.dict envelope.constraints) (part :: parts)).getD .none := by
  rw [Python.getNestedValue_eq, readAt, readAt]
  unfold Python.constraints Envelope.constraints
  by_cases hcommon : "common" = part
  · subst hcommon
    cases hmember : envelope.common <;> cases hother : envelope.domain <;> cases parts <;>
      simp [OrderedMap.getEntries, readAt]
  by_cases hdomain : "domain" = part
  · subst hdomain
    cases hmember : envelope.common <;> cases hother : envelope.domain <;> cases parts <;>
      simp [OrderedMap.getEntries, readAt]
  cases hmember : envelope.common <;> cases hother : envelope.domain <;>
    simp [OrderedMap.getEntries, hcommon, hdomain]

theorem constraintPath_cons (field : String) :
    ∃ part parts, constraintPath field = part :: parts := by
  unfold constraintPath split
  cases h : splitChars '.' (String.ofList (field.toList.drop "constraints.".length)).toList with
  | nil => exact absurd h (splitChars_ne_nil _)
  | cons part parts => exact ⟨_, _, rfl⟩

section

variable {envelope : Envelope} {context : Option PolicyContext} {field : String}

theorem TypeScript.getFieldValue_eq (h : FieldAlike envelope context field) :
    TypeScript.getFieldValue envelope context field = ofGiven (valueAt envelope context field) := by
  unfold TypeScript.getFieldValue valueAt
  simp only [apply_ite ofGiven]
  refine ite_congr rfl (fun _ => rfl) fun _ => ?_
  refine ite_congr rfl (fun _ => rfl) fun _ => ?_
  refine ite_congr rfl (fun _ => rfl) fun _ => ?_
  refine ite_congr rfl (fun _ => rfl) fun _ => ?_
  refine ite_congr rfl (fun _ => ?_) fun _ => ?_
  · cases envelope.requesterIdentity.tenantId <;> rfl
  refine ite_congr rfl (fun hflag => ?_) fun _ => ?_
  · obtain ⟨b, hb⟩ := Option.isSome_iff_exists.mp (h.token hflag)
    rw [hb]
    rfl
  refine ite_congr rfl (fun hresource => ?_) fun _ => ?_
  · obtain ⟨b, hb⟩ := Option.isSome_iff_exists.mp (h.scope hresource)
    rw [hb]
    rfl
  refine ite_congr rfl (fun _ => rfl) fun _ => ?_
  exact ite_congr rfl (fun hpath => TypeScript.getNestedValue_plain (h.path hpath)) fun _ => rfl

theorem Python.getFieldValue_eq (h : FieldAlike envelope context field) :
    Python.getFieldValue envelope context field =
      (valueAt envelope context field).getD .none := by
  unfold Python.getFieldValue valueAt
  simp only [apply_ite (Option.getD · Value.none)]
  refine ite_congr rfl (fun _ => rfl) fun _ => ?_
  refine ite_congr rfl (fun _ => rfl) fun _ => ?_
  refine ite_congr rfl (fun _ => rfl) fun _ => ?_
  refine ite_congr rfl (fun _ => rfl) fun _ => ?_
  refine ite_congr rfl (fun _ => rfl) fun _ => ?_
  refine ite_congr rfl (fun hflag => ?_) fun _ => ?_
  · obtain ⟨b, hb⟩ := Option.isSome_iff_exists.mp (h.token hflag)
    rw [hb]
    rfl
  refine ite_congr rfl (fun hresource => ?_) fun _ => ?_
  · obtain ⟨b, hb⟩ := Option.isSome_iff_exists.mp (h.scope hresource)
    rw [hb]
    rfl
  refine ite_congr rfl (fun _ => rfl) fun _ => ?_
  refine ite_congr rfl (fun _ => ?_) fun _ => rfl
  obtain ⟨part, parts, hparts⟩ := constraintPath_cons field
  have hnested := Python.getNestedValue_constraints envelope part parts
  rw [← hparts] at hnested
  exact hnested

end

/-! ## Operators

`EqualAlike` and `MemberAlike` are where JavaScript and Python compare alike. -/

/-- The order that an operator asks for, of the number of the field and that of the value. -/
def Operator.ordered : Operator → Number → Number → Bool
  | .gt, x, y  => y.lt x
  | .lt, x, y  => x.lt y
  | .gte, x, y => y.le x
  | .lte, x, y => x.le y
  | _, _, _    => false

/-- `===` and `==` tell the two values apart or not, in the same way. They do not on `undefined`
beside `null`, on a truth value beside the number it stands for, and on arrays and objects, which
are never identical. -/
def EqualAlike : Option Value → Option Value → Prop
  | none, some .none                     => False
  | some .none, none                     => False
  | some (.bool b), some v               =>
      match v with
      | .bool _ => True
      | v       => some (if b then 1 else 0) ≠ v.number?
  | some v, some (.bool b)               => v.number? ≠ some (if b then 1 else 0)
  | some (.list xs), some (.list ys)     => (Value.list xs).equals (.list ys) = false
  | some (.dict es), some (.dict fs)     => (Value.dict es).equals (.dict fs) = false
  | _, _                                 => True

/-- Both find the value among the elements, or neither does. -/
def MemberAlike (xs : List Value) (v : Option Value) : Prop :=
  (xs.any fun x => x.toJs.strictEquals (ofGiven v)) = xs.any fun x => x.equals (v.getD .none)

/-- The values on which an operator is answered alike. -/
def OperatorAlike (foreignDigit : Char → Option Nat) (operator : Operator)
    (found value : Option Value) : Prop :=
  match operator with
  | .eq | .neq => EqualAlike found value
  | .gt | .lt | .gte | .lte =>
      ∃ x y, Python.floatOf foreignDigit (found.getD .none) = some x ∧
        Python.floatOf foreignDigit (value.getD .none) = some y ∧
        ∃ x' y', toNumber (ofGiven found) = some x' ∧ toNumber (ofGiven value) = some y' ∧
          operator.ordered x' y' = operator.ordered x y
  | .isIn      =>
      match value with
      | some (.list xs) => MemberAlike xs found
      | some (.str t)   => t = "" ∨ ∃ s, found = some (.str s) ∧ includes t s = false
      | some (.dict es) => es = [] ∨ ((found.getD .none).hashable = true ∧
          ∀ key, found = some (.str key) → OrderedMap.getEntries key es = none)
      | value           => (value.getD .none).truthy = false
  | .contains  =>
      match found with
      | some (.list xs) => MemberAlike xs value
      | _               => True

theorem strictEquals_eq_iff (v w : Option Value) :
    (ofGiven v).strictEquals (ofGiven w) = (v.getD .none).equals (w.getD .none) ↔
      EqualAlike v w := by
  cases v with
  | none =>
      cases w with
      | none => simp [ofGiven, JsValue.strictEquals, Value.equals, EqualAlike]
      | some w =>
          cases w <;> simp [ofGiven, Value.toJs, JsValue.strictEquals, Value.equals, EqualAlike]
  | some v =>
      cases w with
      | none =>
          cases v <;> simp [ofGiven, Value.toJs, JsValue.strictEquals, Value.equals, EqualAlike,
            Value.number?]
      | some w =>
          cases v with
          | list xs =>
              cases w with
              | list ys => exact eq_comm
              | _ => simp [ofGiven, Value.toJs, JsValue.strictEquals, Value.equals, EqualAlike,
                  Value.number?]
          | dict es =>
              cases w with
              | dict fs => exact eq_comm
              | _ => simp [ofGiven, Value.toJs, JsValue.strictEquals, Value.equals, EqualAlike,
                  Value.number?]
          | bool b =>
              cases w with
              | bool c => cases b <;> cases c <;> simp [ofGiven, Value.toJs,
                  JsValue.strictEquals, Value.equals, EqualAlike, Value.number?]
              | _ => simp [ofGiven, Value.toJs, JsValue.strictEquals, Value.equals, EqualAlike,
                  Value.number?]
          | _ =>
              cases w <;> simp [ofGiven, Value.toJs, JsValue.strictEquals, Value.equals,
                EqualAlike, Value.number?]

/-- Both packages come to an answer, and it is the same. -/
def Answered (ts py : Option Bool) : Prop := ∃ b, ts = some b ∧ py = some b

theorem answered_some {a b : Bool} : Answered (some a) (some b) ↔ a = b := by
  unfold Answered
  constructor
  · rintro ⟨c, ha, hb⟩
    exact (Option.some.inj ha).trans (Option.some.inj hb).symm
  · rintro rfl
    exact ⟨_, rfl, rfl⟩

theorem answered_ordered (foreignDigit : Char → Option Nat) {operator : Operator}
    (h : operator ∈ [.gt, .lt, .gte, .lte]) (v w : Option Value) :
    Answered (TypeScript.compare operator (ofGiven v) (ofGiven w))
        (Python.compare foreignDigit operator (v.getD .none) (w.getD .none)) ↔
      OperatorAlike foreignDigit operator v w := by
  have hts : TypeScript.compare operator (ofGiven v) (ofGiven w) =
      -- both engines compare two numbers, where both sides are numbers
      (toNumber (ofGiven v)).bind fun x => (toNumber (ofGiven w)).map (operator.ordered x) := by
    simp only [List.mem_cons, List.not_mem_nil, or_false] at h
    rcases h with rfl | rfl | rfl | rfl <;>
      cases hv : toNumber (ofGiven v) <;> cases hw : toNumber (ofGiven w) <;>
        simp [TypeScript.compare, hv, hw, Operator.ordered]
  have hpy : Python.compare foreignDigit operator (v.getD .none) (w.getD .none) =
      (Python.floatOf foreignDigit (v.getD .none)).bind fun x =>
        (Python.floatOf foreignDigit (w.getD .none)).map (operator.ordered x) := by
    simp only [List.mem_cons, List.not_mem_nil, or_false] at h
    rcases h with rfl | rfl | rfl | rfl <;>
      cases hv : Python.floatOf foreignDigit (v.getD .none) <;>
      cases hw : Python.floatOf foreignDigit (w.getD .none) <;>
        simp [Python.compare, hv, hw, Operator.ordered]
  have halike : OperatorAlike foreignDigit operator v w ↔
      ∃ x y, Python.floatOf foreignDigit (v.getD .none) = some x ∧
        Python.floatOf foreignDigit (w.getD .none) = some y ∧
        ∃ x' y', toNumber (ofGiven v) = some x' ∧ toNumber (ofGiven w) = some y' ∧
          operator.ordered x' y' = operator.ordered x y := by
    simp only [List.mem_cons, List.not_mem_nil, or_false] at h
    rcases h with rfl | rfl | rfl | rfl <;> exact Iff.rfl
  rw [hts, hpy, halike]
  unfold Answered
  cases Python.floatOf foreignDigit (v.getD .none) <;>
    cases Python.floatOf foreignDigit (w.getD .none) <;>
    cases toNumber (ofGiven v) <;> cases toNumber (ofGiven w) <;> simp [eq_comm]

theorem elementsToJs_eq (xs : List Value) : elementsToJs xs = xs.map Value.toJs := by
  induction xs with
  | nil => rfl
  | cons x xs ih => rw [elementsToJs, ih, List.map_cons]

theorem any_elementsToJs (xs : List Value) (v : JsValue) :
    ((elementsToJs xs).any fun x => x.strictEquals v) = xs.any fun x => x.toJs.strictEquals v := by
  rw [elementsToJs_eq, List.any_map]
  rfl

theorem not_answered_none (a : Option Bool) : ¬Answered a none := by
  rintro ⟨b, -, hb⟩
  cases hb

/-- A container that is empty answers no in both packages; the others are asked. -/
theorem answered_isIn_some (foreignDigit : Char → Option Nat) (v : Option Value) (w : Value) :
    Answered (TypeScript.compare .isIn (ofGiven v) w.toJs)
        (Python.compare foreignDigit .isIn (v.getD .none) w) ↔
      if w.truthy then
        Answered (TypeScript.compare .isIn (ofGiven v) w.toJs) ((v.getD .none).isIn w)
      else True := by
  have hpy : Python.compare foreignDigit .isIn (v.getD .none) w =
      if w.truthy then (v.getD .none).isIn w else some false := rfl
  rw [hpy]
  cases htruthy : w.truthy with
  | true => exact Iff.rfl
  | false =>
      refine iff_of_true ⟨false, ?_, rfl⟩ trivial
      cases w with
      | list xs =>
          have hempty : xs = [] := by simpa [Value.truthy] using htruthy
          rw [hempty]
          rfl
      | _ => rfl

/-- What is no container answers in Python only if it is falsy. -/
theorem answered_isIn_other {v : Option Value} {w : Value}
    (hpy : (v.getD .none).isIn w = none) :
    (if w.truthy then
        Answered (TypeScript.compare .isIn (ofGiven v) w.toJs) ((v.getD .none).isIn w)
      else True) ↔ w.truthy = false := by
  rw [hpy]
  cases w.truthy with
  | true => exact iff_of_false (not_answered_none _) Bool.noConfusion
  | false => exact iff_of_true trivial rfl

theorem answered_false {b : Bool} : Answered (some false) (some b) ↔ b = false :=
  answered_some.trans eq_comm

/-- A text has no elements in TypeScript, and substrings in Python. -/
theorem answered_isIn_str (foreignDigit : Char → Option Nat) (v : Option Value) (t : String) :
    (if (Value.str t).truthy then
        Answered (TypeScript.compare .isIn (ofGiven v) (Value.str t).toJs)
          ((v.getD .none).isIn (.str t))
      else True) ↔ OperatorAlike foreignDigit .isIn v (some (.str t)) := by
  by_cases ht : t = ""
  · rw [ht]
    exact iff_of_true trivial (.inl rfl)
  · have htruthy : (Value.str t).truthy = true := by simpa [Value.truthy] using ht
    rw [if_pos htruthy]
    constructor
    · intro h
      right
      cases v with
      | none => exact absurd h (not_answered_none _)
      | some v =>
          cases v with
          | str s => exact ⟨s, rfl, answered_false.mp h⟩
          | _ => exact absurd h (not_answered_none _)
    · rintro (hempty | ⟨s, rfl, hs⟩)
      · exact absurd hempty ht
      · exact answered_false.mpr hs

/-- An object has no elements in TypeScript, and keys in Python. -/
theorem answered_isIn_dict (foreignDigit : Char → Option Nat) (v : Option Value)
    (es : List (String × Value)) :
    (if (Value.dict es).truthy then
        Answered (TypeScript.compare .isIn (ofGiven v) (Value.dict es).toJs)
          ((v.getD .none).isIn (.dict es))
      else True) ↔ OperatorAlike foreignDigit .isIn v (some (.dict es)) := by
  by_cases hes : es = []
  · rw [hes]
    exact iff_of_true trivial (.inl rfl)
  · have htruthy : (Value.dict es).truthy = true := by simpa [Value.truthy] using hes
    rw [if_pos htruthy]
    have halike : OperatorAlike foreignDigit .isIn v (some (.dict es)) ↔
        (v.getD .none).hashable = true ∧
          ∀ key, v = some (.str key) → OrderedMap.getEntries key es = none :=
      or_iff_right hes
    rw [halike]
    cases v with
    | none => exact iff_of_true ⟨false, rfl, rfl⟩ ⟨rfl, fun _ h => nomatch h⟩
    | some v =>
        cases v with
        | str key =>
            refine answered_false.trans ?_
            rw [Option.isSome_eq_false_iff, Option.isNone_iff_eq_none]
            constructor
            · intro h
              refine ⟨rfl, fun key' heq => ?_⟩
              cases heq
              exact h
            · intro h
              exact h.2 key rfl
        | list xs => exact iff_of_false (not_answered_none _) fun h => nomatch h.1
        -- Python throws on a key that cannot be hashed
        | dict fs => exact iff_of_false (not_answered_none _) fun h => nomatch h.1
        | _ => exact iff_of_true ⟨false, rfl, rfl⟩ ⟨rfl, fun _ h => nomatch h⟩

theorem answered_isIn (foreignDigit : Char → Option Nat) (v w : Option Value) :
    Answered (TypeScript.compare .isIn (ofGiven v) (ofGiven w))
        (Python.compare foreignDigit .isIn (v.getD .none) (w.getD .none)) ↔
      OperatorAlike foreignDigit .isIn v w := by
  cases w with
  | none => exact iff_of_true ⟨false, rfl, rfl⟩ rfl
  | some w =>
      refine (answered_isIn_some foreignDigit v w).trans ?_
      cases w with
      | list xs =>
          have hts : TypeScript.compare .isIn (ofGiven v) (Value.list xs).toJs =
              some (xs.any fun x => x.toJs.strictEquals (ofGiven v)) :=
            congrArg some (any_elementsToJs xs (ofGiven v))
          have halike : OperatorAlike foreignDigit .isIn v (some (.list xs)) ↔ MemberAlike xs v :=
            Iff.rfl
          rw [hts, halike]
          cases xs with
          | nil => exact iff_of_true trivial rfl
          | cons x xs => exact answered_some
      | str t => exact answered_isIn_str foreignDigit v t
      | dict es => exact answered_isIn_dict foreignDigit v es
      | none => exact answered_isIn_other rfl
      | bool b => exact answered_isIn_other rfl
      | int n => exact answered_isIn_other rfl
      | float q => exact answered_isIn_other rfl

theorem answered_contains (foreignDigit : Char → Option Nat) (v w : Option Value) :
    Answered (TypeScript.compare .contains (ofGiven v) (ofGiven w))
        (Python.compare foreignDigit .contains (v.getD .none) (w.getD .none)) ↔
      OperatorAlike foreignDigit .contains v w := by
  cases v with
  | none => exact iff_of_true ⟨false, rfl, rfl⟩ trivial
  | some v =>
      cases v with
      | list xs =>
          have hts : TypeScript.compare .contains (Value.list xs).toJs (ofGiven w) =
              some (xs.any fun x => x.toJs.strictEquals (ofGiven w)) :=
            congrArg some (any_elementsToJs xs (ofGiven w))
          exact hts ▸ answered_some
      | str s =>
          refine iff_of_true ?_ trivial
          cases w with
          | none => exact ⟨false, rfl, rfl⟩
          | some w => cases w <;> exact ⟨_, rfl, rfl⟩
      | _ => exact iff_of_true ⟨false, rfl, rfl⟩ trivial

/-- **When an operator is answered alike.** -/
theorem answered_compare (foreignDigit : Char → Option Nat) (operator : Operator)
    (v w : Option Value) :
    Answered (TypeScript.compare operator (ofGiven v) (ofGiven w))
        (Python.compare foreignDigit operator (v.getD .none) (w.getD .none)) ↔
      OperatorAlike foreignDigit operator v w := by
  cases operator with
  | eq => exact answered_some.trans (strictEquals_eq_iff v w)
  | neq => exact answered_some.trans (Bool.not_inj_iff.trans (strictEquals_eq_iff v w))
  | isIn => exact answered_isIn foreignDigit v w
  | contains => exact answered_contains foreignDigit v w
  | _ => exact answered_ordered foreignDigit (by decide) v w

/-! ## Conditions

Only the comparisons that are met are asked to be alike: `and` and `or` stop early. -/

section

variable (foreignDigit : Char → Option Nat) (envelope : Envelope) (context : Option PolicyContext)

/-- A comparison that both packages answer alike. Nothing is found in what is empty; a field that is
not named TypeScript reads only to look for it in an array, and no key of an object is `None`. -/
def ComparisonAlike (operator : Operator) (field : Option String) (value : Option Value) : Prop :=
  (operator = .isIn ∧ (value.getD .none).truthy = false ∧
      (field = none → value ≠ some (.list []))) ∨
    (operator = .isIn ∧ field = none ∧ ∃ es, value = some (.dict es)) ∨
    ∃ name, field = some name ∧ FieldAlike envelope context name ∧
      OperatorAlike foreignDigit operator (valueAt envelope context name) value

mutual

/-- Every comparison that is met while the condition is evaluated is answered alike, a list of
conditions is there, and a negation has something to negate. -/
def ConditionAlike : PolicyCondition → Prop
  | .and (some conditions)           => EveryAlike conditions
  | .or (some conditions)            => SomeAlike conditions
  | .not (some (condition :: _))     => ConditionAlike condition
  | .comparison operator field value =>
      ComparisonAlike foreignDigit envelope context operator field value
  | _                                => False

def EveryAlike : List PolicyCondition → Prop
  | []                      => True
  | condition :: conditions =>
      ConditionAlike condition ∧
        (TypeScript.evaluateCondition envelope context condition = some true →
          EveryAlike conditions)

def SomeAlike : List PolicyCondition → Prop
  | []                      => True
  | condition :: conditions =>
      ConditionAlike condition ∧
        (TypeScript.evaluateCondition envelope context condition = some false →
          SomeAlike conditions)

end

end

section

variable {foreignDigit : Char → Option Nat} {envelope : Envelope} {context : Option PolicyContext}

theorem ComparisonAlike.answered {operator : Operator} {field : Option String}
    {value : Option Value}
    (h : ComparisonAlike foreignDigit envelope context operator field value) :
    Answered (TypeScript.evaluateComparison envelope context operator field value)
      (Python.compare foreignDigit operator
        (Python.getFieldValue envelope context (field.getD "")) (value.getD .none)) := by
  rcases h with ⟨rfl, hfalse, hnamed⟩ | ⟨rfl, rfl, es, rfl⟩ | ⟨name, rfl, hfield, hoperator⟩
  · have hpy : Python.compare foreignDigit .isIn
        (Python.getFieldValue envelope context (field.getD "")) (value.getD .none) =
          some false := if_neg (by simp [hfalse])
    rw [hpy]
    refine ⟨false, ?_, rfl⟩
    cases value with
    | none => cases field <;> rfl
    | some value =>
        cases value with
        | list xs =>
            have hempty : xs = [] := by simpa [Value.truthy] using hfalse
            subst hempty
            cases field with
            | none => exact absurd rfl (hnamed rfl)
            | some name => rfl
        | _ => cases field <;> rfl
  · refine ⟨false, rfl, ?_⟩
    cases es <;> rfl
  · have hts : TypeScript.evaluateComparison envelope context operator (some name) value =
        TypeScript.compare operator (TypeScript.getFieldValue envelope context name)
          (ofGiven value) := rfl
    rw [hts, Option.getD_some, TypeScript.getFieldValue_eq hfield, Python.getFieldValue_eq hfield]
    exact (answered_compare foreignDigit operator _ value).mpr hoperator

mutual

/-- A condition whose comparisons are answered alike is answered alike. -/
theorem ConditionAlike.answered : ∀ condition : PolicyCondition,
    ConditionAlike foreignDigit envelope context condition →
      Answered (TypeScript.evaluateCondition envelope context condition)
        (Python.evaluateCondition foreignDigit envelope context condition)
  | .and (some conditions), h           => by
      rw [TypeScript.evaluateCondition, Python.evaluateCondition]
      exact EveryAlike.answered conditions h
  | .or (some conditions), h            => by
      rw [TypeScript.evaluateCondition, Python.evaluateCondition]
      exact SomeAlike.answered conditions h
  | .not (some (condition :: _)), h     => by
      rw [TypeScript.evaluateCondition, Python.evaluateCondition]
      obtain ⟨b, hts, hpy⟩ := ConditionAlike.answered condition h
      exact ⟨!b, by rw [hts]; rfl, by rw [hpy]; rfl⟩
  | .comparison operator field value, h => by
      rw [TypeScript.evaluateCondition, Python.evaluateCondition]
      exact ComparisonAlike.answered h

theorem EveryAlike.answered : ∀ conditions : List PolicyCondition,
    EveryAlike foreignDigit envelope context conditions →
      Answered (TypeScript.evaluateEvery envelope context conditions)
        (Python.evaluateAll foreignDigit envelope context conditions)
  | [], _                      => ⟨true, rfl, rfl⟩
  | condition :: conditions, h => by
      obtain ⟨hcondition, hconditions⟩ := h
      obtain ⟨b, hts, hpy⟩ := ConditionAlike.answered condition hcondition
      rw [TypeScript.evaluateEvery, Python.evaluateAll, hts, hpy]
      cases b with
      | true => exact EveryAlike.answered conditions (hconditions hts)
      | false => exact ⟨false, rfl, rfl⟩

theorem SomeAlike.answered : ∀ conditions : List PolicyCondition,
    SomeAlike foreignDigit envelope context conditions →
      Answered (TypeScript.evaluateSome envelope context conditions)
        (Python.evaluateAny foreignDigit envelope context conditions)
  | [], _                      => ⟨false, rfl, rfl⟩
  | condition :: conditions, h => by
      obtain ⟨hcondition, hconditions⟩ := h
      obtain ⟨b, hts, hpy⟩ := ConditionAlike.answered condition hcondition
      rw [TypeScript.evaluateSome, Python.evaluateAny, hts, hpy]
      cases b with
      | true => exact ⟨true, rfl, rfl⟩
      | false => exact SomeAlike.answered conditions (hconditions hts)

end

end

/-! ## Rules -/

theorem toJs_strictEquals_str (v : Value) (s : String) :
    v.toJs.strictEquals (.str s) = v.equals (.str s) := by
  have halike := (strictEquals_eq_iff (some v) (some (.str s))).mpr
    (by cases v <;> simp [EqualAlike, Value.number?])
  exact halike

theorem envelopeCapability_eq (envelope : Envelope) (capability : String) :
    (TypeScript.envelopeCapability envelope).strictEquals (.str capability) =
      (Python.envelopeCapability envelope).equals (.str capability) := by
  unfold TypeScript.envelopeCapability Python.envelopeCapability
  cases envelope.common with
  | none => rfl
  | some es =>
      have hread := getEntries_membersToJs "capability" es
      dsimp only
      rw [JsValue.property_obj (by decide), JsObject.get, hread]
      cases OrderedMap.getEntries "capability" es with
      | none => rfl
      | some v => exact toJs_strictEquals_str v capability

theorem ruleApplies_eq (rule : PolicyRule) (envelope : Envelope) :
    TypeScript.ruleApplies rule envelope = Python.ruleApplies rule envelope := by
  unfold TypeScript.ruleApplies Python.ruleApplies
  cases given rule.target.capability with
  | none => rfl
  | some capability =>
      simp only [envelopeCapability_eq]

theorem applicable_eq (engine : PolicyEngine) (envelope : Envelope) :
    (engine.rules.filter fun rule => Python.ruleApplies rule envelope).mergeSort byPriority =
      engine.rules.filter fun rule => TypeScript.ruleApplies rule envelope := by
  have hsorted := engine.sorted.filter fun rule => Python.ruleApplies rule envelope
  rw [List.mergeSort_of_pairwise hsorted]
  exact List.filter_congr fun rule _ => (ruleApplies_eq rule envelope).symm

/-- As long as the rules that are met are answered alike, the first one that fires is the same. -/
theorem firstResult_alike {defaultEffect : PolicyEffect} {ts py : PolicyRule → Option Bool}
    {rules : List PolicyRule}
    (h : UpToFirst (fun rule => ts rule = some true) (fun rule => Answered (ts rule) (py rule))
      rules) :
    ∃ result, firstResult defaultEffect ts rules = some result ∧
      firstResult defaultEffect py rules = some result := by
  induction rules with
  | nil => exact ⟨_, rfl, rfl⟩
  | cons rule rules ih =>
      obtain ⟨⟨b, hts, hpy⟩, hrules⟩ := h
      cases b with
      | true => exact ⟨rule.result, by simp [firstResult, hts], by simp [firstResult, hpy]⟩
      | false =>
          obtain ⟨result, hleft, hright⟩ := ih (hrules (by simp [hts]))
          exact ⟨result, by simp [firstResult, hts, hleft], by simp [firstResult, hpy, hright]⟩

section

variable (foreignDigit : Char → Option Nat) (envelope : Envelope) (context : Option PolicyContext)

def RuleAlike (rule : PolicyRule) : Prop :=
  ∀ condition, rule.condition = some condition →
    ConditionAlike foreignDigit envelope context condition

/-- The rules that the engine meets, up to the first one that fires, are answered alike. -/
def PolicyEngine.MeetsAlike (engine : PolicyEngine) : Prop :=
  UpToFirst (fun rule => TypeScript.fires envelope context rule = some true)
    (RuleAlike foreignDigit envelope context)
    (engine.rules.filter fun rule => TypeScript.ruleApplies rule envelope)

/-- Both engines return, with the same effect. -/
def PolicyEngine.SameEffect (engine : PolicyEngine) : Prop :=
  ∃ effect,
    (TypeScript.evaluate engine envelope context).map PolicyResult.effect = some effect ∧
      (Python.evaluate foreignDigit engine envelope context).map PolicyResult.effect = some effect

end

section

variable {foreignDigit : Char → Option Nat} {envelope : Envelope} {context : Option PolicyContext}

theorem RuleAlike.answered {rule : PolicyRule}
    (h : RuleAlike foreignDigit envelope context rule) :
    Answered (TypeScript.fires envelope context rule)
      (Python.fires foreignDigit envelope context rule) := by
  unfold TypeScript.fires Python.fires
  cases hcondition : rule.condition with
  | none => exact ⟨true, rfl, rfl⟩
  | some condition => exact ConditionAlike.answered condition (h condition hcondition)

theorem TypeScript.evaluate_eq (engine : PolicyEngine) :
    TypeScript.evaluate engine envelope context =
      firstResult engine.defaultEffect (TypeScript.fires envelope context)
        (engine.rules.filter fun rule => TypeScript.ruleApplies rule envelope) := by
  unfold TypeScript.evaluate
  cases engine.rules.filter fun rule => TypeScript.ruleApplies rule envelope <;> rfl

theorem Python.evaluate_eq (engine : PolicyEngine) :
    Python.evaluate foreignDigit engine envelope context =
      firstResult engine.defaultEffect (Python.fires foreignDigit envelope context)
        (engine.rules.filter fun rule => TypeScript.ruleApplies rule envelope) := by
  unfold Python.evaluate
  rw [applicable_eq]
  cases engine.rules.filter fun rule => TypeScript.ruleApplies rule envelope <;> rfl

/-- **Where what is met is answered alike, both engines come to one result.** -/
theorem evaluate_alike {engine : PolicyEngine}
    (h : engine.MeetsAlike foreignDigit envelope context) :
    ∃ result, TypeScript.evaluate engine envelope context = some result ∧
      Python.evaluate foreignDigit engine envelope context = some result := by
  rw [TypeScript.evaluate_eq, Python.evaluate_eq]
  exact firstResult_alike (h.mono fun _ _ => RuleAlike.answered)

/-! ## Engines -/

theorem rules_singleton {rule : PolicyRule} (htarget : rule.target = {})
    (defaultEffect : PolicyEffect) :
    ((PolicyEngine.ofRules defaultEffect [rule]).rules.filter fun rule =>
      TypeScript.ruleApplies rule envelope) = [rule] := by
  have happlies : TypeScript.ruleApplies rule envelope = true := by
    unfold TypeScript.ruleApplies
    rw [htarget]
    rfl
  have hrules : (PolicyEngine.ofRules defaultEffect [rule]).rules = [rule] :=
    List.mergeSort_singleton rule
  rw [hrules]
  exact List.filter_cons_of_pos happlies

theorem effect_singleton (defaultEffect : PolicyEffect) (fires : PolicyRule → Option Bool)
    (rule : PolicyRule) :
    (firstResult defaultEffect fires [rule]).map PolicyResult.effect =
      (fires rule).map fun fired => if fired then rule.effect else defaultEffect := by
  have hresult : rule.result.effect = rule.effect := by
    unfold PolicyRule.result
    cases rule.effect <;> rfl
  cases hfires : fires rule with
  | none => simp [firstResult, hfires]
  | some fired => cases fired <;> simp [firstResult, hfires, hresult]

/-- Whether a rule fires shows if its effect is not the default. -/
theorem sameEffect_singleton {rule : PolicyRule} (htarget : rule.target = {})
    {defaultEffect : PolicyEffect} (heffect : rule.effect ≠ defaultEffect) :
    (PolicyEngine.ofRules defaultEffect [rule]).SameEffect foreignDigit envelope context ↔
      Answered (TypeScript.fires envelope context rule)
        (Python.fires foreignDigit envelope context rule) := by
  have hdefault : (PolicyEngine.ofRules defaultEffect [rule]).defaultEffect = defaultEffect := rfl
  have heffect' := heffect.symm
  unfold PolicyEngine.SameEffect
  rw [TypeScript.evaluate_eq, Python.evaluate_eq, rules_singleton htarget, hdefault,
    effect_singleton, effect_singleton]
  cases TypeScript.fires envelope context rule with
  | none => simp [Answered]
  | some a =>
      cases Python.fires foreignDigit envelope context rule with
      | none => simp [Answered]
      | some b => cases a <;> cases b <;> simp [Answered, heffect, heffect']

/-- Conditions that TypeScript cannot evaluate, and flags that each package sets by itself. -/
inductive Differs (context : Option PolicyContext) : PolicyCondition → Prop where
  | and : Differs context (.and none)
  | or : Differs context (.or none)
  | not : Differs context (.not none)
  | notEmpty : Differs context (.not (some []))
  | field (operator : Operator) (value : Option Value) :
      operator ≠ .isIn → Differs context (.comparison operator none value)
  | token (b : Bool) : context.bind PolicyContext.delegationTokenValid = none →
      Differs context (.comparison .eq (some "delegation_token_valid") (some (.bool b)))
  | scope (b : Bool) : context.bind PolicyContext.resourceInScope = none →
      Differs context (.comparison .eq (some "resource_in_scope") (some (.bool b)))

/-- A flag that is `false` in TypeScript and `true` in Python is not compared alike. -/
theorem flag_not_answered {field : String} (b : Bool)
    (hts : TypeScript.getFieldValue envelope context field = .bool false)
    (hpy : Python.getFieldValue envelope context field = .bool true) :
    ¬Answered (TypeScript.evaluateCondition envelope context
        (.comparison .eq (some field) (some (.bool b))))
      (Python.evaluateCondition foreignDigit envelope context
        (.comparison .eq (some field) (some (.bool b)))) := by
  rw [TypeScript.evaluateCondition, Python.evaluateCondition, TypeScript.evaluateComparison,
    Option.getD_some, hts, hpy]
  intro hanswered
  cases b <;> exact absurd (answered_some.mp hanswered) (by decide)

theorem Differs.not_answered {condition : PolicyCondition} (h : Differs context condition) :
    ¬Answered (TypeScript.evaluateCondition envelope context condition)
      (Python.evaluateCondition foreignDigit envelope context condition) := by
  have hthrows : ∀ py, ¬Answered none py := by
    rintro py ⟨b, hb, -⟩
    cases hb
  cases h with
  | field operator value hoperator =>
      rw [TypeScript.evaluateCondition.eq_def]
      cases operator <;> first | exact hthrows _ | contradiction
  | token b hflag =>
      exact flag_not_answered b (by simp [TypeScript.getFieldValue, hflag])
        (by simp [Python.getFieldValue, hflag])
  | scope b hflag =>
      exact flag_not_answered b (by simp [TypeScript.getFieldValue, hflag])
        (by simp [Python.getFieldValue, hflag])
  | _ =>
      rw [TypeScript.evaluateCondition.eq_def]
      exact hthrows _

/-- **Where the two policy engines agree.** They come to the same effect wherever every comparison
they meet is answered alike. For the comparison of a field that is read alike this is exact: the
engine with a single such rule gives one effect if and only if the operator is answered alike on the
two values. With a condition that TypeScript cannot evaluate, or on a flag that is not set, the
engines part. -/
theorem engines_same_effect (foreignDigit : Char → Option Nat) (envelope : Envelope)
    (context : Option PolicyContext) (defaultEffect : PolicyEffect) :
    (∀ rules : List PolicyRule,
      (PolicyEngine.ofRules defaultEffect rules).MeetsAlike foreignDigit envelope context →
        (PolicyEngine.ofRules defaultEffect rules).SameEffect foreignDigit envelope context) ∧
    ∀ (rule : PolicyRule) (condition : PolicyCondition), rule.target = {} →
      rule.effect ≠ defaultEffect → rule.condition = some condition →
        (∀ operator field value, condition = .comparison operator (some field) value →
          FieldAlike envelope context field →
            ((PolicyEngine.ofRules defaultEffect [rule]).SameEffect foreignDigit envelope
                context ↔
              OperatorAlike foreignDigit operator (valueAt envelope context field) value)) ∧
        (Differs context condition →
          ¬(PolicyEngine.ofRules defaultEffect [rule]).SameEffect foreignDigit envelope
            context) := by
  constructor
  · intro rules halike
    obtain ⟨result, hts, hpy⟩ := evaluate_alike halike
    exact ⟨result.effect, by rw [hts]; rfl, by rw [hpy]; rfl⟩
  · intro rule condition htarget heffect hcondition
    rw [sameEffect_singleton htarget heffect, TypeScript.fires, Python.fires, hcondition]
    refine ⟨?_, Differs.not_answered⟩
    rintro operator field value rfl hfield
    rw [← answered_compare, ← TypeScript.getFieldValue_eq hfield,
      ← Python.getFieldValue_eq hfield]
    dsimp only
    rw [TypeScript.evaluateCondition, Python.evaluateCondition, TypeScript.evaluateComparison,
      Option.getD_some]

end

def sampleEnvelope : Envelope :=
  { requesterIdentity := ⟨.user, "u1", none⟩
    targetAgent       := "a1"
    riskClass         := .low
    common            := none
    domain            := none }

/-- A rule that denies where the field has the value. -/
def denying (field : String) (value : Value) : PolicyRule :=
  { id        := "r1"
    name      := "deny"
    target    := {}
    condition := some (.comparison .eq (some field) (some value))
    effect    := .deny
    reason    := none
    priority  := 0 }

theorem user_denied_alike :
    (PolicyEngine.ofRules .allow [denying "requester.type" (.str "user")]).SameEffect
      (fun _ => none) sampleEnvelope none := by
  refine (engines_same_effect (fun _ => none) sampleEnvelope none .allow).1 _ ?_
  unfold PolicyEngine.MeetsAlike
  rw [rules_singleton rfl]
  refine ⟨fun condition hcondition => ?_, fun _ => trivial⟩
  have hfield : FieldAlike sampleEnvelope none "requester.type" :=
    { token := fun h => absurd h (by decide)
      scope := fun h => absurd h (by decide)
      path  := fun h => absurd h (by decide) }
  cases hcondition
  exact .inr (.inr ⟨_, rfl, hfield, trivial⟩)

/-- Without a context the token is not valid in TypeScript and valid in Python. -/
theorem token_default_differs :
    let engine := PolicyEngine.ofRules .allow [denying "delegation_token_valid" (.bool false)]
    (TypeScript.evaluate engine sampleEnvelope none).map PolicyResult.effect = some .deny ∧
      (Python.evaluate (fun _ => none) engine sampleEnvelope none).map PolicyResult.effect =
        some .allow ∧
      ¬engine.SameEffect (fun _ => none) sampleEnvelope none := by
  intro engine
  have hts : (TypeScript.evaluate engine sampleEnvelope none).map PolicyResult.effect =
      some .deny := by
    rw [TypeScript.evaluate_eq, rules_singleton rfl, effect_singleton]
    rfl
  have hpy : (Python.evaluate (fun _ => none) engine sampleEnvelope none).map
      PolicyResult.effect = some .allow := by
    rw [Python.evaluate_eq, rules_singleton rfl, effect_singleton]
    rfl
  refine ⟨hts, hpy, ?_⟩
  rintro ⟨effect, hleft, hright⟩
  rw [hts] at hleft
  rw [hpy] at hright
  exact absurd (hleft.trans hright.symm) (by decide)

end MapProtocol.Sdk
