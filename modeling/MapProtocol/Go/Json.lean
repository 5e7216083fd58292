import MapProtocol.Js.Value

/-!
# JSON read into Go structs

`json.Unmarshal` into a variable with its zero value. A struct takes the members that bear the names
of its fields, in any case, and passes over the others; a field that no member names keeps its zero
value (`unmarshal_unnamed`). A type is the list of its fields' JSON names.
-/

namespace MapProtocol.GoJson

open Js

inductive GoType where
  | string
  | bool
  | int
  | any
  | pointer (t : GoType)
  | slice (t : GoType)
  | struct (fields : List (String × GoType))

inductive GoValue where
  | string (s : String)
  | bool (b : Bool)
  | int (n : Int)
  | any (v : JsValue)
  /-- A pointer or a slice that is `nil`. -/
  | nil
  | pointer (v : GoValue)
  | slice (vs : List GoValue)
  | struct (fields : List (String × GoValue))

mutual

def zero : GoType → GoValue
  | .string        => .string ""
  | .bool          => .bool false
  | .int           => .int 0
  | .any           => .any .null
  | .pointer _     => .nil
  | .slice _       => .nil
  | .struct fields => .struct (zeroFields fields)

def zeroFields : List (String × GoType) → List (String × GoValue)
  | []                  => []
  | (name, t) :: fields => (name, zero t) :: zeroFields fields

end

/-- Are the names the same, whatever their case? -/
def sameName (a b : String) : Bool := a.toList.map Char.toLower == b.toList.map Char.toLower

/-- The last member that a field takes. -/
def memberOf (name : String) (es : List (String × JsValue)) : Option JsValue :=
  (es.reverse.find? fun e => sameName e.1 name).map Prod.snd

mutual

/-- `json.Unmarshal`; `none` is its error. The JSON `null` leaves what is there. -/
def unmarshal : GoType → JsValue → Option GoValue
  | t, .null                       => some (zero t)
  | .string, .str s                => some (.string s)
  | .bool, .bool b                 => some (.bool b)
  | .int, .num q                   => if q.den = 1 then some (.int q.num) else none
  | .any, v                        => some (.any v)
  | .pointer t, v                  => (unmarshal t v).map .pointer
  | .slice t, .arr xs              => (xs.mapM fun x => unmarshal t x).map .slice
  | .struct fields, .obj es        => (unmarshalFields fields es).map .struct
  | _, _                           => none

def unmarshalFields : List (String × GoType) → List (String × JsValue) →
    Option (List (String × GoValue))
  | [], _                   => some []
  | (name, t) :: fields, es => do
      let v ← match memberOf name es with
        | some v => unmarshal t v
        | none   => some (zero t)
      let vs ← unmarshalFields fields es
      return (name, v) :: vs

end

mutual

def GoValue.toJs : GoValue → JsValue
  | .string s      => .str s
  | .bool b        => .bool b
  | .int n         => .num n
  | .any v         => v
  | .nil           => .null
  | .pointer v     => v.toJs
  | .slice vs      => .arr (valuesToJs vs)
  | .struct fields => .obj (fieldsToJs fields)

def valuesToJs : List GoValue → List JsValue
  | []      => []
  | v :: vs => v.toJs :: valuesToJs vs

def fieldsToJs : List (String × GoValue) → List (String × JsValue)
  | []                  => []
  | (name, v) :: fields => (name, v.toJs) :: fieldsToJs fields

end

def GoValue.field (name : String) : GoValue → GoValue
  | .struct fields            => ((fields.find? fun f => f.1 == name).map Prod.snd).getD .nil
  | .pointer (.struct fields) => ((fields.find? fun f => f.1 == name).map Prod.snd).getD .nil
  | _                         => .nil

theorem memberOf_eq_none {name : String} {es : List (String × JsValue)}
    (h : ∀ e ∈ es, sameName e.1 name = false) : memberOf name es = none := by
  unfold memberOf
  rw [Option.map_eq_none_iff, List.find?_eq_none]
  intro e he
  rw [h e (List.mem_reverse.mp he)]
  decide

theorem unmarshalFields_unnamed {fields : List (String × GoType)} {es : List (String × JsValue)}
    (h : ∀ f ∈ fields, ∀ e ∈ es, sameName e.1 f.1 = false) :
    unmarshalFields fields es = some (zeroFields fields) := by
  induction fields with
  | nil => rfl
  | cons f fields ih =>
      obtain ⟨name, t⟩ := f
      obtain ⟨hname, hfields⟩ := List.forall_mem_cons.mp h
      have hmember := memberOf_eq_none hname
      have hrest := ih hfields
      simp [unmarshalFields, zeroFields, hmember, hrest]

/-- **What names no field is passed over.** -/
theorem unmarshal_unnamed {fields : List (String × GoType)} {es : List (String × JsValue)}
    (h : ∀ f ∈ fields, ∀ e ∈ es, sameName e.1 f.1 = false) :
    unmarshal (.struct fields) (.obj es) = some (zero (.struct fields)) := by
  have hfields := unmarshalFields_unnamed h
  simp [unmarshal, zero, hfields]

end MapProtocol.GoJson
