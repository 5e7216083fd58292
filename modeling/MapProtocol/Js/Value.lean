import MapProtocol.Lib.OrderedMap
import MapProtocol.Js.Text
import Mathlib.Data.Rat.Defs

/-!
# JavaScript values

The values the program handles without a static type: parsed JSON, policy conditions, constraint
bags, adapter inputs and outputs. Numbers are exact rationals. An object is its list of own
properties in order; `undefined` may be a property's value, as it may in the source. `inherited`
stands for what a property read finds on a prototype (`toString`, `constructor` and the like).
-/

namespace MapProtocol.Js

inductive JsValue where
  | undefined
  | null
  | bool (b : Bool)
  | num (n : Rat)
  | str (s : String)
  | arr (xs : List JsValue)
  | obj (es : List (String × JsValue))
  | inherited (name : String)

instance : Inhabited JsValue := ⟨.undefined⟩

/-- The own properties of an object, in order. -/
abbrev JsObject := List (String × JsValue)

namespace JsObject

/-- `key in o`, for own properties. -/
def has (o : JsObject) (key : String) : Bool := (OrderedMap.getEntries key o).isSome

/-- `o[key]`, for own properties; `undefined` where there is none. -/
def get (o : JsObject) (key : String) : JsValue := (OrderedMap.getEntries key o).getD .undefined

/-- `{ ...o, [key]: v }`. -/
def set (o : JsObject) (key : String) (v : JsValue) : JsObject := OrderedMap.setEntries key v o

/-- `{ ...a, ...b }`. -/
def spread (a b : JsObject) : JsObject := b.foldl (fun o e => o.set e.1 e.2) a

/-- `Object.keys(o)`. -/
def keys (o : JsObject) : List String := o.map Prod.fst

end JsObject

namespace JsValue

def isUndefined : JsValue → Bool
  | .undefined => true
  | _          => false

/-- `a ?? b`. -/
def orElse (a b : JsValue) : JsValue :=
  match a with
  | .undefined => b
  | .null      => b
  | v          => v

/-- `Boolean(v)`. -/
def truthy : JsValue → Bool
  | .undefined   => false
  | .null        => false
  | .bool b      => b
  | .num n       => n != 0
  | .str s       => s != ""
  | .arr _       => true
  | .obj _       => true
  | .inherited _ => true

/-- The string, where `typeof v === "string"`. -/
def asString : JsValue → Option String
  | .str s => some s
  | _      => none

/-- The number, where `typeof v === "number"`. -/
def asNumber : JsValue → Option Rat
  | .num n => some n
  | _      => none

/-- The properties, where `typeof v === "object" && v !== null && !Array.isArray(v)`. -/
def asObject : JsValue → Option JsObject
  | .obj es => some es
  | _       => none

/-- `a === b`. Two objects met here never are the same object. -/
def strictEquals : JsValue → JsValue → Bool
  | .undefined, .undefined => true
  | .null, .null           => true
  | .bool a, .bool b       => a == b
  | .num a, .num b         => a == b
  | .str a, .str b         => a == b
  | _, _                   => false

theorem eq_str_of_strictEquals {v : JsValue} {s : String} (h : v.strictEquals (.str s) = true) :
    v = .str s := by
  cases v with
  | str t => exact congrArg JsValue.str (beq_iff_eq.mp h)
  | _ => cases h

/-- What every object inherits from `Object.prototype`. -/
def objectPrototype : List String :=
  ["constructor", "__defineGetter__", "__defineSetter__", "hasOwnProperty", "__lookupGetter__",
    "__lookupSetter__", "isPrototypeOf", "propertyIsEnumerable", "toString", "valueOf",
    "__proto__", "toLocaleString"]

/-- What every array inherits from `Array.prototype`. -/
def arrayPrototype : List String :=
  ["at", "concat", "copyWithin", "entries", "every", "fill", "filter", "find", "findIndex",
    "findLast", "findLastIndex", "flat", "flatMap", "forEach", "includes", "indexOf", "join",
    "keys", "lastIndexOf", "map", "pop", "push", "reduce", "reduceRight", "reverse", "shift",
    "slice", "some", "sort", "splice", "toReversed", "toSorted", "toSpliced", "unshift", "values",
    "with"]

/-- The own property `key` of an object or an array; `undefined` where there is none. -/
def ownProperty (v : JsValue) (key : String) : JsValue :=
  match v with
  | .obj es => JsObject.get es key
  | .arr xs =>
      if key = "length" then .num xs.length
      else match key.toNat? with
        | some i => if toString i = key then xs[i]?.getD .undefined else .undefined
        | none   => .undefined
  | _ => .undefined

/-- `v[key]` for an object or an array `v`, prototypes included. The two prototypes themselves are
objects, everything else on them is a function, and a function is not read any further. -/
def property (v : JsValue) (key : String) : JsValue :=
  match v with
  | .obj es =>
      match OrderedMap.getEntries key es with
      | some w => w
      | none   =>
          if key = "__proto__" then .inherited "Object.prototype"
          else if key ∈ objectPrototype then .inherited key else .undefined
  | .arr _ =>
      if key = "__proto__" then .inherited "Array.prototype"
      else if key ∈ arrayPrototype ∨ key ∈ objectPrototype then .inherited key
      else v.ownProperty key
  | .inherited "Object.prototype" =>
      if key = "__proto__" then .null
      else if key ∈ objectPrototype then .inherited key else .undefined
  | .inherited "Array.prototype" =>
      if key = "length" then .num 0
      else if key = "__proto__" then .inherited "Object.prototype"
      else if key ∈ arrayPrototype ∨ key ∈ objectPrototype then .inherited key else .undefined
  | _ => .undefined

theorem property_obj {es : JsObject} {key : String} (h : key ∉ objectPrototype) :
    (JsValue.obj es).property key = es.get key := by
  have hproto : key ≠ "__proto__" := by
    rintro rfl
    exact h (by decide)
  simp only [property, JsObject.get]
  cases OrderedMap.getEntries key es with
  | some w => rfl
  | none => simp [h, hproto]

/-- An optional string field, as the property value it gives. -/
def ofString? : Option String → JsValue
  | some s => .str s
  | none   => .undefined

end JsValue

end MapProtocol.Js
