import MapProtocol.Js.JsonStrings

/-!
# JSON Schema

The keywords that the Python SDK's schemas use, as the `jsonschema` package reads them. A schema is
checked against a parsed JSON text; a keyword that speaks of another type than the value's asks
nothing of it. The lemmas below check the copy of an object that JSON carries by the members of the
object itself.
-/

namespace MapProtocol.Py

open Js

inductive SchemaType where
  | string
  | boolean
  | array
  | object

/-- A schema with a `type`. A keyword that is left out asks nothing. -/
structure Schema where
  type                 : SchemaType
  minLength            : Nat := 0
  enum                 : Option (List String) := none
  items                : Option Schema := none
  additionalProperties : Bool := true
  required             : List String := []
  properties           : List (String × Schema) := []

mutual

/-- Does `jsonschema.validate` raise no error? -/
def Schema.valid : Schema → JsValue → Bool
  | ⟨.string, minLength, enum, _, _, _, _⟩, .str s =>
      minLength ≤ s.length && enum.all fun values => values.contains s
  | ⟨.boolean, _, _, _, _, _, _⟩, .bool _ => true
  | ⟨.array, _, _, items, _, _, _⟩, .arr xs => Schema.validItems items xs
  | ⟨.object, _, _, _, additionalProperties, required, properties⟩, .obj es =>
      required.all (fun name => (OrderedMap.getEntries name es).isSome) &&
        (additionalProperties || es.all fun e => (properties.map Prod.fst).contains e.1) &&
        Schema.validProperties properties es
  | _, _ => false

def Schema.validItems : Option Schema → List JsValue → Bool
  | none, _         => true
  | some schema, xs => xs.all fun x => schema.valid x

/-- Is each member valid that the schema describes? -/
def Schema.validProperties : List (String × Schema) → List (String × JsValue) → Bool
  | [], _                         => true
  | (name, schema) :: schemas, es =>
      ((OrderedMap.getEntries name es).all fun v => schema.valid v) &&
        Schema.validProperties schemas es

end

theorem valid_object (additionalProperties : Bool) (required : List String)
    (properties : List (String × Schema)) (es : List (String × JsValue)) :
    Schema.valid { type := .object, additionalProperties, required, properties } (.obj es) =
      (required.all (fun name => (OrderedMap.getEntries name es).isSome) &&
        (additionalProperties || es.all fun e => (properties.map Prod.fst).contains e.1) &&
        Schema.validProperties properties es) := by
  rw [Schema.valid]

/-! ## Copies -/

theorem all_keys_jsonCopyMembers (p : String → Bool) (es : List (String × JsValue)) :
    (jsonCopyMembers es).all (fun e => p e.1) =
      es.all fun e => (jsonCopy? e.2).isNone || p e.1 := by
  induction es with
  | nil => rfl
  | cons e es ih =>
      obtain ⟨k, v⟩ := e
      cases hcopy : jsonCopy? v with
      | none => simp [jsonCopyMembers, hcopy, ih]
      | some w => simp [jsonCopyMembers, hcopy, ih]

theorem validProperties_jsonCopyMembers {es : List (String × JsValue)}
    (h : (es.map Prod.fst).Nodup) (properties : List (String × Schema)) :
    Schema.validProperties properties (jsonCopyMembers es) = properties.all fun p =>
      ((OrderedMap.getEntries p.1 es).bind jsonCopy?).all fun v => p.2.valid v := by
  induction properties with
  | nil => rfl
  | cons p properties ih =>
      obtain ⟨name, schema⟩ := p
      rw [Schema.validProperties, getEntries_jsonCopyMembers name h, ih, List.all_cons]

/-- **A closed schema**, checked against the copy of an object. -/
theorem valid_closed_iff {es : List (String × JsValue)} (h : (es.map Prod.fst).Nodup)
    (required : List String) (properties : List (String × Schema)) :
    Schema.valid { type := .object, additionalProperties := false, required, properties }
        (.obj (jsonCopyMembers es)) = true ↔
      (∀ name ∈ required, ((OrderedMap.getEntries name es).bind jsonCopy?).isSome = true) ∧
      (∀ e ∈ es, jsonCopy? e.2 = none ∨ e.1 ∈ properties.map Prod.fst) ∧
      ∀ p ∈ properties, ∀ v, (OrderedMap.getEntries p.1 es).bind jsonCopy? = some v →
        p.2.valid v = true := by
  rw [valid_object, validProperties_jsonCopyMembers h,
    all_keys_jsonCopyMembers fun k => (properties.map Prod.fst).contains k]
  simp only [getEntries_jsonCopyMembers _ h, Bool.false_or, Bool.and_eq_true, List.all_eq_true,
    Bool.or_eq_true, Option.isNone_iff_eq_none, List.contains_iff_mem, Option.all_eq_true, and_assoc]

end MapProtocol.Py
