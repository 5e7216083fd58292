import MapProtocol.Js.StringEncoders

/-!
# What survives JSON

A string literal that `quote` writes is read back by `parseString`, and an object of strings that
`stringify` writes is read back by `parse`.

`jsonCopy?` is what `JSON.parse(JSON.stringify(v))` gives for any value: the value without its
`undefined` properties, and with `null` for its `undefined` elements. The copy has the text of the
value (`stringify_jsonCopy`).
-/

namespace MapProtocol.Js

/-! ## Strings -/

/-- **Reading undoes writing**, for a string literal. -/
theorem parseString_escaped (s : String) (rest : List Char) :
    parseString (s.toList.flatMap escapeChar ++ '"' :: rest) = some (s, rest) :=
  Encoder.javascript.parseString_escape s rest

/-! ## Objects of strings -/

def memberChars : List (String × String) → List Char
  | []           => []
  | [(k, v)]     => (quote k).toList ++ ':' :: (quote v).toList
  | (k, v) :: es => (quote k).toList ++ ':' :: (quote v).toList ++ ',' :: memberChars es

theorem stringify_stringMembers (es : List (String × String)) :
    (stringify (stringMembers es)).toList = '\x7b' :: (memberChars es ++ ['\x7d']) := by
  have hmembers :
      (commaSeparated (stringifyMembers (stringMembers es))).toList = memberChars es := by
    induction es with
    | nil => rfl
    | cons e es ih =>
        cases es with
        | nil => simp [stringMembers, stringifyMembers, stringify?, commaSeparated, memberChars]
        | cons e' es =>
            simp only [stringMembers, List.map_cons, stringifyMembers, stringify?,
              commaSeparated, memberChars] at ih ⊢
            simp [← ih]
  unfold stringify stringify?
  simp [hmembers]

theorem memberChars_append (es : List (String × String)) :
    memberChars es ++ ['\x7d'] = Encoder.javascript.membersText es := by
  induction es with
  | nil => rfl
  | cons e es ih =>
      rw [Encoder.membersText_cons]
      cases es with
      | nil => simp [memberChars, Encoder.endText]
      | cons e' es =>
          rw [Encoder.endText, ← ih]
          simp [memberChars]

/-- **Parsing undoes writing**, for an object of strings under distinct keys. -/
theorem parse_stringify_strings {es : List (String × String)} (hne : es ≠ [])
    (hkeys : JsObject.spread [] (stringMembers es) = stringMembers es) :
    parse (stringify (stringMembers es)) = some (.obj (stringMembers es)) := by
  have htext : stringify (stringMembers es) = Encoder.javascript.objectText es := by
    rw [← String.toList_inj, stringify_stringMembers, Encoder.toList_objectText, memberChars_append]
  rw [htext]
  exact Encoder.javascript.parse_objectText hne hkeys

/-! ## The first property -/

theorem stringify_head (k s : String) (es : JsObject) :
    ∃ rest, (stringify ((k, .str s) :: es)).toList =
      '\x7b' :: ((quote k).toList ++ ':' :: '"' :: (s.toList.flatMap escapeChar ++ '"' :: rest)) := by
  unfold stringify stringify? stringifyMembers stringify?
  dsimp only [Option.getD]
  cases hmembers : stringifyMembers es with
  | nil =>
      refine ⟨['\x7d'], ?_⟩
      simp [commaSeparated, quote]
  | cons t ts =>
      refine ⟨',' :: ((commaSeparated (t :: ts)).toList ++ ['\x7d']), ?_⟩
      simp [commaSeparated, quote]

/-- **Objects are told apart by their first string.** -/
theorem stringify_head_injective {k s s' : String} {es es' : JsObject}
    (h : stringify ((k, .str s) :: es) = stringify ((k, .str s') :: es')) : s = s' := by
  obtain ⟨rest, htext⟩ := stringify_head k s es
  obtain ⟨rest', htext'⟩ := stringify_head k s' es'
  rw [h, htext'] at htext
  simp only [List.cons.injEq, true_and, List.append_cancel_left_eq] at htext
  have hparse := parseString_escaped s' rest'
  rw [htext, parseString_escaped] at hparse
  exact (Prod.mk.inj (Option.some.inj hparse)).1

/-! ## Copies -/

mutual

/-- `JSON.parse(JSON.stringify(v))`; `none` where `JSON.stringify` gives no text. -/
def jsonCopy? : JsValue → Option JsValue
  | .undefined   => none
  | .inherited _ => none
  | .null        => some .null
  | .bool b      => some (.bool b)
  | .num n       => some (.num n)
  | .str s       => some (.str s)
  | .arr xs      => some (.arr (jsonCopyElements xs))
  | .obj es      => some (.obj (jsonCopyMembers es))

def jsonCopyElements : List JsValue → List JsValue
  | []      => []
  | v :: vs => (jsonCopy? v).getD .null :: jsonCopyElements vs

def jsonCopyMembers : List (String × JsValue) → List (String × JsValue)
  | []           => []
  | (k, v) :: es =>
      match jsonCopy? v with
      | none   => jsonCopyMembers es
      | some w => (k, w) :: jsonCopyMembers es

end

mutual

/-- The copy of a value has the text of the value. -/
theorem stringify_jsonCopy? : ∀ v, (jsonCopy? v).bind stringify? = stringify? v
  | .undefined   => rfl
  | .inherited _ => rfl
  | .null        => rfl
  | .bool _      => rfl
  | .num _       => rfl
  | .str _       => rfl
  | .arr xs      => by
      have h := stringifyElements_jsonCopy xs
      simp [jsonCopy?, stringify?, h]
  | .obj es      => by
      have h := stringifyMembers_jsonCopy es
      simp [jsonCopy?, stringify?, h]

theorem stringifyElements_jsonCopy :
    ∀ vs, stringifyElements (jsonCopyElements vs) = stringifyElements vs
  | []      => rfl
  | v :: vs => by
      have hv := stringify_jsonCopy? v
      have hvs := stringifyElements_jsonCopy vs
      simp only [jsonCopyElements, stringifyElements, hvs, ← hv]
      cases jsonCopy? v with
      | none => rfl
      | some w => rfl

theorem stringifyMembers_jsonCopy :
    ∀ es, stringifyMembers (jsonCopyMembers es) = stringifyMembers es
  | []           => rfl
  | (k, v) :: es => by
      have hv := stringify_jsonCopy? v
      have hes := stringifyMembers_jsonCopy es
      cases hcopy : jsonCopy? v with
      | none =>
          rw [hcopy] at hv
          simp only [jsonCopyMembers, hcopy, stringifyMembers, ← hv, hes, Option.bind_none]
      | some w =>
          rw [hcopy] at hv
          simp only [jsonCopyMembers, hcopy, stringifyMembers, ← hv, hes, Option.bind_some]

end

theorem stringify_jsonCopy (o : JsObject) : stringify (jsonCopyMembers o) = stringify o := by
  have h := stringifyMembers_jsonCopy o
  simp only [stringify, stringify?, h]

theorem jsonCopyMembers_keys (es : JsObject) :
    ((jsonCopyMembers es).map Prod.fst).Sublist (es.map Prod.fst) := by
  induction es with
  | nil => exact List.Sublist.refl _
  | cons e es ih =>
      obtain ⟨k, v⟩ := e
      cases hcopy : jsonCopy? v with
      | none => simpa [jsonCopyMembers, hcopy] using ih.cons k
      | some w => simpa [jsonCopyMembers, hcopy] using ih

theorem getEntries_jsonCopyMembers (key : String) {es : JsObject} (h : (es.map Prod.fst).Nodup) :
    OrderedMap.getEntries key (jsonCopyMembers es) =
      (OrderedMap.getEntries key es).bind jsonCopy? := by
  induction es with
  | nil => rfl
  | cons e es ih =>
      obtain ⟨k, v⟩ := e
      obtain ⟨hk, hes⟩ := List.nodup_cons.mp h
      have habsent : OrderedMap.getEntries k es = none := OrderedMap.getEntries_eq_none.mpr hk
      by_cases hkey : k = key
      · subst hkey
        cases hcopy : jsonCopy? v with
        | none => simp [jsonCopyMembers, OrderedMap.getEntries, hcopy, ih hes, habsent]
        | some w => simp [jsonCopyMembers, OrderedMap.getEntries, hcopy]
      · cases hcopy : jsonCopy? v with
        | none => simp [jsonCopyMembers, OrderedMap.getEntries, hcopy, ih hes, hkey]
        | some w => simp [jsonCopyMembers, OrderedMap.getEntries, hcopy, ih hes, hkey]

end MapProtocol.Js
