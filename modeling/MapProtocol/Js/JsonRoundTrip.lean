import MapProtocol.Js.JsonTexts

/-!
# The JSON round trip

What `parse` returns is a JSON value (`isJson_of_parse`). What `stringify` writes of a JSON value is a
text of it (`spells_stringify`), so that it is read back as the value (`parse_stringify?`).
-/

namespace MapProtocol.Js

mutual

/-- A value that a JSON text denotes. -/
def IsJson : JsValue → Prop
  | .undefined   => False
  | .inherited _ => False
  | .null        => True
  | .bool _      => True
  | .num q       => Decimal q
  | .str _       => True
  | .arr xs      => AreJson xs
  | .obj es      => (es.map Prod.fst).Nodup ∧ HaveJson es

def AreJson : List JsValue → Prop
  | []      => True
  | v :: vs => IsJson v ∧ AreJson vs

def HaveJson : List (String × JsValue) → Prop
  | []           => True
  | (_, v) :: es => IsJson v ∧ HaveJson es

end

theorem areJson_iff {vs : List JsValue} : AreJson vs ↔ ∀ v ∈ vs, IsJson v := by
  induction vs with
  | nil => simp [AreJson]
  | cons v vs ih => simp [AreJson, ih]

/-! ## What is read -/

theorem haveJson_setEntries {k : String} {v : JsValue} {es : List (String × JsValue)}
    (hv : IsJson v) (h : HaveJson es) : HaveJson (OrderedMap.setEntries k v es) := by
  induction es with
  | nil => exact ⟨hv, trivial⟩
  | cons e es ih =>
      obtain ⟨he, hes⟩ := h
      unfold OrderedMap.setEntries
      split
      · exact ⟨hv, hes⟩
      · exact ⟨he, ih hes⟩

theorem isJson_spread {o es : List (String × JsValue)} (ho : IsJson (.obj o)) (h : HaveJson es) :
    IsJson (.obj (JsObject.spread o es)) := by
  induction es generalizing o with
  | nil => exact ho
  | cons e es ih =>
      obtain ⟨he, hes⟩ := h
      exact ih ⟨OrderedMap.nodup_setEntries e.1 e.2 ho.1, haveJson_setEntries he ho.2⟩ hes

theorem isJson_of_parseFuel (fuel : Nat) :
    (∀ cs v rest, parseValue fuel cs = some (v, rest) → IsJson v) ∧
      (∀ cs vs rest, parseElements fuel cs = some (vs, rest) → AreJson vs) ∧
        ∀ cs es rest, parseMembers fuel cs = some (es, rest) → HaveJson es := by
  induction fuel with
  | zero => exact ⟨fun _ _ _ h => (by cases h), fun _ _ _ h => (by cases h), fun _ _ _ h => (by cases h)⟩
  | succ fuel ih =>
      obtain ⟨hvalue, helements, hmembers⟩ := ih
      refine ⟨fun cs v rest h => ?_, fun cs vs rest h => ?_, fun cs es rest h => ?_⟩
      · unfold parseValue at h
        split at h
        · cases h
          trivial
        · cases h
          trivial
        · cases h
          trivial
        · obtain ⟨s, -, hs⟩ := Option.map_eq_some_iff.mp h
          cases hs
          trivial
        · split at h
          · cases h
            trivial
          · obtain ⟨⟨vs, rest⟩, hvs, heq⟩ := Option.map_eq_some_iff.mp h
            cases heq
            exact helements _ _ _ hvs
        · split at h
          · cases h
            exact ⟨List.nodup_nil, trivial⟩
          · obtain ⟨⟨es, rest⟩, hes, heq⟩ := Option.map_eq_some_iff.mp h
            cases heq
            exact isJson_spread ⟨List.nodup_nil, trivial⟩ (hmembers _ _ _ hes)
        · obtain ⟨⟨q, rest⟩, hq, heq⟩ := Option.map_eq_some_iff.mp h
          cases heq
          exact decimal_of_parseNumber hq
      · unfold parseElements at h
        split at h
        · cases h
        · rename_i v rest hv
          split at h
          · obtain ⟨⟨vs, rest⟩, hvs, heq⟩ := Option.map_eq_some_iff.mp h
            cases heq
            exact ⟨hvalue _ _ _ hv, helements _ _ _ hvs⟩
          · cases h
            exact ⟨hvalue _ _ _ hv, trivial⟩
          · cases h
      · unfold parseMembers at h
        split at h
        · split at h
          · cases h
          · split at h
            · split at h
              · cases h
              · rename_i v rest hv
                split at h
                · obtain ⟨⟨es, rest⟩, hes, heq⟩ := Option.map_eq_some_iff.mp h
                  cases heq
                  exact ⟨hvalue _ _ _ hv, hmembers _ _ _ hes⟩
                · cases h
                  exact ⟨hvalue _ _ _ hv, trivial⟩
                · cases h
            · cases h
        · cases h

/-- **What is parsed is JSON.** -/
theorem isJson_of_parse {text : String} {v : JsValue} (h : parse text = some v) : IsJson v := by
  unfold parse at h
  split at h
  · rename_i w rest hw
    split at h
    · cases h
      exact (isJson_of_parseFuel _).1 _ _ _ hw
    · cases h
  · cases h

/-! ## What is written -/

theorem IsJson.text {v : JsValue} (h : IsJson v) : ∃ t, stringify? v = some t := by
  cases v with
  | undefined => exact absurd h id
  | inherited name => exact absurd h id
  | null => exact ⟨_, rfl⟩
  | bool b => exact ⟨_, rfl⟩
  | num q => exact ⟨_, rfl⟩
  | str s => exact ⟨_, rfl⟩
  | arr xs => exact ⟨_, rfl⟩
  | obj es => exact ⟨_, rfl⟩

mutual

/-- What is written of a value is a text of it. -/
theorem spells_stringify : ∀ v, IsJson v → ∀ t, stringify? v = some t → Spells v t.toList
  | .undefined, h => absurd h id
  | .inherited _, h => absurd h id
  | .null, _ => by
      intro t ht
      cases ht
      rfl
  | .bool b, _ => by
      intro t ht
      cases ht
      rfl
  | .num q, h => by
      intro t ht
      cases ht
      obtain ⟨t, hwell, htext, hvalue⟩ := numberToString_text h
      exact ⟨t, hwell, hvalue, htext⟩
  | .str s, _ => by
      intro t ht
      cases ht
      rfl
  | .arr xs, h => by
      intro t ht
      cases ht
      refine ⟨_, spellsElements_commaSeparated (spells_stringifyElements xs h), ?_⟩
      simp [String.toList_append]
  | .obj es, h => by
      intro t ht
      cases ht
      refine ⟨h.1, _, spellsMembers_commaSeparated (spells_stringifyMembers es h.2), ?_⟩
      simp [String.toList_append]

theorem spells_stringifyElements : ∀ vs, AreJson vs →
    List.Forall₂ (fun v t => Spells v t.toList) vs (stringifyElements vs)
  | [], _ => .nil
  | v :: vs, h => by
      obtain ⟨t, ht⟩ := h.1.text
      have hv := spells_stringify v h.1 t ht
      rw [stringifyElements, ht]
      exact .cons hv (spells_stringifyElements vs h.2)

theorem spells_stringifyMembers : ∀ es, HaveJson es →
    List.Forall₂ (fun e t => ∃ u, Spells e.2 u.toList ∧ t = quote e.1 ++ ":" ++ u) es
      (stringifyMembers es)
  | [], _ => .nil
  | (k, v) :: es, h => by
      obtain ⟨t, ht⟩ := h.1.text
      have hv := spells_stringify v h.1 t ht
      rw [stringifyMembers, ht]
      exact .cons ⟨t, hv, rfl⟩ (spells_stringifyMembers es h.2)

end

/-- **Parsing undoes writing.** -/
theorem parse_stringify? {v : JsValue} {t : String} (h : IsJson v) (ht : stringify? v = some t) :
    parse t = some v :=
  parse_of_spells (spells_stringify v h t ht)

end MapProtocol.Js
