import MapProtocol.Js.JsonNumbers
import MapProtocol.Js.JsonStrings

/-!
# Texts of JSON values

`Spells v cs`: the characters are a text of the value without spaces between its tokens. A number may be
written as any literal that denotes it. Such a text is read back as the value (`parse_of_spells`). The
induction is on the value; what carries it is the fuel, of which no value spends more than two units
for each of its characters.
-/

namespace MapProtocol.Js

open NumberText

variable {es : List (String × JsValue)} {c : Char} {cs : List Char} {v : JsValue}

/-! ## Texts -/

mutual

def Spells : JsValue → List Char → Prop
  | .undefined, _   => False
  | .inherited _, _ => False
  | .null, cs       => cs = "null".toList
  | .bool b, cs     => cs = (if b then "true" else "false").toList
  | .num q, cs      => ∃ t : NumberText, t.WellFormed ∧ t.value = q ∧ cs = t.chars
  | .str s, cs      => cs = (quote s).toList
  | .arr xs, cs     => ∃ body, SpellsElements xs body ∧ cs = '[' :: (body ++ [']'])
  | .obj es, cs     => (es.map Prod.fst).Nodup ∧
      ∃ body, SpellsMembers es body ∧ cs = '\x7b' :: (body ++ ['\x7d'])

def SpellsElements : List JsValue → List Char → Prop
  | [], cs           => cs = []
  | [v], cs          => Spells v cs
  | v :: w :: vs, cs => ∃ t body, Spells v t ∧ SpellsElements (w :: vs) body ∧ cs = t ++ ',' :: body

def SpellsMembers : List (String × JsValue) → List Char → Prop
  | [], cs                => cs = []
  | [(k, v)], cs          => ∃ t, Spells v t ∧ cs = (quote k).toList ++ ':' :: t
  | (k, v) :: e :: es, cs => ∃ t body, Spells v t ∧ SpellsMembers (e :: es) body ∧
      cs = (quote k).toList ++ ':' :: (t ++ ',' :: body)

end

theorem spellsElements_commaSeparated {vs : List JsValue} {ts : List String}
    (h : List.Forall₂ (fun v t => Spells v t.toList) vs ts) :
    SpellsElements vs (commaSeparated ts).toList := by
  induction h with
  | nil => rfl
  | @cons v t vs ts hv hvs ih =>
      cases hvs with
      | nil => simpa [commaSeparated, SpellsElements] using hv
      | @cons w u vs ts hw hvs =>
          refine ⟨t.toList, _, hv, ih, ?_⟩
          simp [commaSeparated, String.toList_append]

theorem spellsMembers_commaSeparated {ts : List String}
    (h : List.Forall₂ (fun e t => ∃ u, Spells e.2 u.toList ∧ t = quote e.1 ++ ":" ++ u) es ts) :
    SpellsMembers es (commaSeparated ts).toList := by
  induction h with
  | nil => rfl
  | @cons e t es ts he hes ih =>
      obtain ⟨k, v⟩ := e
      obtain ⟨u, hu, rfl⟩ := he
      cases hes with
      | nil => exact ⟨u.toList, hu, by simp [commaSeparated, String.toList_append]⟩
      | @cons e t es ts he hes =>
          refine ⟨u.toList, _, hu, ih, ?_⟩
          simp [commaSeparated, String.toList_append]

/-! ## The kinds of values, read -/

theorem skipSpace_cons (h : isJsonSpace c = false) (cs : List Char) :
    skipSpace (c :: cs) = c :: cs := by
  simp [skipSpace, h]

theorem number_head (h : isDigit c = true ∨ c = '-') : isJsonSpace c = false ∧
    c ∉ ['n', 't', 'f', '"', '[', ']', '\x7b'] := by
  have hrange : ('0' ≤ c ∧ c ≤ '9') ∨ c = '-' := by
    refine h.imp (fun hdigit => ?_) id
    simpa [isDigit] using hdigit
  have hne (d : Char) (hd : ¬(('0' ≤ d ∧ d ≤ '9') ∨ d = '-')) : c ≠ d := by
    rintro rfl
    exact hd hrange
  refine ⟨?_, ?_⟩
  · simp [isJsonSpace, hne ' ' (by decide), hne '\t' (by decide), hne '\n' (by decide),
      hne '\r' (by decide)]
  · simp [hne 'n' (by decide), hne 't' (by decide), hne 'f' (by decide), hne '"' (by decide),
      hne '[' (by decide), hne ']' (by decide), hne '\x7b' (by decide)]

theorem parseValue_number (h : isDigit c = true ∨ c = '-') (fuel : Nat) (cs : List Char) :
    parseValue (fuel + 1) (c :: cs) =
      (parseNumber (c :: cs)).map fun (n, rest) => (.num n, rest) := by
  obtain ⟨hspace, hkinds⟩ := number_head h
  unfold parseValue
  rw [skipSpace_cons hspace]
  split <;> rename_i heq <;> first | (cases heq; exact absurd (by simp) hkinds) | rfl

theorem parseValue_str (s : String) (fuel : Nat) (rest : List Char) :
    parseValue (fuel + 1) ((quote s).toList ++ rest) = some (.str s, rest) := by
  have hread := parseString_escaped s rest
  simp [quote, parseValue, skipSpace_cons (c := '"') (by decide), hread]

theorem parseValue_bracket {fuel : Nat} {cs : List Char} (h : (skipSpace cs).head? ≠ some ']') :
    parseValue (fuel + 1) ('[' :: cs) =
      (parseElements fuel (skipSpace cs)).map fun (vs, rest) => (.arr vs, rest) := by
  simp only [parseValue, skipSpace_cons (c := '[') (by decide)]
  split
  · rename_i heq
    rw [heq] at h
    exact absurd rfl h
  · rfl

theorem parseValue_brace {fuel : Nat} (h : (skipSpace cs).head? ≠ some '\x7d') :
    parseValue (fuel + 1) ('\x7b' :: cs) = (parseMembers fuel (skipSpace cs)).map
      fun (es, rest) => (.obj (JsObject.spread [] es), rest) := by
  simp only [parseValue, skipSpace_cons (c := '\x7b') (by decide)]
  split
  · rename_i heq
    rw [heq] at h
    exact absurd rfl h
  · rfl

theorem spread_nil (h : (es.map Prod.fst).Nodup) :
    JsObject.spread [] es = es := by
  have hspread : ∀ (es o : List (String × JsValue)), ((o ++ es).map Prod.fst).Nodup →
      JsObject.spread o es = o ++ es := by
    intro es
    induction es with
    | nil => exact fun o _ => (List.append_nil o).symm
    | cons e es ih =>
        intro o ho
        have hnew : OrderedMap.getEntries e.1 o = none := by
          refine OrderedMap.getEntries_eq_none.mpr fun hmem => ?_
          rw [List.map_append, List.nodup_append] at ho
          exact ho.2.2 e.1 hmem e.1 (by simp) rfl
        show JsObject.spread (OrderedMap.setEntries e.1 e.2 o) es = _
        rw [OrderedMap.setEntries_of_get_none hnew, ih _ (by simpa using ho)]
        simp
  exact hspread es [] h

theorem stops_of {c : Char} (h : c = ',' ∨ c = ']' ∨ c = '\x7d') (rest : List Char) :
    Stops (c :: rest) := by
  intro d hd
  cases hd
  rcases h with rfl | rfl | rfl <;> decide

/-- A key is read back, and what follows its colon is left. -/
theorem parseMembers_key (k : String) (fuel : Nat) (cs : List Char) :
    parseMembers (fuel + 1) ((quote k).toList ++ ':' :: cs) =
      (parseValue fuel cs).bind fun (v, rest) =>
        match skipSpace rest with
        | ',' :: rest    => (parseMembers fuel rest).map fun (es, rest) => ((k, v) :: es, rest)
        | '\x7d' :: rest => some ([(k, v)], rest)
        | _              => none := by
  have hread := parseString_escaped k (':' :: cs)
  simp only [quote, String.toList_ofList, List.cons_append, List.append_assoc, List.nil_append,
    parseMembers, skipSpace_cons (c := '"') (by decide), hread, skipSpace_cons (c := ':') (by decide)]
  cases parseValue fuel cs with
  | none => rfl
  | some r => rfl

theorem head_chars {t : NumberText} (h : t.WellFormed) :
    ∃ c cs, t.chars = c :: cs ∧ (isDigit c = true ∨ c = '-') := by
  obtain ⟨d, ds, hwhole⟩ := List.exists_cons_of_ne_nil h.nonempty
  have hdigit : isDigit d = true := h.whole d (by rw [hwhole]; exact List.mem_cons_self)
  unfold chars unsignedChars
  rw [hwhole]
  cases t.negative with
  | true => exact ⟨_, _, rfl, .inr rfl⟩
  | false => exact ⟨_, _, rfl, .inl hdigit⟩

theorem head_spells (h : Spells v cs) :
    ∃ c rest, cs = c :: rest ∧ isJsonSpace c = false ∧ c ≠ ']' := by
  cases v with
  | undefined => exact absurd h id
  | inherited name => exact absurd h id
  | null => exact ⟨'n', _, h, by decide⟩
  | bool b =>
      cases b with
      | true => exact ⟨'t', _, h, by decide⟩
      | false => exact ⟨'f', _, h, by decide⟩
  | num q =>
      obtain ⟨t, hwell, -, rfl⟩ := h
      obtain ⟨c, rest, htext, hc⟩ := head_chars hwell
      obtain ⟨hspace, hkinds⟩ := number_head hc
      exact ⟨c, rest, htext, hspace, fun heq => hkinds (by simp [heq])⟩
  | str s => exact ⟨'"', s.toList.flatMap escapeChar ++ ['"'], h.trans (by simp [quote]), by decide⟩
  | arr xs =>
      obtain ⟨body, -, rfl⟩ := h
      exact ⟨'[', _, rfl, by decide⟩
  | obj es =>
      obtain ⟨-, body, -, rfl⟩ := h
      exact ⟨'\x7b', _, rfl, by decide⟩

theorem head_spellsElements {vs : List JsValue} (h : SpellsElements (v :: vs) cs) :
    ∃ c rest, cs = c :: rest ∧ isJsonSpace c = false ∧ c ≠ ']' := by
  cases vs with
  | nil => exact head_spells h
  | cons w vs =>
      obtain ⟨t, body, hv, -, rfl⟩ := h
      obtain ⟨c, rest, rfl, hc⟩ := head_spells hv
      exact ⟨c, _, rfl, hc⟩

theorem head_spellsMembers {e : String × JsValue} (h : SpellsMembers (e :: es) cs) :
    ∃ rest, cs = '"' :: rest := by
  obtain ⟨k, v⟩ := e
  cases es with
  | nil =>
      obtain ⟨t, -, rfl⟩ := h
      exact ⟨_, by simp [quote]; rfl⟩
  | cons e es =>
      obtain ⟨t, body, -, -, rfl⟩ := h
      exact ⟨_, by simp [quote]; rfl⟩

/-! ## Reading a text -/

mutual

/-- A value is read back from its text, whatever follows it. -/
theorem parseValue_of_spells : ∀ v cs, Spells v cs → ∀ fuel rest, 2 * cs.length ≤ fuel →
    Stops rest → parseValue fuel (cs ++ rest) = some (v, rest)
  | .undefined, _, h => absurd h id
  | .inherited _, _, h => absurd h id
  | .null, _, h => by
      intro fuel rest hfuel _
      rw [Spells] at h
      subst h
      obtain ⟨fuel, rfl⟩ : ∃ f, fuel = f + 1 := ⟨fuel - 1, by simp at hfuel; omega⟩
      simp [parseValue, skipSpace_cons (c := 'n') (by decide)]
  | .bool b, _, h => by
      intro fuel rest hfuel _
      rw [Spells] at h
      subst h
      cases b with
      | true =>
          obtain ⟨fuel, rfl⟩ : ∃ f, fuel = f + 1 := ⟨fuel - 1, by simp at hfuel; omega⟩
          simp [parseValue, skipSpace_cons (c := 't') (by decide)]
      | false =>
          obtain ⟨fuel, rfl⟩ : ∃ f, fuel = f + 1 := ⟨fuel - 1, by simp at hfuel; omega⟩
          simp [parseValue, skipSpace_cons (c := 'f') (by decide)]
  | .num q, _, h => by
      intro fuel rest hfuel hrest
      obtain ⟨t, hwell, rfl, rfl⟩ := h
      have hread := parseNumber_text hwell hrest
      obtain ⟨c, cs, htext, hc⟩ := head_chars hwell
      rw [htext] at hfuel hread ⊢
      obtain ⟨fuel, rfl⟩ : ∃ f, fuel = f + 1 := ⟨fuel - 1, by simp at hfuel; omega⟩
      rw [List.cons_append] at hread ⊢
      rw [parseValue_number hc, hread]
      rfl
  | .str s, _, h => by
      intro fuel rest hfuel _
      rw [Spells] at h
      subst h
      obtain ⟨fuel, rfl⟩ : ∃ f, fuel = f + 1 := ⟨fuel - 1, by simp [quote] at hfuel; omega⟩
      exact parseValue_str s fuel rest
  | .arr [], _, h => by
      intro fuel rest hfuel _
      obtain ⟨body, rfl, rfl⟩ := h
      obtain ⟨fuel, rfl⟩ : ∃ f, fuel = f + 1 := ⟨fuel - 1, by simp at hfuel; omega⟩
      simp [parseValue, skipSpace_cons (c := '[') (by decide), skipSpace_cons (c := ']') (by decide)]
  | .arr (v :: vs), _, h => by
      intro fuel rest hfuel _
      obtain ⟨body, hbody, rfl⟩ := h
      obtain ⟨fuel, rfl⟩ : ∃ f, fuel = f + 1 := ⟨fuel - 1, by simp at hfuel; omega⟩
      have hread := parseElements_of_spells (v :: vs) body (by simp) hbody fuel rest
        (by simp at hfuel ⊢; omega)
      -- the first element does not look like the end of an empty array
      obtain ⟨c, cs, rfl, hspace, hbracket⟩ := head_spellsElements hbody
      rw [List.cons_append, List.append_assoc, List.singleton_append]
      rw [List.cons_append] at hread ⊢
      have hskip := skipSpace_cons hspace (cs ++ ']' :: rest)
      rw [parseValue_bracket (by rw [hskip]; simpa using hbracket), hskip, hread]
      rfl
  | .obj [], _, h => by
      intro fuel rest hfuel _
      obtain ⟨-, body, rfl, rfl⟩ := h
      obtain ⟨fuel, rfl⟩ : ∃ f, fuel = f + 1 := ⟨fuel - 1, by simp at hfuel; omega⟩
      simp [parseValue, skipSpace_cons (c := '\x7b') (by decide),
        skipSpace_cons (c := '\x7d') (by decide)]
  | .obj (e :: es), _, h => by
      intro fuel rest hfuel _
      obtain ⟨hnodup, body, hbody, rfl⟩ := h
      obtain ⟨fuel, rfl⟩ : ∃ f, fuel = f + 1 := ⟨fuel - 1, by simp at hfuel; omega⟩
      have hread := parseMembers_of_spells (e :: es) body (by simp) hbody fuel rest
        (by simp at hfuel ⊢; omega)
      obtain ⟨cs, rfl⟩ := head_spellsMembers hbody
      rw [List.cons_append, List.append_assoc, List.singleton_append]
      rw [List.cons_append] at hread ⊢
      have hskip := skipSpace_cons (c := '"') (by decide) (cs ++ '\x7d' :: rest)
      rw [parseValue_brace (by rw [hskip]; simp), hskip, hread]
      show some (JsValue.obj (JsObject.spread [] (e :: es)), rest) = _
      rw [spread_nil hnodup]

theorem parseElements_of_spells : ∀ vs cs, vs ≠ [] → SpellsElements vs cs → ∀ fuel rest,
    2 * cs.length + 1 ≤ fuel → parseElements fuel (cs ++ ']' :: rest) = some (vs, rest)
  | [], _, hne => absurd rfl hne
  | [v], cs, _ => by
      intro h fuel rest hfuel
      obtain ⟨fuel, rfl⟩ : ∃ f, fuel = f + 1 := ⟨fuel - 1, by omega⟩
      have hv := parseValue_of_spells v cs h fuel (']' :: rest) (by omega)
        (stops_of (.inr (.inl rfl)) rest)
      simp [parseElements, hv, skipSpace_cons (c := ']') (by decide)]
  | v :: w :: vs, _, _ => by
      intro h fuel rest hfuel
      obtain ⟨t, body, hv, hvs, rfl⟩ := h
      simp only [List.length_append, List.length_cons] at hfuel
      obtain ⟨fuel, rfl⟩ : ∃ f, fuel = f + 1 := ⟨fuel - 1, by omega⟩
      have hvs := parseElements_of_spells (w :: vs) body (by simp) hvs fuel rest (by omega)
      have hv := parseValue_of_spells v t hv fuel (',' :: (body ++ ']' :: rest)) (by omega)
        (stops_of (.inl rfl) _)
      simp [parseElements, hv, skipSpace_cons (c := ',') (by decide), hvs]

theorem parseMembers_of_spells : ∀ es cs, es ≠ [] → SpellsMembers es cs → ∀ fuel rest,
    2 * cs.length + 1 ≤ fuel → parseMembers fuel (cs ++ '\x7d' :: rest) = some (es, rest)
  | [], _, hne => absurd rfl hne
  | [(k, v)], _, _ => by
      intro h fuel rest hfuel
      obtain ⟨t, hv, rfl⟩ := h
      simp only [List.length_append, List.length_cons] at hfuel
      obtain ⟨fuel, rfl⟩ : ∃ f, fuel = f + 1 := ⟨fuel - 1, by omega⟩
      have hv := parseValue_of_spells v t hv fuel ('\x7d' :: rest) (by omega)
        (stops_of (.inr (.inr rfl)) rest)
      rw [List.append_assoc, List.cons_append, parseMembers_key, hv]
      simp [skipSpace_cons (c := '\x7d') (by decide)]
  | (k, v) :: e :: es, _, _ => by
      intro h fuel rest hfuel
      obtain ⟨t, body, hv, hes, rfl⟩ := h
      simp only [List.length_append, List.length_cons] at hfuel
      obtain ⟨fuel, rfl⟩ : ∃ f, fuel = f + 1 := ⟨fuel - 1, by omega⟩
      have hes := parseMembers_of_spells (e :: es) body (by simp) hes fuel rest (by omega)
      have hv := parseValue_of_spells v t hv fuel (',' :: (body ++ '\x7d' :: rest)) (by omega)
        (stops_of (.inl rfl) _)
      rw [List.append_assoc, List.cons_append, List.append_assoc, List.cons_append,
        parseMembers_key, hv]
      simp [skipSpace_cons (c := ',') (by decide), hes]

end

/-- **A text of a value is parsed as the value.** -/
theorem parse_of_spells {t : String} (h : Spells v t.toList) : parse t = some v := by
  have hread := parseValue_of_spells v t.toList h (2 * t.toList.length + 2) [] (by omega)
    (fun c hc => by cases hc)
  rw [List.append_nil] at hread
  unfold parse
  rw [hread]
  rfl

end MapProtocol.Js
