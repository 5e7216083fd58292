import MapProtocol.Js.Arrangement
import MapProtocol.Js.Whitespace
import MapProtocol.Security.CanonicalNumbers
import MapProtocol.Security.Verification

/-!
# Canonicalisation

`canonicalize` parses a text and writes it again, with the members of objects in order. Here numbers
are doubles. What is written does not depend on the order of members or on spaces in the text
(`canonicalize_congr`, `canonicalize_compact`). It tells two values apart, and is read back as the
value, exactly if each number in them is an integer or the double of a number with at most fifteen
digits after the point (`canonicalize_exact_iff`).
-/

namespace MapProtocol.Doubles

open Js

variable {p : Rat → Prop} {v : JsValue}

mutual

/-- `serializeJcs(value)`, of a value whose numbers are doubles; `none` is its `undefined`. -/
def serializeJcs : JsValue → Option String
  | .undefined   => none
  | .inherited _ => none
  | .null        => some "null"
  | .bool b      => some (if b then "true" else "false")
  | .num n       => some (serializeJcsNumber n)
  | .str s       => some (quote s)
  | .arr xs      => some ("[" ++ commaSeparated (serializeJcsElements xs) ++ "]")
  | .obj es      =>
      let members := (serializeJcsMembers es).insertionSort keyOrder
      some ("\x7b" ++ commaSeparated (members.map fun m => quote m.1 ++ ":" ++ m.2) ++ "\x7d")

def serializeJcsElements : List JsValue → List String
  | []      => []
  | v :: vs => (serializeJcs v).getD "" :: serializeJcsElements vs

def serializeJcsMembers : List (String × JsValue) → List (String × String)
  | []           => []
  | (k, v) :: es => (k, (serializeJcs v).getD "undefined") :: serializeJcsMembers es

end

/-- `JSON.parse(text)`, with the doubles that the literals are read as. -/
def parseDoubles (text : String) : Option JsValue := (parse text).map (mapNumbers toDouble)

/-- `canonicalize(input)`; `none` where `JSON.parse` throws. -/
def canonicalize (input : String) : Option String := (parseDoubles input).bind serializeJcs

/-! ## The order of members -/

instance : Std.Total codeUnitOrder :=
  ⟨fun a b => Std.Total.total (r := (· ≤ ·)) (codeUnits a) (codeUnits b)⟩

instance : IsTrans String codeUnitOrder :=
  ⟨fun a b c hab hbc => show codeUnits a ≤ codeUnits c from
    Trans.trans (show codeUnits a ≤ codeUnits b from hab) (show codeUnits b ≤ codeUnits c from hbc)⟩

/-- The members of an object as they are sorted. -/
def sortedMembers (es : List (String × JsValue)) : List (String × JsValue) :=
  es.insertionSort (MemberOrder codeUnitOrder)

theorem mem_sortedMembers {es : List (String × JsValue)} {e : String × JsValue} :
    e ∈ sortedMembers es ↔ e ∈ es :=
  List.mem_insertionSort _

/-- The value with the members of its objects as they are sorted. -/
def arranged (v : JsValue) : JsValue := ordered codeUnitOrder v

theorem arranged_obj (es : List (String × JsValue)) :
    arranged (.obj es) = .obj ((sortedMembers es).map fun e => (e.1, arranged e.2)) :=
  congrArg JsValue.obj (sorted_orderedMembers codeUnitOrder es)

def memberText (e : String × JsValue) : String :=
  quote e.1 ++ ":" ++ (serializeJcs e.2).getD "undefined"

theorem serializeJcsMembers_eq (es : List (String × JsValue)) :
    serializeJcsMembers es = es.map fun e => (e.1, (serializeJcs e.2).getD "undefined") := by
  induction es with
  | nil => rfl
  | cons e es ih => rw [serializeJcsMembers, ih, List.map_cons]

theorem serializeJcs_obj (es : List (String × JsValue)) :
    serializeJcs (.obj es) =
      some ("\x7b" ++ commaSeparated ((sortedMembers es).map memberText) ++ "\x7d") := by
  have hsort : (serializeJcsMembers es).insertionSort keyOrder =
      (sortedMembers es).map fun e => (e.1, (serializeJcs e.2).getD "undefined") := by
    rw [serializeJcsMembers_eq]
    exact (List.map_insertionSort (MemberOrder codeUnitOrder) keyOrder
      (fun e => (e.1, (serializeJcs e.2).getD "undefined")) es fun _ _ _ _ => Iff.rfl).symm
  rw [serializeJcs, hsort, List.map_map]
  rfl

theorem sortedMembers_arranged (es : List (String × JsValue)) :
    sortedMembers ((sortedMembers es).map fun e => (e.1, arranged e.2)) =
      (sortedMembers es).map fun e => (e.1, arranged e.2) := by
  have hsorted := List.pairwise_insertionSort (MemberOrder codeUnitOrder) es
  exact List.Pairwise.insertionSort_eq (List.pairwise_map.mpr hsorted)

mutual

/-- What is written does not depend on the order of members. -/
theorem serializeJcs_arranged : ∀ v, serializeJcs (arranged v) = serializeJcs v
  | .undefined   => rfl
  | .inherited _ => rfl
  | .null        => rfl
  | .bool _      => rfl
  | .num _       => rfl
  | .str _       => rfl
  | .arr xs      => by
      show some ("[" ++ commaSeparated (serializeJcsElements (orderedElements codeUnitOrder xs)) ++
        "]") = _
      rw [serializeJcsElements_arranged xs]
      rfl
  | .obj es      => by
      have hmembers := serializeJcsMembers_arranged es
      rw [arranged_obj, serializeJcs_obj, serializeJcs_obj, sortedMembers_arranged, List.map_map]
      have htexts : (sortedMembers es).map (memberText ∘ fun e => (e.1, arranged e.2)) =
          (sortedMembers es).map memberText := by
        refine List.map_congr_left fun e he => ?_
        show quote e.1 ++ ":" ++ (serializeJcs (arranged e.2)).getD "undefined" = memberText e
        rw [hmembers e (mem_sortedMembers.mp he)]
        rfl
      rw [htexts]

theorem serializeJcsElements_arranged : ∀ vs,
    serializeJcsElements (orderedElements codeUnitOrder vs) = serializeJcsElements vs
  | []      => rfl
  | v :: vs => by
      have hv : serializeJcs (ordered codeUnitOrder v) = serializeJcs v := serializeJcs_arranged v
      rw [orderedElements, serializeJcsElements, serializeJcsElements, hv,
        serializeJcsElements_arranged vs]

theorem serializeJcsMembers_arranged : ∀ es : List (String × JsValue), ∀ e ∈ es,
    serializeJcs (arranged e.2) = serializeJcs e.2
  | [], e, he           => by cases he
  | (k, v) :: es, e, he => by
      rcases List.mem_cons.mp he with rfl | he
      · exact serializeJcs_arranged v
      · exact serializeJcsMembers_arranged es e he

end

theorem serializeJcs_congr {v w : JsValue} (hv : IsJson v) (hw : IsJson w) (h : SameJson v w) :
    serializeJcs v = serializeJcs w := by
  have harranged : arranged v = arranged w :=
    ordered_eq_of_sameJson codeUnitOrder codeUnitOrder_antisymm hv hw h
  rw [← serializeJcs_arranged v, harranged, serializeJcs_arranged w]

/-! ## Reading canonical texts -/

def EveryNumber (p : Rat → Prop) (v : JsValue) : Prop :=
  ∀ place n, shapeAt v place = some (.num n) → p n

theorem EveryNumber.child {v w : JsValue} {step : PlaceStep} (h : EveryNumber p v)
    (hw : child? v step = some w) : EveryNumber p w := by
  intro place n hn
  refine h (step :: place) n ?_
  rw [shapeAt, hw]
  exact hn

theorem EveryNumber.element {xs : List JsValue} (h : EveryNumber p (.arr xs)) (hv : v ∈ xs) :
    EveryNumber p v := by
  obtain ⟨i, hi⟩ := List.mem_iff_getElem?.mp hv
  have hchild : child? (.arr xs) (.element i) = some v := hi
  exact h.child hchild

theorem EveryNumber.memberValue {es : List (String × JsValue)} {e : String × JsValue}
    (hnodup : (es.map Prod.fst).Nodup) (h : EveryNumber p (.obj es)) (he : e ∈ es) :
    EveryNumber p e.2 := by
  have hchild : child? (.obj es) (.member e.1) = some e.2 :=
    (OrderedMap.getEntries_eq_some hnodup).mpr he
  exact h.child hchild

def IsDouble (n : Rat) : Prop := toDouble n = n ∧ isFinite n = true

mutual

/-- **What is written is a text** of the arranged value, with the numbers that are written. -/
theorem spells_serializeJcs : ∀ v, IsJson v → EveryNumber IsDouble v →
    ∃ t, serializeJcs v = some t ∧ Spells (mapNumbers written (arranged v)) t.toList
  | .undefined, h, _   => absurd h id
  | .inherited _, h, _ => absurd h id
  | .null, _, _        => ⟨_, rfl, rfl⟩
  | .bool _, _, _      => ⟨_, rfl, rfl⟩
  | .num n, _, h       => ⟨_, rfl, by
      obtain ⟨hdouble, hfinite⟩ := h [] n rfl
      exact serializeJcsNumber_text hdouble hfinite⟩
  | .str _, _, _       => ⟨_, rfl, rfl⟩
  | .arr xs, h, hnum   => by
      have helements := spells_serializeJcsElements xs h fun v hv => hnum.element hv
      refine ⟨_, rfl, _, spellsElements_commaSeparated helements, ?_⟩
      simp [String.toList_append]
  | .obj es, h, hnum   => by
      have hmembers := spells_serializeJcsMembers es h.2 fun e he => hnum.memberValue h.1 he
      have htexts : List.Forall₂ (fun e t => ∃ u, Spells e.2 u.toList ∧ t = quote e.1 ++ ":" ++ u)
          ((sortedMembers es).map fun e => (e.1, mapNumbers written (arranged e.2)))
          ((sortedMembers es).map memberText) := by
        rw [List.forall₂_map_left_iff, List.forall₂_map_right_iff, List.forall₂_same]
        intro e he
        obtain ⟨t, ht, hspells⟩ := hmembers e (mem_sortedMembers.mp he)
        refine ⟨t, hspells, ?_⟩
        unfold memberText
        rw [ht]
        rfl
      refine ⟨_, serializeJcs_obj es, ?_⟩
      -- texts and members are sorted alike
      rw [arranged_obj, mapNumbers, mapMembers_eq, List.map_map]
      refine ⟨?_, _, spellsMembers_commaSeparated htexts, by simp [String.toList_append]⟩
      rw [List.map_map]
      exact ((List.perm_insertionSort _ es).map Prod.fst).nodup_iff.mpr h.1

theorem spells_serializeJcsElements : ∀ vs, AreJson vs → (∀ v ∈ vs, EveryNumber IsDouble v) →
    List.Forall₂ (fun v t => Spells v t.toList)
      (mapElements written (orderedElements codeUnitOrder vs)) (serializeJcsElements vs)
  | [], _, _         => .nil
  | v :: vs, h, hnum => by
      obtain ⟨t, ht, hspells⟩ := spells_serializeJcs v h.1 (hnum v List.mem_cons_self)
      rw [orderedElements, mapElements, serializeJcsElements, ht]
      exact .cons hspells
        (spells_serializeJcsElements vs h.2 fun w hw => hnum w (List.mem_cons_of_mem v hw))

theorem spells_serializeJcsMembers : ∀ es : List (String × JsValue), HaveJson es →
    (∀ e ∈ es, EveryNumber IsDouble e.2) → ∀ e ∈ es, ∃ t, serializeJcs e.2 = some t ∧
      Spells (mapNumbers written (arranged e.2)) t.toList
  | [], _, _, e, he              => by cases he
  | (k, v) :: es, h, hnum, e, he => by
      rcases List.mem_cons.mp he with rfl | he
      · exact spells_serializeJcs v h.1 (hnum _ List.mem_cons_self)
      · exact spells_serializeJcsMembers es h.2 (fun e he => hnum e (List.mem_cons_of_mem _ he)) e he

end

def readBack (v : JsValue) : JsValue := mapNumbers toDouble (mapNumbers written (arranged v))

section Readings

variable {s t : String} {v w : JsValue}

theorem isJson_of_parseDoubles (h : parseDoubles s = some v) : IsJson v := by
  obtain ⟨u, hu, rfl⟩ := Option.map_eq_some_iff.mp h
  exact isJson_mapNumbers decimal_toDouble u (isJson_of_parse hu)

theorem everyNumber_of_parseDoubles (h : parseDoubles s = some v) :
    EveryNumber (fun n => toDouble n = n) v := by
  obtain ⟨u, -, rfl⟩ := Option.map_eq_some_iff.mp h
  intro place n hn
  rw [shapeAt_mapNumbers] at hn
  obtain ⟨shape, -, hshape⟩ := Option.map_eq_some_iff.mp hn
  cases shape with
  | num q =>
      cases hshape
      exact toDouble_toDouble q
  | _ => cases hshape

theorem canonicalize_eq (h : parseDoubles s = some v) : canonicalize s = serializeJcs v := by
  unfold canonicalize
  rw [h]
  rfl

theorem isDouble_of_parseDoubles (h : parseDoubles s = some v)
    (hfinite : EveryNumber (fun n => isFinite n = true) v) : EveryNumber IsDouble v :=
  fun place n hn => ⟨everyNumber_of_parseDoubles h place n hn, hfinite place n hn⟩

theorem parseDoubles_canonical (h : parseDoubles s = some v)
    (hfinite : EveryNumber (fun n => isFinite n = true) v) :
    ∃ c, canonicalize s = some c ∧ parseDoubles c = some (readBack v) := by
  obtain ⟨c, hc, hspells⟩ := spells_serializeJcs v (isJson_of_parseDoubles h)
    (isDouble_of_parseDoubles h hfinite)
  refine ⟨c, (canonicalize_eq h).trans hc, ?_⟩
  unfold parseDoubles
  rw [parse_of_spells hspells]
  rfl

/-- **A value is read back exactly if each of its numbers is.** -/
theorem sameJson_readBack_iff (h : parseDoubles s = some v)
    (hfinite : EveryNumber (fun n => isFinite n = true) v) :
    SameJson (readBack v) v ↔ EveryNumber Kept v := by
  have hjson := isJson_of_parseDoubles h
  have hshape : ∀ place, shapeAt (readBack v) place =
      (shapeAt v place).map fun shape => (shape.map written).map toDouble := by
    intro place
    unfold readBack arranged
    rw [shapeAt_mapNumbers, shapeAt_mapNumbers, shapeAt_ordered _ hjson, Option.map_map]
    rfl
  constructor
  · intro hsame place n hn
    have hplace := hsame place
    rw [hshape, hn] at hplace
    rw [← toDouble_written_iff (everyNumber_of_parseDoubles h place n hn) (hfinite place n hn)]
    simpa [Shape.map] using hplace
  · intro hkept place
    rw [hshape]
    cases hn : shapeAt v place with
    | none => rfl
    | some shape =>
        cases shape with
        | num n =>
            have hback := (toDouble_written_iff (everyNumber_of_parseDoubles h place n hn)
              (hfinite place n hn)).mpr (hkept place n hn)
            simp [Shape.map, hback]
        | _ => rfl

/-- **The order of members does not matter.** -/
theorem canonicalize_congr (hs : parseDoubles s = some v) (ht : parseDoubles t = some w)
    (h : SameJson v w) : canonicalize s = canonicalize t := by
  rw [canonicalize_eq hs, canonicalize_eq ht]
  exact serializeJcs_congr (isJson_of_parseDoubles hs) (isJson_of_parseDoubles ht) h

/-- **Spaces do not matter.** -/
theorem canonicalize_compact (hs : (parse s).isSome = true) (ht : (parse t).isSome = true)
    (h : compactText s = compactText t) : canonicalize s = canonicalize t := by
  obtain ⟨u, hu⟩ := Option.isSome_iff_exists.mp hs
  obtain ⟨u', hu'⟩ := Option.isSome_iff_exists.mp ht
  have heq : parse s = parse t := by
    rw [hu, hu', ← parse_compact hu, ← parse_compact hu', h]
  unfold canonicalize parseDoubles
  rw [heq]

end Readings

/-! ## Exactness -/

/-- The text of `v` is read back as a value equal to `v`, and its canonical text is its own. -/
structure ReadsBack (s : String) (v : JsValue) : Prop where
  value      : ∃ c v', canonicalize s = some c ∧ parseDoubles c = some v' ∧ SameJson v' v
  idempotent : (canonicalize s).bind canonicalize = canonicalize s

/-- What canonicalisation is to do with the texts `s` of `v` and `t` of `w`. -/
structure Exact (s t : String) (v w : JsValue) : Prop where
  same   : canonicalize s = canonicalize t ↔ SameJson v w
  left   : ReadsBack s v
  right  : ReadsBack t w
  spaces : ∀ u, (parse u).isSome = true → compactText u = compactText s →
    canonicalize u = canonicalize s

theorem readsBack_iff {s : String} (h : parseDoubles s = some v)
    (hfinite : EveryNumber (fun n => isFinite n = true) v) :
    ReadsBack s v ↔ EveryNumber Kept v := by
  obtain ⟨c, hc, hback⟩ := parseDoubles_canonical h hfinite
  rw [← sameJson_readBack_iff h hfinite]
  constructor
  · rintro ⟨⟨c', v', hc', hv', hsame⟩, -⟩
    obtain rfl : c = c' := Option.some.inj (hc.symm.trans hc')
    obtain rfl : readBack v = v' := Option.some.inj (hback.symm.trans hv')
    exact hsame
  · intro hsame
    refine ⟨⟨c, readBack v, hc, hback, hsame⟩, ?_⟩
    rw [hc, Option.bind_some, canonicalize_congr hback h hsame, hc]

theorem parseDoubles_literal {t : NumberText} (h : t.WellFormed) :
    parseDoubles (String.ofList t.chars) = some (.num (toDouble t.value)) := by
  have hspells : Spells (.num t.value) (String.ofList t.chars).toList :=
    ⟨t, h, rfl, String.toList_ofList⟩
  unfold parseDoubles
  rw [parse_of_spells hspells]
  rfl

theorem everyNumber_num {n : Rat} (h : p n) : EveryNumber p (.num n) := by
  intro place m hm
  cases place with
  | nil =>
      cases hm
      exact h
  | cons step place => cases step <;> cases hm

/-- **Canonicalisation is exact** for two texts exactly if each of their numbers is an integer or the
double of a number with at most fifteen digits after the point. -/
theorem canonicalize_exact_iff {s t : String} {v w : JsValue} (hs : parseDoubles s = some v)
    (ht : parseDoubles t = some w) (hv : EveryNumber (fun n => isFinite n = true) v)
    (hw : EveryNumber (fun n => isFinite n = true) w) :
    Exact s t v w ↔ EveryNumber Kept v ∧ EveryNumber Kept w := by
  rw [← readsBack_iff hs hv, ← readsBack_iff ht hw]
  constructor
  · intro h
    exact ⟨h.left, h.right⟩
  · rintro ⟨hleft, hright⟩
    refine ⟨⟨fun heq => ?_, canonicalize_congr hs ht⟩, hleft, hright, fun u hu hspaces => ?_⟩
    · -- the one canonical text is read back as both values
      obtain ⟨c, v', hc, hv', hsame⟩ := hleft.value
      obtain ⟨c', w', hc', hw', hsame'⟩ := hright.value
      obtain rfl : c = c' := Option.some.inj (hc.symm.trans (heq.trans hc'))
      obtain rfl : v' = w' := Option.some.inj (hv'.symm.trans hw')
      exact hsame.symm.trans hsame'
    · have hparse : (parse s).isSome = true := by
        obtain ⟨u', hu', -⟩ := Option.map_eq_some_iff.mp hs
        rw [hu']
        rfl
      exact canonicalize_compact hu hparse hspaces

/-- A tenth, written in two ways, has one canonical text. -/
theorem canonicalize_exact_tenth : Exact "0.10" "1e-1" (.num (toDouble (1 / 10)))
    (.num (toDouble (1 / 10))) := by
  have hs : parseDoubles "0.10" = some (.num (toDouble (1 / 10))) :=
    (parseDoubles_literal (t := ⟨false, ['0'], ['1', '0'], none⟩)
      ⟨by simp, by simp [isDigit], by simp, by simp [isDigit], by simp⟩).trans
        (by rw [show NumberText.value ⟨false, ['0'], ['1', '0'], none⟩ = 1 / 10 by decide +kernel])
  have ht : parseDoubles "1e-1" = some (.num (toDouble (1 / 10))) :=
    (parseDoubles_literal (t := ⟨false, ['1'], [], some (true, ['1'])⟩)
      ⟨by simp, by simp [isDigit], by simp, by simp, by simp [isDigit]⟩).trans
        (by rw [show NumberText.value ⟨false, ['1'], [], some (true, ['1'])⟩ = 1 / 10 by
          decide +kernel])
  have hfinite : EveryNumber (fun n => isFinite n = true) (.num (toDouble (1 / 10))) :=
    everyNumber_num (by decide +kernel)
  have hkept : EveryNumber Kept (.num (toDouble (1 / 10))) :=
    everyNumber_num (.inr ⟨10 ^ 14, by decide +kernel⟩)
  exact (canonicalize_exact_iff hs ht hfinite hfinite).mpr ⟨hkept, hkept⟩

/-- The sum that a program computes of `0.1` and `0.2` has the canonical text of `0.3`. -/
theorem canonicalize_not_exact : ∃ v w, parseDoubles "0.30000000000000004" = some v ∧
    parseDoubles "0.3" = some w ∧ ¬ SameJson v w ∧
      canonicalize "0.30000000000000004" = canonicalize "0.3" := by
  have hs := parseDoubles_literal (t := ⟨false, ['0'], '3' :: (List.replicate 15 '0' ++ ['4']), none⟩)
    ⟨by simp, by simp [isDigit], by simp, by simp [isDigit], by simp⟩
  have ht := parseDoubles_literal (t := ⟨false, ['0'], ['3'], none⟩)
    ⟨by simp, by simp [isDigit], by simp, by simp [isDigit], by simp⟩
  refine ⟨_, _, hs, ht, fun h => ?_, by decide +kernel⟩
  have hplace := h []
  simp only [shapeAt, shape?, Option.some.injEq, Shape.num.injEq] at hplace
  exact absurd hplace (by decide +kernel)

end MapProtocol.Doubles
