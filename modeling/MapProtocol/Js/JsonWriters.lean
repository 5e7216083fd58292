import MapProtocol.Js.Arrangement
import Mathlib.Data.List.Perm.Basic

/-!
# Writers of JSON texts

The sources write JSON in more than one way: the members of an object are put into some order first,
and a number may be rounded. `JsonWriter` is what such writers share. Whatever the order is, the text
of a value is a JSON text of that value up to the order of members, with the numbers that are written
(`text_spells`); so a text tells apart all values that differ otherwise (`sameJson_of_text`).
-/

namespace MapProtocol.Js

open NumberText

/-! ## Numbers that stay as they are -/

mutual

theorem mapNumbers_id : ∀ v, mapNumbers (fun q => q) v = v
  | .undefined   => rfl
  | .inherited _ => rfl
  | .null        => rfl
  | .bool _      => rfl
  | .num _       => rfl
  | .str _       => rfl
  | .arr xs      => congrArg JsValue.arr (mapElements_id xs)
  | .obj es      => congrArg JsValue.obj (mapMembers_id es)

theorem mapElements_id : ∀ vs, mapElements (fun q => q) vs = vs
  | []      => rfl
  | v :: vs => congrArg₂ List.cons (mapNumbers_id v) (mapElements_id vs)

theorem mapMembers_id : ∀ es : List (String × JsValue), mapMembers (fun q => q) es = es
  | []           => rfl
  | (k, v) :: es => congrArg₂ List.cons (congrArg (Prod.mk k) (mapNumbers_id v)) (mapMembers_id es)

end

/-! ## Writers -/

/-- How a value is written. -/
structure JsonWriter where
  number        : Rat → String
  /-- The order of the members, each with its text. -/
  arrange       : List (String × String) → List (String × String)
  /-- What stands for an element, or the value of a member, that has no text. -/
  noElement     : String
  noValue       : String
  /-- The number that the text of a number denotes. -/
  denoted       : Rat → Rat
  number_spells : ∀ q, Decimal q →
    ∃ t : NumberText, t.WellFormed ∧ (number q).toList = t.chars ∧ t.value = denoted q
  arrange_perm  : ∀ es, (arrange es).Perm es

namespace JsonWriter

variable (writer : JsonWriter)
variable {es fs : List (String × JsValue)}

mutual

def text : JsValue → Option String
  | .undefined   => none
  | .inherited _ => none
  | .null        => some "null"
  | .bool b      => some (if b then "true" else "false")
  | .num n       => some (writer.number n)
  | .str s       => some (quote s)
  | .arr xs      => some ("[" ++ commaSeparated (elements xs) ++ "]")
  | .obj es      =>
      some ("\x7b" ++ commaSeparated ((writer.arrange (members es)).map fun m =>
        quote m.1 ++ ":" ++ m.2) ++ "\x7d")

def elements : List JsValue → List String
  | []      => []
  | v :: vs => (text v).getD writer.noElement :: elements vs

def members : List (String × JsValue) → List (String × String)
  | []           => []
  | (k, v) :: es => (k, (text v).getD writer.noValue) :: members es

end

/-! ## Values up to the order of members -/

theorem sameJson_arr {xs ys : List JsValue} (h : List.Forall₂ SameJson xs ys) :
    SameJson (.arr xs) (.arr ys) := by
  intro place
  cases place with
  | nil => exact congrArg (fun n => some (Shape.arr n)) h.length_eq
  | cons step place =>
      cases step with
      | member k => rfl
      | element i =>
          show (xs[i]?).bind _ = (ys[i]?).bind _
          induction h generalizing i with
          | nil => rfl
          | cons hvw _ ih =>
              cases i with
              | zero => exact hvw place
              | succ i => exact ih i

def SameMember (e f : String × JsValue) : Prop := e.1 = f.1 ∧ SameJson e.2 f.2

theorem sameJson_obj (h : List.Forall₂ SameMember es fs) :
    SameJson (.obj es) (.obj fs) := by
  intro place
  cases place with
  | nil => rfl
  | cons step place =>
      cases step with
      | element i => rfl
      | member k =>
          show (OrderedMap.getEntries k es).bind _ = (OrderedMap.getEntries k fs).bind _
          induction h with
          | nil => rfl
          | @cons e f es fs hef _ ih =>
              obtain ⟨hname, hvalue⟩ := hef
              obtain ⟨a, v⟩ := e
              obtain ⟨b, w⟩ := f
              obtain rfl : a = b := hname
              by_cases ha : a = k
              · rw [OrderedMap.getEntries, OrderedMap.getEntries, if_pos ha, if_pos ha]
                exact hvalue place
              · rw [OrderedMap.getEntries, OrderedMap.getEntries, if_neg ha, if_neg ha]
                exact ih

theorem sameJson_perm (h : es.Perm fs) (hnodup : (es.map Prod.fst).Nodup) :
    SameJson (.obj es) (.obj fs) := by
  intro place
  cases place with
  | nil => rfl
  | cons step place =>
      cases step with
      | element i => rfl
      | member k =>
          show (OrderedMap.getEntries k es).bind _ = (OrderedMap.getEntries k fs).bind _
          rw [getEntries_perm h hnodup]

theorem keys_of_sameMember (h : List.Forall₂ SameMember es fs) :
    es.map Prod.fst = fs.map Prod.fst := by
  induction h with
  | nil => rfl
  | cons hef _ ih => rw [List.map_cons, List.map_cons, hef.1, ih]

/-! ## Texts -/

def MemberText (m : String × String) (e : String × JsValue) : Prop :=
  m.1 = e.1 ∧ Spells e.2 m.2.toList

theorem keys_mapMembers (f : Rat → Rat) (es : List (String × JsValue)) :
    (mapMembers f es).map Prod.fst = es.map Prod.fst := by
  rw [mapMembers_eq, List.map_map]
  rfl

theorem spells_members {ms : List (String × String)} (h : List.Forall₂ MemberText ms es) :
    SpellsMembers es (commaSeparated (ms.map fun m => quote m.1 ++ ":" ++ m.2)).toList := by
  apply spellsMembers_commaSeparated
  rw [List.forall₂_map_right_iff]
  refine h.flip.imp fun e m hem => ?_
  obtain ⟨hname, hspells⟩ := hem
  exact ⟨m.2, hspells, by rw [hname]⟩

mutual

/-- **What is written is a JSON text of the value**, up to the order of members, with the numbers
that are written. -/
theorem text_spells : ∀ v, IsJson v →
    ∃ t w, writer.text v = some t ∧ Spells w t.toList ∧
      SameJson w (mapNumbers writer.denoted v)
  | .undefined, h   => absurd h id
  | .inherited _, h => absurd h id
  | .null, _        => ⟨_, .null, rfl, rfl, .refl _⟩
  | .bool b, _      => ⟨_, .bool b, rfl, rfl, .refl _⟩
  | .num q, h       => by
      obtain ⟨t, hwell, htext, hvalue⟩ := writer.number_spells q h
      exact ⟨_, .num (writer.denoted q), rfl, ⟨t, hwell, hvalue, htext⟩, .refl _⟩
  | .str s, _       => ⟨_, .str s, rfl, rfl, .refl _⟩
  | .arr xs, h      => by
      obtain ⟨ws, hspells, hsame⟩ := elements_spell xs h
      refine ⟨_, .arr ws, rfl, ⟨_, spellsElements_commaSeparated hspells, ?_⟩, sameJson_arr hsame⟩
      simp [String.toList_append]
  | .obj es, h      => by
      obtain ⟨fs, hspells, hsame⟩ := members_spell es h.2
      -- the members are put into order together with their texts
      obtain ⟨gs, hordered, hperm⟩ :=
        List.perm_comp_forall₂ (writer.arrange_perm (writer.members es)) hspells
      have hkeys : (fs.map Prod.fst).Nodup := by
        rw [keys_of_sameMember hsame, keys_mapMembers]
        exact h.1
      have hkeys' : (gs.map Prod.fst).Nodup := (hperm.map Prod.fst).nodup_iff.mpr hkeys
      refine ⟨_, .obj gs, rfl, ⟨hkeys', _, spells_members hordered, ?_⟩,
        (sameJson_perm hperm hkeys').trans (sameJson_obj hsame)⟩
      simp [String.toList_append]

theorem elements_spell : ∀ vs, AreJson vs →
    ∃ ws, List.Forall₂ (fun w t => Spells w t.toList) ws (writer.elements vs) ∧
      List.Forall₂ SameJson ws (mapElements writer.denoted vs)
  | [], _      => ⟨[], .nil, .nil⟩
  | v :: vs, h => by
      obtain ⟨t, w, htext, hspells, hsame⟩ := text_spells v h.1
      obtain ⟨ws, hall, hsames⟩ := elements_spell vs h.2
      refine ⟨w :: ws, ?_, .cons hsame hsames⟩
      rw [elements, htext]
      exact .cons hspells hall

theorem members_spell : ∀ es, HaveJson es →
    ∃ fs, List.Forall₂ MemberText (writer.members es) fs ∧
      List.Forall₂ SameMember fs (mapMembers writer.denoted es)
  | [], _           => ⟨[], .nil, .nil⟩
  | (k, v) :: es, h => by
      obtain ⟨t, w, htext, hspells, hsame⟩ := text_spells v h.1
      obtain ⟨fs, hall, hsames⟩ := members_spell es h.2
      refine ⟨(k, w) :: fs, ?_, .cons ⟨rfl, hsame⟩ hsames⟩
      rw [members, htext]
      exact .cons ⟨rfl, hspells⟩ hall

end

/-- **Values with one text** are equal up to the order of members, with the numbers that are
written. -/
theorem sameJson_of_text {v w : JsValue} (hv : IsJson v) (hw : IsJson w)
    (h : writer.text v = writer.text w) :
    SameJson (mapNumbers writer.denoted v) (mapNumbers writer.denoted w) := by
  obtain ⟨t, v', htext, hspells, hsame⟩ := writer.text_spells v hv
  obtain ⟨t', w', htext', hspells', hsame'⟩ := writer.text_spells w hw
  obtain rfl : t = t' := Option.some.inj (htext.symm.trans (h.trans htext'))
  have hread : v' = w' :=
    Option.some.inj ((parse_of_spells hspells).symm.trans (parse_of_spells hspells'))
  rw [hread] at hsame
  exact hsame.symm.trans hsame'

end JsonWriter

end MapProtocol.Js
