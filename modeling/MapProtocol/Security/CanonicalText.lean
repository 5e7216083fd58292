import MapProtocol.Js.JsonLine
import MapProtocol.Security.Verification

/-!
# Canonical texts on the wire

What is signed is written from an object in memory, where a property may be `undefined`; what is
verified has been through JSON. `serializeJcs` writes the word `undefined` for such a property and
nothing for such an element, where JSON drops the one and turns the other into `null`. So a value has
the canonical text of its copy exactly if nothing inside it is `undefined`
(`text_jsonCopy_iff`).
-/

namespace MapProtocol

open Js

/-! ## Sorting what is kept -/

section Sorting

variable {α β : Type*} {r : α → α → Prop} {s : β → β → Prop} [DecidableRel r] [DecidableRel s]
  {f : α → Option β}

theorem filterMap_orderedInsert_none {a : α} (ha : f a = none) :
    ∀ l : List α, (l.orderedInsert r a).filterMap f = l.filterMap f
  | []     => by simp [ha]
  | b :: l => by
      rw [List.orderedInsert_cons]
      split
      · simp [ha]
      · rw [List.filterMap_cons, List.filterMap_cons, filterMap_orderedInsert_none ha l]

theorem filterMap_orderedInsert_some [IsTrans α r]
    (hf : ∀ a b a' b', f a = some a' → f b = some b' → (r a b ↔ s a' b')) {a : α} {a' : β}
    (ha : f a = some a') : ∀ l : List α, l.Pairwise r →
      (l.orderedInsert r a).filterMap f = (l.filterMap f).orderedInsert s a'
  | [], _     => by simp [ha]
  | b :: l, h => by
      obtain ⟨hb, hl⟩ := List.pairwise_cons.mp h
      rw [List.orderedInsert_cons]
      by_cases hab : r a b
      · rw [if_pos hab, List.filterMap_cons_some ha]
        -- everything that is kept comes after `a'` too
        have hall : ∀ c' ∈ (b :: l).filterMap f, s a' c' := by
          intro c' hc'
          obtain ⟨c, hc, hfc⟩ := List.mem_filterMap.mp hc'
          refine (hf a c a' c' ha hfc).mp ?_
          rcases List.mem_cons.mp hc with rfl | hc
          · exact hab
          · exact IsTrans.trans _ _ _ hab (hb c hc)
        cases hkept : (b :: l).filterMap f with
        | nil => rfl
        | cons c' cs =>
            rw [hkept] at hall
            rw [List.orderedInsert_cons, if_pos (hall c' List.mem_cons_self)]
      · rw [if_neg hab]
        have ih := filterMap_orderedInsert_some hf ha l hl
        cases hfb : f b with
        | none => rw [List.filterMap_cons_none hfb, List.filterMap_cons_none hfb, ih]
        | some b' =>
            rw [List.filterMap_cons_some hfb, List.filterMap_cons_some hfb, ih,
              List.orderedInsert_cons, if_neg fun h' => hab ((hf a b a' b' ha hfb).mpr h')]

/-- Sorting is stable: what is kept of a sorted list is the sorted list of what is kept. -/
theorem filterMap_insertionSort [Std.Total r] [IsTrans α r]
    (hf : ∀ a b a' b', f a = some a' → f b = some b' → (r a b ↔ s a' b')) :
    ∀ l : List α, (l.insertionSort r).filterMap f = (l.filterMap f).insertionSort s
  | []     => rfl
  | a :: l => by
      have ih := filterMap_insertionSort hf l
      rw [List.insertionSort_cons]
      cases ha : f a with
      | none => rw [filterMap_orderedInsert_none ha, List.filterMap_cons_none ha, ih]
      | some a' =>
          rw [filterMap_orderedInsert_some hf ha _ (List.pairwise_insertionSort r l),
            List.filterMap_cons_some ha, List.insertionSort_cons, ih]

end Sorting

/-! ## Characters of canonical texts -/

/-- The members of an object in the order in which they are written. -/
def memberOrder (a b : String × JsValue) : Prop := codeUnits a.1 ≤ codeUnits b.1

instance : DecidableRel memberOrder := fun a b =>
  inferInstanceAs (Decidable (codeUnits a.1 ≤ codeUnits b.1))

instance : Std.Total memberOrder :=
  ⟨fun a b => Std.Total.total (r := (· ≤ ·)) (codeUnits a.1) (codeUnits b.1)⟩

instance : IsTrans (String × JsValue) memberOrder :=
  ⟨fun a b c hab hbc => show codeUnits a.1 ≤ codeUnits c.1 from
    Trans.trans (show codeUnits a.1 ≤ codeUnits b.1 from hab)
      (show codeUnits b.1 ≤ codeUnits c.1 from hbc)⟩

def memberText (e : String × JsValue) : String :=
  quote e.1 ++ ":" ++ (serializeJcs e.2).getD "undefined"

def copyMember (e : String × JsValue) : Option (String × JsValue) :=
  (jsonCopy? e.2).map fun w => (e.1, w)

theorem serializeJcsMembers_eq (es : JsObject) :
    serializeJcsMembers es = es.map fun e => (e.1, (serializeJcs e.2).getD "undefined") := by
  induction es with
  | nil => rfl
  | cons e es ih => rw [serializeJcsMembers, ih, List.map_cons]

theorem jsonCopyMembers_eq (es : JsObject) : jsonCopyMembers es = es.filterMap copyMember := by
  induction es with
  | nil => rfl
  | cons e es ih =>
      obtain ⟨k, v⟩ := e
      cases h : jsonCopy? v with
      | none => simp [jsonCopyMembers, copyMember, h, ih]
      | some w => simp [jsonCopyMembers, copyMember, h, ih]

theorem serializeJcs_obj (es : JsObject) :
    serializeJcs (.obj es) = some ("\x7b" ++
      commaSeparated ((es.insertionSort memberOrder).map memberText) ++ "\x7d") := by
  have hsort : (serializeJcsMembers es).insertionSort keyOrder =
      (es.insertionSort memberOrder).map fun e => (e.1, (serializeJcs e.2).getD "undefined") := by
    rw [serializeJcsMembers_eq]
    exact (List.map_insertionSort memberOrder keyOrder
      (fun e => (e.1, (serializeJcs e.2).getD "undefined")) es fun _ _ _ _ => Iff.rfl).symm
  rw [serializeJcs, hsort, List.map_map]
  rfl

theorem sorted_jsonCopyMembers (es : JsObject) :
    (jsonCopyMembers es).insertionSort memberOrder =
      (es.insertionSort memberOrder).filterMap copyMember := by
  rw [jsonCopyMembers_eq]
  refine (filterMap_insertionSort ?_ es).symm
  intro a b a' b' ha hb
  obtain ⟨_, _, rfl⟩ := Option.map_eq_some_iff.mp ha
  obtain ⟨_, _, rfl⟩ := Option.map_eq_some_iff.mp hb
  exact Iff.rfl

/-- Texts with a comma before each. -/
def commaChars (ts : List String) : List Char := ts.flatMap fun t => ',' :: t.toList

theorem comma_commaSeparated (t : String) (ts : List String) :
    ',' :: (commaSeparated (t :: ts)).toList = commaChars (t :: ts) := by
  induction ts generalizing t with
  | nil => simp [commaSeparated, commaChars]
  | cons t' ts ih =>
      have hrest := ih t'
      rw [commaSeparated]
      · simp only [String.toList_append, commaChars, List.flatMap_cons, List.append_assoc,
          List.cons_append] at hrest ⊢
        rw [← hrest]
        rfl
      · simp

theorem head_commaChars {ts : List String} {c d : Char} {rest cs : List Char}
    (h : commaChars ts ++ c :: rest = d :: cs) : d = ',' ∨ d = c := by
  cases ts with
  | nil => exact .inr (List.cons.inj h).1.symm
  | cons t ts => exact .inl (List.cons.inj h).1.symm

/-! ## No text begins like `undefined` -/

theorem u_notMem_toDigits (n : Nat) : 'u' ∉ Nat.toDigits 10 n := fun h =>
  absurd (Nat.isDigit_of_mem_toDigits (by decide) (by decide) h) (by decide)

theorem u_notMem_toFixed15 (n : Rat) : 'u' ∉ toFixed15 n := by
  have hpadded : ∀ m, 'u' ∉ (padded 15 m).toList := fun m => by
    simp [padded, u_notMem_toDigits]
  unfold toFixed15
  dsimp only
  split <;> simp [u_notMem_toDigits, hpadded]

theorem u_notMem_stripFraction {digits : List Char} (h : 'u' ∉ digits) :
    'u' ∉ stripFraction digits := by
  have hkept : 'u' ∉ digits.reverse.dropWhile (· = '0') := fun hu =>
    h (List.mem_reverse.mp ((List.dropWhile_sublist _).subset hu))
  unfold stripFraction
  dsimp only
  split
  · rename_i rest hrest
    rw [hrest] at hkept
    intro hu
    exact hkept (List.mem_cons_of_mem _ (List.mem_reverse.mp hu))
  · intro hu
    exact hkept (List.mem_reverse.mp hu)

theorem u_notMem_serializeJcsNumber (n : Rat) : 'u' ∉ (serializeJcsNumber n).toList := by
  unfold serializeJcsNumber
  split
  · decide
  · split
    · exact notMem_numberToString (by decide) (by decide) n
    · split
      · exact notMem_numberToString (by decide) (by decide) n
      · rw [String.toList_ofList]
        exact u_notMem_stripFraction (u_notMem_toFixed15 n)

/-- A canonical text does not begin with the first letter of `undefined`, and if it were empty, what
follows it would not either. -/
theorem head_serializeJcs {v : JsValue} {t : String} (h : serializeJcs v = some t)
    {rest : List Char} (hrest : rest.head? ≠ some 'u') : (t.toList ++ rest).head? ≠ some 'u' := by
  cases v with
  | undefined => cases h
  | inherited _ => cases h
  | null => cases h; simp
  | bool b => cases h; cases b <;> simp
  | num n =>
      cases h
      have hu := u_notMem_serializeJcsNumber n
      cases hcs : (serializeJcsNumber n).toList with
      | nil => exact hrest
      | cons c cs =>
          rw [hcs] at hu
          intro heq
          obtain rfl : c = 'u' := by simpa using heq
          exact hu List.mem_cons_self
  | str s => cases h; simp [quote]
  | arr xs =>
      rw [serializeJcs] at h
      cases h
      simp
  | obj es =>
      rw [serializeJcs] at h
      cases h
      simp

/-! ## Values that JSON keeps -/

mutual

/-- Is nothing inside the value `undefined`? -/
def survivesJson : JsValue → Bool
  | .undefined   => false
  | .inherited _ => false
  | .null        => true
  | .bool _      => true
  | .num _       => true
  | .str _       => true
  | .arr xs      => survivesElements xs
  | .obj es      => survivesMembers es

def survivesElements : List JsValue → Bool
  | []      => true
  | v :: vs => survivesJson v && survivesElements vs

def survivesMembers : List (String × JsValue) → Bool
  | []           => true
  | (_, v) :: es => survivesJson v && survivesMembers es

end

theorem survivesElements_iff {vs : List JsValue} :
    survivesElements vs = true ↔ ∀ v ∈ vs, survivesJson v = true := by
  induction vs with
  | nil => simp [survivesElements]
  | cons v vs ih => simp [survivesElements, ih]

theorem survivesMembers_iff {es : JsObject} :
    survivesMembers es = true ↔ ∀ e ∈ es, survivesJson e.2 = true := by
  induction es with
  | nil => simp [survivesMembers]
  | cons e es ih =>
      obtain ⟨k, v⟩ := e
      simp [survivesMembers, ih]

mutual

/-- A value that JSON keeps is its own copy. -/
theorem jsonCopy_of_survives : ∀ {v}, survivesJson v = true → jsonCopy? v = some v
  | .null, _   => rfl
  | .bool _, _ => rfl
  | .num _, _  => rfl
  | .str _, _  => rfl
  | .arr xs, h => by
      rw [jsonCopy?, @jsonCopyElements_of_survives xs (by rwa [survivesJson] at h)]
  | .obj es, h => by
      rw [jsonCopy?, @jsonCopyMembers_of_survives es (by rwa [survivesJson] at h)]

theorem jsonCopyElements_of_survives :
    ∀ {vs}, survivesElements vs = true → jsonCopyElements vs = vs
  | [], _      => rfl
  | v :: vs, h => by
      rw [survivesElements, Bool.and_eq_true] at h
      rw [jsonCopyElements, jsonCopy_of_survives h.1, jsonCopyElements_of_survives h.2,
        Option.getD_some]

theorem jsonCopyMembers_of_survives :
    ∀ {es}, survivesMembers es = true → jsonCopyMembers es = es
  | [], _           => rfl
  | (k, v) :: es, h => by
      rw [survivesMembers, Bool.and_eq_true] at h
      have hv := jsonCopy_of_survives h.1
      have hes := jsonCopyMembers_of_survives h.2
      simp [jsonCopyMembers, hv, hes]

end

theorem serializeJcs_eq_none {v : JsValue} : serializeJcs v = none ↔ jsonCopy? v = none := by
  cases v <;> simp [serializeJcs, jsonCopy?]

theorem serializeJcs_jsonCopy {v w : JsValue} (h : jsonCopy? v = some w) :
    ∃ t, serializeJcs w = some t := by
  cases v with
  | undefined => cases h
  | inherited _ => cases h
  | _ =>
    simp only [jsonCopy?, Option.some.injEq] at h
    subst h
    exact ⟨_, rfl⟩

/-! ## The text tells whether JSON keeps the value

JSON drops `undefined` members and writes `null` for `undefined` elements; the canonical text does
neither. -/

/-- Wherever the text of the value and the text of its copy begin alike, the value survives JSON and
what follows is alike. -/
def Faithful (v : JsValue) : Prop :=
  ∀ w s t, jsonCopy? v = some w → serializeJcs v = some s → serializeJcs w = some t →
    ∀ r r', s.toList ++ r = t.toList ++ r' → survivesJson v = true ∧ r = r'

theorem faithful_of_survives {v : JsValue} (h : survivesJson v = true) : Faithful v := by
  intro w s t hw hs ht r r' heq
  obtain rfl : v = w := Option.some.inj ((jsonCopy_of_survives h).symm.trans hw)
  obtain rfl : s = t := Option.some.inj (hs.symm.trans ht)
  exact ⟨h, List.append_cancel_left heq⟩

theorem faithful_elements {vs : List JsValue} (h : ∀ v ∈ vs, Faithful v) {r r' : List Char}
    (heq : commaChars (serializeJcsElements vs) ++ ']' :: r =
      commaChars (serializeJcsElements (jsonCopyElements vs)) ++ ']' :: r') :
    (∀ v ∈ vs, survivesJson v = true) ∧ r = r' := by
  induction vs with
  | nil => exact ⟨by simp, by simpa [serializeJcsElements, jsonCopyElements, commaChars] using heq⟩
  | cons v vs ih =>
      obtain ⟨hv, hvs⟩ := List.forall_mem_cons.mp h
      simp only [serializeJcsElements, jsonCopyElements, commaChars, List.flatMap_cons,
        List.cons_append, List.append_assoc, List.cons.injEq, true_and] at heq
      cases hcopy : jsonCopy? v with
      | none =>
          -- nothing is written for the element, and `null` for its copy
          have hnone := serializeJcs_eq_none.mpr hcopy
          simp only [hcopy, hnone, Option.getD_none, serializeJcs, Option.getD_some] at heq
          have hhead := @head_commaChars (serializeJcsElements vs) ']' 'n' r _ heq
          exact absurd hhead (by decide)
      | some w =>
          obtain ⟨t, ht⟩ := serializeJcs_jsonCopy hcopy
          cases hs : serializeJcs v with
          | none =>
              rw [serializeJcs_eq_none.mp hs] at hcopy
              cases hcopy
          | some s =>
              simp only [hcopy, hs, ht, Option.getD_some] at heq
              obtain ⟨hsurvives, hrest⟩ := hv w s t hcopy hs ht _ _ heq
              obtain ⟨hall, htail⟩ := ih hvs hrest
              exact ⟨List.forall_mem_cons.mpr ⟨hsurvives, hall⟩, htail⟩

theorem quote_append_inj {a b : String} {r r' : List Char}
    (h : (quote a).toList ++ r = (quote b).toList ++ r') : a = b ∧ r = r' := by
  have hparse := parseString_escaped b r'
  have htail : a.toList.flatMap escapeChar ++ '"' :: r = b.toList.flatMap escapeChar ++ '"' :: r' := by
    simpa [quote] using h
  rw [← htail, parseString_escaped a r] at hparse
  exact Prod.mk.inj (Option.some.inj hparse)

theorem memberText_append (e : String × JsValue) (r : List Char) :
    (memberText e).toList ++ r =
      (quote e.1).toList ++ (':' :: (((serializeJcs e.2).getD "undefined").toList ++ r)) := by
  simp [memberText]

theorem faithful_members {es : JsObject} (h : ∀ e ∈ es, Faithful e.2) {r r' : List Char}
    (heq : commaChars (es.map memberText) ++ '\x7d' :: r =
      commaChars ((es.filterMap copyMember).map memberText) ++ '\x7d' :: r') :
    (∀ e ∈ es, survivesJson e.2 = true) ∧ r = r' := by
  induction es with
  | nil => exact ⟨by simp, by simpa [commaChars] using heq⟩
  | cons e es ih =>
      obtain ⟨he, hes⟩ := List.forall_mem_cons.mp h
      rw [List.map_cons, commaChars, List.flatMap_cons, List.append_assoc] at heq
      cases hcopy : jsonCopy? e.2 with
      | none =>
          -- the member is written with the word `undefined`, and its copy is not there
          have hmissing : copyMember e = none := by simp [copyMember, hcopy]
          rw [List.filterMap_cons_none hmissing, List.cons_append, memberText_append,
            serializeJcs_eq_none.mpr hcopy, Option.getD_none] at heq
          cases hkept : es.filterMap copyMember with
          | nil =>
              rw [hkept] at heq
              simp [commaChars] at heq
          | cons e' es' =>
              rw [hkept, List.map_cons, commaChars, List.flatMap_cons, List.append_assoc,
                List.cons_append, memberText_append] at heq
              obtain ⟨a, _, ha⟩ : ∃ a ∈ es, copyMember a = some e' :=
                List.mem_filterMap.mp (hkept ▸ List.mem_cons_self)
              obtain ⟨w, hw, rfl⟩ := Option.map_eq_some_iff.mp ha
              obtain ⟨t, ht⟩ := serializeJcs_jsonCopy hw
              have hvalues := (quote_append_inj (List.cons.inj heq).2).2
              dsimp only at hvalues
              rw [ht, Option.getD_some] at hvalues
              refine absurd ?_ (@head_serializeJcs _ _ ht (commaChars (es'.map memberText) ++
                '\x7d' :: r') ?_)
              · exact (congrArg List.head? (List.cons.inj hvalues).2).symm
              · intro hhead
                obtain ⟨cs, hcs⟩ := List.head?_eq_some_iff.mp hhead
                exact absurd (head_commaChars hcs) (by decide)
      | some w =>
          have hkept : copyMember e = some (e.1, w) := by simp [copyMember, hcopy]
          obtain ⟨t, ht⟩ := serializeJcs_jsonCopy hcopy
          cases hs : serializeJcs e.2 with
          | none =>
              rw [serializeJcs_eq_none.mp hs] at hcopy
              cases hcopy
          | some s =>
              rw [List.filterMap_cons_some hkept, List.map_cons, commaChars, List.flatMap_cons,
                List.append_assoc, List.cons_append, List.cons_append, memberText_append,
                memberText_append] at heq
              have hvalues := (quote_append_inj (List.cons.inj heq).2).2
              dsimp only at hvalues
              rw [hs, ht, Option.getD_some, Option.getD_some] at hvalues
              obtain ⟨hsurvives, hrest⟩ := he w s t hcopy hs ht _ _ (List.cons.inj hvalues).2
              obtain ⟨hall, htail⟩ := ih hes hrest
              exact ⟨List.forall_mem_cons.mpr ⟨hsurvives, hall⟩, htail⟩

theorem faithful_arr {xs : List JsValue} (h : ∀ v ∈ xs, Faithful v) : Faithful (.arr xs) := by
  intro w s t hw hs ht r r' heq
  rw [jsonCopy?, Option.some.injEq] at hw
  subst hw
  rw [serializeJcs, Option.some.injEq] at hs ht
  subst hs ht
  simp only [String.toList_append, List.append_assoc] at heq
  have hinner : (commaSeparated (serializeJcsElements xs)).toList ++ ']' :: r =
      (commaSeparated (serializeJcsElements (jsonCopyElements xs))).toList ++ ']' :: r' := by
    simpa using heq
  have hcommas : commaChars (serializeJcsElements xs) ++ ']' :: r =
      commaChars (serializeJcsElements (jsonCopyElements xs)) ++ ']' :: r' := by
    cases xs with
    | nil => exact hinner
    | cons v vs =>
        rw [serializeJcsElements, jsonCopyElements, serializeJcsElements] at hinner ⊢
        rw [← comma_commaSeparated, ← comma_commaSeparated, List.cons_append, List.cons_append,
          hinner]
  obtain ⟨hall, htail⟩ := faithful_elements h hcommas
  exact ⟨by rw [survivesJson]; exact survivesElements_iff.mpr hall, htail⟩

theorem faithful_obj {es : JsObject} (h : ∀ e ∈ es, Faithful e.2) : Faithful (.obj es) := by
  intro w s t hw hs ht r r' heq
  rw [jsonCopy?, Option.some.injEq] at hw
  subst hw
  rw [serializeJcs_obj, Option.some.injEq] at hs ht
  rw [sorted_jsonCopyMembers] at ht
  subst hs ht
  have hsorted : ∀ e ∈ es.insertionSort memberOrder, Faithful e.2 := fun e he =>
    h e ((List.mem_insertionSort _).mp he)
  have hmem : ∀ e, e ∈ es.insertionSort memberOrder ↔ e ∈ es := fun e => List.mem_insertionSort _
  generalize es.insertionSort memberOrder = sorted at heq hsorted hmem
  have hinner : (commaSeparated (sorted.map memberText)).toList ++ '\x7d' :: r =
      (commaSeparated ((sorted.filterMap copyMember).map memberText)).toList ++ '\x7d' :: r' := by
    simpa using heq
  have hcommas : commaChars (sorted.map memberText) ++ '\x7d' :: r =
      commaChars ((sorted.filterMap copyMember).map memberText) ++ '\x7d' :: r' := by
    cases sorted with
    | nil => exact hinner
    | cons e sorted =>
        cases hkept : (e :: sorted).filterMap copyMember with
        | nil =>
            -- the text of a member begins with a quote, and the copy has no member
            have hfirst := comma_commaSeparated (memberText e) (sorted.map memberText)
            rw [commaChars, List.flatMap_cons, List.cons_append, List.cons.injEq] at hfirst
            rw [hkept, List.map_cons, hfirst.2, List.append_assoc, memberText_append] at hinner
            simp [commaSeparated, quote] at hinner
        | cons e' kept =>
            rw [hkept] at hinner
            rw [List.map_cons, List.map_cons] at hinner ⊢
            rw [← comma_commaSeparated, ← comma_commaSeparated, List.cons_append, List.cons_append,
              hinner]
  obtain ⟨hall, htail⟩ := faithful_members hsorted hcommas
  exact ⟨by rw [survivesJson]; exact survivesMembers_iff.mpr fun e he => hall e ((hmem e).mpr he),
    htail⟩

mutual

theorem faithful : ∀ v, Faithful v
  | .undefined   => fun _ _ _ h => by cases h
  | .inherited _ => fun _ _ _ h => by cases h
  | .null        => faithful_of_survives rfl
  | .bool _      => faithful_of_survives rfl
  | .num _       => faithful_of_survives rfl
  | .str _       => faithful_of_survives rfl
  | .arr xs      => faithful_arr (faithfulElements xs)
  | .obj es      => faithful_obj (faithfulMembers es)

theorem faithfulElements : ∀ vs : List JsValue, ∀ v ∈ vs, Faithful v
  | []      => by simp
  | v :: vs => List.forall_mem_cons.mpr ⟨faithful v, faithfulElements vs⟩

theorem faithfulMembers : ∀ es : JsObject, ∀ e ∈ es, Faithful e.2
  | []           => by simp
  | (_, v) :: es => List.forall_mem_cons.mpr ⟨faithful v, faithfulMembers es⟩

end

/-- **The canonical text of a value is that of its copy exactly if JSON keeps the value.** -/
theorem text_jsonCopy_iff {v w : JsValue} (hcopy : jsonCopy? v = some w) :
    serializeJcs v = serializeJcs w ↔ survivesJson v = true := by
  constructor
  · intro h
    obtain ⟨t, ht⟩ := serializeJcs_jsonCopy hcopy
    exact (faithful v w t t hcopy (h.trans ht) ht [] [] rfl).1
  · intro h
    rw [jsonCopy_of_survives h] at hcopy
    rw [Option.some.inj hcopy]

/-! ## Payloads -/

/-- What a property holds once the object it is read from has been through JSON. -/
def received (v : JsValue) : JsValue := (jsonCopy? v).getD .undefined

/-- Is the property missing, or is nothing inside its value `undefined`? -/
def travels (v : JsValue) : Bool := (jsonCopy? v).isNone || survivesJson v

theorem received_of_travels {v : JsValue} (h : travels v = true) :
    serializeJcs (received v) = serializeJcs v := by
  unfold received
  cases hcopy : jsonCopy? v with
  | none => rw [Option.getD_none, serializeJcs_eq_none.mpr hcopy]; rfl
  | some w =>
      have hsurvives : survivesJson v = true := by simpa [travels, hcopy] using h
      exact ((text_jsonCopy_iff hcopy).mpr hsurvives).symm

theorem travels_members {es : JsObject} {r r' : List Char}
    (heq : commaChars (es.map memberText) ++ '\x7d' :: r =
      commaChars (es.map fun e => memberText (e.1, received e.2)) ++ '\x7d' :: r') :
    ∀ e ∈ es, travels e.2 = true := by
  induction es with
  | nil => simp
  | cons e es ih =>
      rw [List.map_cons, List.map_cons, commaChars, commaChars, List.flatMap_cons, List.flatMap_cons,
        List.append_assoc, List.append_assoc, List.cons_append, List.cons_append, memberText_append,
        memberText_append] at heq
      have hvalues := (List.cons.inj (quote_append_inj (List.cons.inj heq).2).2).2
      dsimp only at hvalues
      cases hcopy : jsonCopy? e.2 with
      | none =>
          rw [received, hcopy, Option.getD_none, serializeJcs_eq_none.mpr hcopy] at hvalues
          have hrest := List.append_cancel_left hvalues
          exact List.forall_mem_cons.mpr ⟨by simp [travels, hcopy], ih hrest⟩
      | some w =>
          obtain ⟨t, ht⟩ := serializeJcs_jsonCopy hcopy
          cases hs : serializeJcs e.2 with
          | none =>
              rw [serializeJcs_eq_none.mp hs] at hcopy
              cases hcopy
          | some s =>
              rw [received, hcopy, Option.getD_some, hs, ht, Option.getD_some, Option.getD_some]
                at hvalues
              obtain ⟨hsurvives, hrest⟩ := faithful e.2 w s t hcopy hs ht _ _ hvalues
              exact List.forall_mem_cons.mpr ⟨by simp [travels, hsurvives], ih hrest⟩

/-- **A payload read from the received object has the text that was signed exactly if every property
in it travels.** -/
theorem stableStringify_received_iff (payload : JsObject) :
    stableStringify (payload.map fun e => (e.1, received e.2)) = stableStringify payload ↔
      ∀ e ∈ payload, travels e.2 = true := by
  have hsort : (payload.map fun e => (e.1, received e.2)).insertionSort memberOrder =
      (payload.insertionSort memberOrder).map fun e => (e.1, received e.2) :=
    (List.map_insertionSort memberOrder memberOrder (fun e => (e.1, received e.2)) payload
      fun _ _ _ _ => Iff.rfl).symm
  have hmem : ∀ e, e ∈ payload.insertionSort memberOrder ↔ e ∈ payload := fun e =>
    List.mem_insertionSort _
  unfold stableStringify
  rw [serializeJcs_obj, serializeJcs_obj, hsort, List.map_map]
  generalize payload.insertionSort memberOrder = sorted at hmem
  constructor
  · intro h e he
    have hinner : commaSeparated (sorted.map (memberText ∘ fun e => (e.1, received e.2))) =
        commaSeparated (sorted.map memberText) := by
      simpa using h
    refine @travels_members _ [] [] ?_ e ((hmem e).mpr he)
    cases sorted with
    | nil => rfl
    | cons e' es =>
        rw [List.map_cons, List.map_cons] at hinner
        rw [List.map_cons, List.map_cons, ← comma_commaSeparated, ← comma_commaSeparated]
        exact congrArg (fun s => ',' :: s.toList ++ ['\x7d']) hinner.symm
  · intro h
    have htexts : sorted.map (memberText ∘ fun e => (e.1, received e.2)) = sorted.map memberText := by
      refine List.map_congr_left fun e he => ?_
      simp only [Function.comp, memberText, received_of_travels (h e ((hmem e).mp he))]
    rw [htexts]

end MapProtocol
