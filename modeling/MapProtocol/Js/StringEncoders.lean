import MapProtocol.Js.Json

/-!
# Encoders of strings

Languages escape different characters when they write a string as JSON. Whatever is escaped as
UTF-16 code units is read back (`Encoder.read`), so an object of strings is read back whoever wrote
it (`Encoder.parse_objectText`). Two of them wrote the same text exactly where they wrote the same
members and escaped none of the characters differently (`Encoder.objectText_eq_iff`).
-/

namespace MapProtocol.Js

variable {n : Nat} {cs rest : List Char} {us : List Nat}

/-! ## Code units -/

theorem decodeUnits_cons {u : Nat} (h : u < 0xD800 ∨ 0xE000 ≤ u) (us : List Nat) :
    decodeUnits (u :: us) = Char.ofNat u :: decodeUnits us := by
  cases us with
  | nil => simp only [decodeUnits]; rw [if_neg (by omega)]
  | cons lo us => simp only [decodeUnits]; rw [if_neg (by omega), if_neg (by omega)]

theorem decodeUnits_unitsOf (c : Char) (us : List Nat) :
    decodeUnits (unitsOf c ++ us) = c :: decodeUnits us := by
  have hvalid : c.toNat < 0xD800 ∨ (0xDFFF < c.toNat ∧ c.toNat < 0x110000) := c.valid
  unfold unitsOf
  split
  · rw [List.singleton_append, decodeUnits_cons (by omega), Char.ofNat_toNat]
  · simp only [List.cons_append, List.nil_append, decodeUnits]
    rw [if_pos (by omega)]
    have hunits : 0x10000 + (0xD800 + (c.toNat - 0x10000) / 0x400 - 0xD800) * 0x400 +
        (0xDC00 + (c.toNat - 0x10000) % 0x400 - 0xDC00) = c.toNat := by omega
    rw [hunits, Char.ofNat_toNat]

theorem decodeUnits_flatMap (cs : List Char) : decodeUnits (cs.flatMap unitsOf) = cs := by
  induction cs with
  | nil => rfl
  | cons c cs ih => rw [List.flatMap_cons, decodeUnits_unitsOf, ih]

theorem eq_of_units {s s' : String} (h : s.toList.flatMap unitsOf = s'.toList.flatMap unitsOf) :
    s = s' := by
  have hchars := congrArg decodeUnits h
  rw [decodeUnits_flatMap, decodeUnits_flatMap] at hchars
  exact String.toList_inj.mp hchars

/-! ## String literals -/

theorem hex4_hexDigit (h : n < 32) :
    hex4 '0' '0' (hexDigit (n / 16)) (hexDigit (n % 16)) = some n := by
  have hall : ∀ k : Fin 32,
      hex4 '0' '0' (hexDigit (k.val / 16)) (hexDigit (k.val % 16)) = some k.val := by decide
  exact hall ⟨n, h⟩

theorem parseUnits_escapeChar (c : Char) (h : parseUnits cs = some (us, rest)) :
    parseUnits (escapeChar c ++ cs) = some (unitsOf c ++ us, rest) := by
  by_cases hquote : c = '"'
  · subst hquote
    simp [escapeChar, parseUnits, h, unitsOf]
  by_cases hslash : c = '\\'
  · subst hslash
    simp [escapeChar, parseUnits, h, unitsOf]
  by_cases hnamed : c.toNat = 8 ∨ c.toNat = 9 ∨ c.toNat = 10 ∨ c.toNat = 12 ∨ c.toNat = 13
  · rcases hnamed with hc | hc | hc | hc | hc <;>
      simp [escapeChar, hquote, hslash, parseUnits, h, unitsOf, hc]
  obtain ⟨h8, h9, h10, h12, h13⟩ : c.toNat ≠ 8 ∧ c.toNat ≠ 9 ∧ c.toNat ≠ 10 ∧ c.toNat ≠ 12 ∧
      c.toNat ≠ 13 := by omega
  by_cases hcontrol : c.toNat < 32
  · have hunit : unitsOf c = [c.toNat] := if_pos (by omega)
    simp [escapeChar, hquote, hslash, h8, h9, h10, h12, h13, hcontrol, parseUnits,
      hex4_hexDigit hcontrol, h, hunit]
  · simp [escapeChar, hquote, hslash, h8, h9, h10, h12, h13, hcontrol, parseUnits, h]

/-! ## Code units in hexadecimal -/

/-- `\uXXXX`, of a code unit. -/
def unicodeEscape (n : Nat) : List Char :=
  ['\\', 'u', hexDigit (n / 4096 % 16), hexDigit (n / 256 % 16), hexDigit (n / 16 % 16),
    hexDigit (n % 16)]

theorem hexValue_hexDigit (h : n < 16) : hexValue (hexDigit n) = some n := by
  have hall : ∀ k : Fin 16, hexValue (hexDigit k) = some k.val := by decide
  exact hall ⟨n, h⟩

theorem parseUnits_unicodeEscape (hn : n < 65536) (h : parseUnits cs = some (us, rest)) :
    parseUnits (unicodeEscape n ++ cs) = some (n :: us, rest) := by
  have hhex : hex4 (hexDigit (n / 4096 % 16)) (hexDigit (n / 256 % 16)) (hexDigit (n / 16 % 16))
      (hexDigit (n % 16)) = some n := by
    have hvalue (k : Nat) : hexValue (hexDigit (k % 16)) = some (k % 16) :=
      hexValue_hexDigit (Nat.mod_lt _ (by decide))
    unfold hex4
    rw [hvalue, hvalue, hvalue, hvalue]
    show some _ = some n
    congr 1
    omega
  simp [unicodeEscape, parseUnits, hhex, h]

theorem parseUnits_units {ns : List Nat} (hns : ∀ n ∈ ns, n < 65536)
    (h : parseUnits cs = some (us, rest)) :
    parseUnits (ns.flatMap unicodeEscape ++ cs) = some (ns ++ us, rest) := by
  induction ns with
  | nil => exact h
  | cons n ns ih =>
      rw [List.flatMap_cons, List.append_assoc]
      exact parseUnits_unicodeEscape (hns n List.mem_cons_self)
        (ih fun k hk => hns k (List.mem_cons_of_mem n hk))

theorem unitsOf_lt (c : Char) : ∀ n ∈ unitsOf c, n < 65536 := by
  have hvalid : c.toNat < 0xD800 ∨ (0xDFFF < c.toNat ∧ c.toNat < 0x110000) := c.valid
  unfold unitsOf
  split
  · simpa
  · simp only [List.mem_cons, List.not_mem_nil, or_false, forall_eq_or_imp, forall_eq]
    omega

/-! ## Encoders -/

def stringMembers (es : List (String × String)) : JsObject := es.map fun e => (e.1, .str e.2)

/-- A way to escape characters. The plain ones are those that it escapes as `JSON.stringify` does;
the others it writes as code units, and `JSON.stringify` leaves them. -/
structure Encoder where
  escape : Char → List Char
  plain  : Char → Bool
  same   : ∀ c, plain c = true → escape c = escapeChar c
  units  : ∀ c, plain c = false → escape c = (unitsOf c).flatMap unicodeEscape
  bare   : ∀ c, plain c = false → escapeChar c = [c]

/-- `JSON.stringify`. -/
def Encoder.javascript : Encoder where
  escape := escapeChar
  plain _ := true
  same _ _ := rfl
  units _ h := nomatch h
  bare _ h := nomatch h

namespace Encoder

variable (e : Encoder)
variable {es es' : List (String × String)}

def quote (s : String) : String := String.ofList ('"' :: (s.toList.flatMap e.escape ++ ['"']))

def Plain (s : String) : Prop := ∀ c ∈ s.toList, e.plain c = true

instance (s : String) : Decidable (e.Plain s) :=
  decidable_of_iff (s.toList.all e.plain = true) List.all_eq_true

theorem plain_javascript (s : String) : javascript.Plain s := fun _ _ => rfl

@[simp] theorem quote_javascript (s : String) : javascript.quote s = Js.quote s := rfl

theorem read (c : Char) {cs rest : List Char} {us : List Nat}
    (h : parseUnits cs = some (us, rest)) :
    parseUnits (e.escape c ++ cs) = some (unitsOf c ++ us, rest) := by
  cases hplain : e.plain c with
  | true => rw [e.same c hplain]; exact parseUnits_escapeChar c h
  | false => rw [e.units c hplain]; exact parseUnits_units (unitsOf_lt c) h

theorem parseUnits_escape (cs rest : List Char) :
    parseUnits (cs.flatMap e.escape ++ '"' :: rest) = some (cs.flatMap unitsOf, rest) := by
  induction cs with
  | nil => simp [parseUnits]
  | cons c cs ih => rw [List.flatMap_cons, List.append_assoc, e.read c ih, List.flatMap_cons]

theorem length_lt {c : Char} (h : e.plain c = false) :
    (escapeChar c).length < (e.escape c).length := by
  rw [e.bare c h, e.units c h]
  unfold unitsOf
  split <;> simp [unicodeEscape]

theorem length_flatMap_le (cs : List Char) :
    (cs.flatMap escapeChar).length ≤ (cs.flatMap e.escape).length := by
  induction cs with
  | nil => exact Nat.le_refl _
  | cons c cs ih =>
      rw [List.flatMap_cons, List.flatMap_cons, List.length_append, List.length_append]
      cases h : e.plain c with
      | true => rw [e.same c h]; omega
      | false =>
          have := e.length_lt h
          omega

/-- A text is escaped as `JSON.stringify` does exactly when all its characters are: an escape that
differs is longer. -/
theorem flatMap_eq_iff {cs : List Char} :
    cs.flatMap e.escape = cs.flatMap escapeChar ↔ ∀ c ∈ cs, e.plain c = true := by
  induction cs with
  | nil => simp
  | cons c cs ih =>
      rw [List.flatMap_cons, List.flatMap_cons, List.forall_mem_cons]
      cases h : e.plain c with
      | true => rw [e.same c h, List.append_cancel_left_eq, ih]; simp
      | false =>
          refine ⟨fun heq => ?_, fun hall => nomatch hall.1⟩
          have hlength := congrArg List.length heq
          rw [List.length_append, List.length_append] at hlength
          have hlonger := e.length_lt h
          have hrest := e.length_flatMap_le cs
          omega

theorem toList_quote (s : String) :
    (e.quote s).toList = '"' :: (s.toList.flatMap e.escape ++ ['"']) := String.toList_ofList

/-- **When two literals agree**, with what follows them. -/
theorem quote_append_iff {s s' : String} {rest rest' : List Char} :
    (e.quote s).toList ++ rest = (Js.quote s').toList ++ rest' ↔
      s = s' ∧ e.Plain s ∧ rest = rest' := by
  rw [← quote_javascript, toList_quote, toList_quote]
  simp only [List.cons_append, List.append_assoc, List.nil_append, List.cons.injEq, true_and]
  constructor
  · intro h
    have hread := congrArg parseUnits h
    rw [parseUnits_escape, parseUnits_escape, Option.some.injEq, Prod.mk.injEq] at hread
    obtain ⟨hunits, rfl⟩ := hread
    obtain rfl : s = s' := eq_of_units hunits
    exact ⟨rfl, e.flatMap_eq_iff.mp (List.append_cancel_right h), rfl⟩
  · rintro ⟨rfl, hplain, rfl⟩
    rw [e.flatMap_eq_iff.mpr hplain]
    rfl

/-! ## Objects of strings -/

def objectText (es : List (String × String)) : String :=
  "\x7b" ++ commaSeparated (es.map fun m => e.quote m.1 ++ ":" ++ e.quote m.2) ++ "\x7d"

/-- The characters of the members, up to the brace that ends them. -/
def membersText : List (String × String) → List Char
  | []           => ['\x7d']
  | [(k, v)]     => (e.quote k).toList ++ ':' :: ((e.quote v).toList ++ ['\x7d'])
  | (k, v) :: es => (e.quote k).toList ++ ':' :: ((e.quote v).toList ++ ',' :: membersText es)

/-- What follows a member, with these after it. -/
def endText : List (String × String) → List Char
  | []      => ['\x7d']
  | m :: es => ',' :: e.membersText (m :: es)

theorem membersText_cons (k v : String) (es : List (String × String)) :
    e.membersText ((k, v) :: es) =
      (e.quote k).toList ++ ':' :: ((e.quote v).toList ++ e.endText es) := by
  cases es <;> rfl

theorem toList_objectText (es : List (String × String)) :
    (e.objectText es).toList = '\x7b' :: e.membersText es := by
  have hmembers : (commaSeparated (es.map fun m => e.quote m.1 ++ ":" ++ e.quote m.2)).toList ++
      ['\x7d'] = e.membersText es := by
    induction es with
    | nil => rfl
    | cons m es ih =>
        rw [membersText_cons]
        cases es with
        | nil => simp [commaSeparated, endText]
        | cons m' es =>
            rw [endText, ← ih]
            simp [commaSeparated]
  unfold objectText
  rw [String.toList_append, String.toList_append, List.append_assoc]
  exact congrArg ('\x7b' :: ·) hmembers

theorem parseString_escape (s : String) (rest : List Char) :
    parseString (s.toList.flatMap e.escape ++ '"' :: rest) = some (s, rest) := by
  unfold parseString
  rw [parseUnits_escape]
  simp [decodeUnits_flatMap]

theorem parseMembers_membersText {es : List (String × String)} (hne : es ≠ []) {fuel : Nat}
    (hfuel : es.length < fuel) :
    parseMembers fuel (e.membersText es) = some (stringMembers es, []) := by
  induction es generalizing fuel with
  | nil => exact absurd rfl hne
  | cons m es ih =>
      obtain ⟨k, v⟩ := m
      obtain ⟨fuel, rfl⟩ : ∃ f, fuel = f + 2 := ⟨fuel - 2, by simp at hfuel; omega⟩
      rw [membersText_cons]
      cases es with
      | nil =>
          simp [endText, toList_quote, parseMembers, parseValue, skipSpace, isJsonSpace,
            parseString_escape, stringMembers]
      | cons m' es =>
          have hrest := @ih (by simp) (fuel + 1) (by simp at hfuel ⊢; omega)
          rw [endText, parseMembers]
          simp [toList_quote, skipSpace, isJsonSpace, parseString_escape, parseValue, hrest,
            stringMembers]

theorem length_le_membersText (es : List (String × String)) :
    es.length ≤ (e.membersText es).length := by
  induction es with
  | nil => exact Nat.zero_le _
  | cons m es ih =>
      rw [membersText_cons]
      cases es with
      | nil => simp [endText, toList_quote]
      | cons m' es =>
          simp only [endText, List.length_cons, List.length_append] at ih ⊢
          omega

theorem membersText_head (hne : es ≠ []) :
    ∃ cs, e.membersText es = '"' :: cs := by
  cases es with
  | nil => exact absurd rfl hne
  | cons m es => cases es <;> simp [membersText, toList_quote]

/-- **Whoever writes an object of strings, it is read back**, where its keys are distinct. -/
theorem parse_objectText (hne : es ≠ [])
    (hkeys : JsObject.spread [] (stringMembers es) = stringMembers es) :
    parse (e.objectText es) = some (.obj (stringMembers es)) := by
  have hlen := e.length_le_membersText es
  obtain ⟨cs, hcs⟩ := e.membersText_head hne
  unfold parse
  rw [toList_objectText]
  have hmembers := @parseMembers_membersText e es hne
    (2 * ('\x7b' :: e.membersText es).length + 1)
    (by simp only [List.length_cons]; omega)
  rw [hcs] at hmembers ⊢
  have hbrace : skipSpace ('\x7b' :: '"' :: cs) = '\x7b' :: '"' :: cs := by
    simp [skipSpace, isJsonSpace]
  have hquote : skipSpace ('"' :: cs) = '"' :: cs := by simp [skipSpace, isJsonSpace]
  have hend : skipSpace [] = [] := rfl
  rw [parseValue, hbrace]
  generalize 2 * ('\x7b' :: '"' :: cs).length + 1 = fuel at hmembers ⊢
  simp [hquote, hmembers, hkeys, hend]

def PlainMember (m : String × String) : Prop := e.Plain m.1 ∧ e.Plain m.2

theorem endText_eq_iff :
    e.endText es = javascript.endText es' ↔ e.membersText es = javascript.membersText es' := by
  cases es with
  | nil =>
      cases es' with
      | nil => exact Iff.rfl
      | cons m' es' =>
          obtain ⟨cs, hcs⟩ := javascript.membersText_head (List.cons_ne_nil m' es')
          rw [hcs]
          simp [endText, membersText]
  | cons m es =>
      obtain ⟨cs, hcs⟩ := e.membersText_head (List.cons_ne_nil m es)
      cases es' with
      | nil =>
          rw [hcs]
          simp [endText, membersText]
      | cons m' es' => simp [endText]

theorem membersText_eq_iff :
    e.membersText es = javascript.membersText es' ↔ es = es' ∧ ∀ m ∈ es, e.PlainMember m := by
  induction es generalizing es' with
  | nil =>
      rw [← endText_eq_iff]
      cases es' <;> simp [endText]
  | cons m es ih =>
      cases es' with
      | nil =>
          obtain ⟨cs, hcs⟩ := e.membersText_head (List.cons_ne_nil m es)
          rw [hcs]
          simp [membersText]
      | cons m' es' =>
          obtain ⟨k, v⟩ := m
          obtain ⟨k', v'⟩ := m'
          rw [membersText_cons, membersText_cons, quote_javascript, quote_javascript,
            quote_append_iff, List.cons.injEq, quote_append_iff, endText_eq_iff, ih,
            List.forall_mem_cons, List.cons.injEq, Prod.mk.injEq]
          constructor
          · rintro ⟨rfl, hk, -, rfl, hv, rfl, hplain⟩
            exact ⟨⟨⟨rfl, rfl⟩, rfl⟩, ⟨hk, hv⟩, hplain⟩
          · rintro ⟨⟨⟨rfl, rfl⟩, rfl⟩, ⟨hk, hv⟩, hplain⟩
            exact ⟨rfl, hk, rfl, rfl, hv, rfl, hplain⟩

/-- **When two languages write the same text**, the second of them `JSON.stringify`. -/
theorem objectText_eq_iff :
    e.objectText es = javascript.objectText es' ↔ es = es' ∧ ∀ m ∈ es, e.PlainMember m := by
  rw [← String.toList_inj, toList_objectText, toList_objectText, List.cons.injEq]
  exact (and_iff_right rfl).trans e.membersText_eq_iff

end Encoder

end MapProtocol.Js
