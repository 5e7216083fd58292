import MapProtocol.Js.JsonTexts
import Mathlib.Data.List.TakeWhile

/-!
# Spaces in a JSON text

`compact` takes the spaces between the tokens out of a text. What `parse` accepts it still accepts then,
and reads as the same value (`parse_compact`). A number is the token that could run into the next one;
what follows a number in a text that is accepted goes on with no number.
-/

namespace MapProtocol.Js

variable {c : Char} {cs rest : List Char} {q : Rat} {v : JsValue}

/-! ## Compact texts -/

/-- The characters without the spaces between tokens; the flag says whether a string literal is open. -/
def compact : Bool → List Char → List Char
  | _, []                  => []
  | false, c :: cs         => if isJsonSpace c then compact false cs else c :: compact (c = '"') cs
  | true, '\\' :: c :: cs  => '\\' :: c :: compact true cs
  | true, c :: cs          => c :: compact (c ≠ '"') cs

def compactText (text : String) : String := String.ofList (compact false text.toList)

theorem compact_cons (h : isJsonSpace c = false) (cs : List Char) :
    compact false (c :: cs) = c :: compact (c = '"') cs := by
  simp [compact, h]

theorem compact_skipSpace (cs : List Char) : compact false (skipSpace cs) = compact false cs := by
  induction cs with
  | nil => rfl
  | cons c cs ih =>
      by_cases hspace : isJsonSpace c = true
      · simpa [skipSpace, compact, hspace] using ih
      · simp [skipSpace, hspace]

theorem skipSpace_compact (cs : List Char) : skipSpace (compact false cs) = compact false cs := by
  induction cs with
  | nil => rfl
  | cons c cs ih =>
      by_cases hspace : isJsonSpace c = true
      · simpa [compact, hspace] using ih
      · rw [compact_cons (by simpa using hspace)]
        exact skipSpace_cons (by simpa using hspace) _

theorem head_skipSpace (h : skipSpace cs = c :: rest) :
    isJsonSpace c = false := by
  have hhead := List.head?_dropWhile_not isJsonSpace cs
  unfold skipSpace at h
  rw [h] at hhead
  simpa using hhead

theorem compact_of_skipSpace (h : skipSpace cs = c :: rest) :
    compact false cs = c :: compact (c = '"') rest := by
  rw [← compact_skipSpace, h, compact_cons (head_skipSpace h)]

theorem head_compact (cs : List Char) : (compact false cs).head? = (skipSpace cs).head? := by
  cases h : skipSpace cs with
  | nil => rw [← compact_skipSpace, h]; rfl
  | cons c rest => rw [compact_of_skipSpace h]; rfl

theorem compact_token {token : List Char} (h : ∀ c ∈ token, isJsonSpace c = false ∧ c ≠ '"')
    (rest : List Char) : compact false (token ++ rest) = token ++ compact false rest := by
  induction token with
  | nil => rfl
  | cons c cs ih =>
      obtain ⟨hspace, hquote⟩ := h c List.mem_cons_self
      have hcs := ih fun d hd => h d (List.mem_cons_of_mem c hd)
      rw [List.cons_append, compact_cons hspace, decide_eq_false hquote, hcs]
      rfl

/-! ## Strings -/

theorem compact_hexDigit {n : Nat} (h : hexValue c = some n) (cs : List Char) :
    compact true (c :: cs) = c :: compact true cs := by
  have hquote : c ≠ '"' := by rintro rfl; cases h
  have hslash : c ≠ '\\' := by rintro rfl; cases h
  cases cs with
  | nil => simp [compact]
  | cons d ds => simp [compact, hquote, hslash]

theorem hexDigits {a b c d : Char} {n : Nat} (h : hex4 a b c d = some n) :
    (∃ n, hexValue a = some n) ∧ (∃ n, hexValue b = some n) ∧ (∃ n, hexValue c = some n) ∧
      ∃ n, hexValue d = some n := by
  simp only [hex4, Option.bind_eq_bind, Option.bind_eq_some_iff] at h
  obtain ⟨na, ha, nb, hb, nc, hc, nd, hd, -⟩ := h
  exact ⟨⟨na, ha⟩, ⟨nb, hb⟩, ⟨nc, hc⟩, ⟨nd, hd⟩⟩

theorem parseUnits_compact {us : List Nat} (h : parseUnits cs = some (us, rest)) :
    parseUnits (compact true cs) = some (us, compact false rest) ∧
      (compact false rest).length < (compact true cs).length := by
  fun_induction parseUnits cs generalizing us rest with
  | case1 => cases h
  | case2 cs =>
      cases h
      simp [compact, parseUnits]
  | case3 a b c d cs u us' rest' hus hu ih =>
      cases h
      obtain ⟨hread, hlength⟩ := ih hus
      obtain ⟨⟨_, ha⟩, ⟨_, hb⟩, ⟨_, hc⟩, ⟨_, hd⟩⟩ := hexDigits hu
      have hescape : compact true ('\\' :: 'u' :: a :: b :: c :: d :: cs) =
          '\\' :: 'u' :: a :: b :: c :: d :: compact true cs := by
        rw [compact, compact_hexDigit ha, compact_hexDigit hb, compact_hexDigit hc,
          compact_hexDigit hd]
      rw [hescape]
      refine ⟨by simp [parseUnits, hu, hread], ?_⟩
      simp only [List.length_cons]
      omega
  | case4 => cases h
  | case5 e cs hlong unit u us' rest' hus hunit =>
      rename_i ih
      cases h
      obtain ⟨hread, hlength⟩ := ih hus
      -- a `\u` without four digits is refused
      have he : e ≠ 'u' := by
        rintro rfl
        have hnone : none = some u := hunit
        cases hnone
      have hescape : compact true ('\\' :: e :: cs) = '\\' :: e :: compact true cs := by rw [compact]
      rw [hescape]
      refine ⟨?_, by simp only [List.length_cons]; omega⟩
      rw [parseUnits, hread]
      · dsimp only [unit] at hunit
        rw [hunit]
      · rintro a b c d ds rfl
        exact absurd rfl he
  | case6 => cases h
  | case7 => cases h
  | case8 c cs hquote hunicode hescape hprint us' rest' hus ih =>
      cases h
      obtain ⟨hread, hlength⟩ := ih hus
      -- so is a backslash at the end of the text
      have hslash : c ≠ '\\' := by
        rintro rfl
        cases cs with
        | nil => cases hus
        | cons e cs => exact hescape e cs rfl rfl
      have hkept : compact true (c :: cs) = c :: compact true cs := by
        cases cs with
        | nil => simp [compact]
        | cons d ds =>
            have hc : c ≠ '"' := hquote
            simp [compact, hc]
      rw [hkept]
      refine ⟨?_, by simp only [List.length_cons]; omega⟩
      have hc : c ≠ '"' := hquote
      rw [parseUnits]
      · rw [if_neg hprint, hread]
      · exact hquote
      · rintro a b c' d ds rfl
        exact absurd rfl hslash
      · rintro e ds rfl
        exact absurd rfl hslash
  | case9 => cases h

theorem parseString_compact {s : String} (h : parseString cs = some (s, rest)) :
    parseString (compact true cs) = some (s, compact false rest) ∧
      (compact false rest).length < (compact true cs).length := by
  obtain ⟨⟨us, rest'⟩, hus, heq⟩ := Option.map_eq_some_iff.mp h
  cases heq
  obtain ⟨hread, hlength⟩ := parseUnits_compact hus
  refine ⟨?_, hlength⟩
  unfold parseString
  rw [hread]
  rfl

/-! ## Numbers -/

def isNumberChar (c : Char) : Bool :=
  isDigit c || c = '.' || c = 'e' || c = 'E' || c = '+' || c = '-'

theorem numberChar_kept (h : isNumberChar c = true) : isJsonSpace c = false ∧ c ≠ '"' := by
  have hne (d : Char) (hd : isNumberChar d = false) : c ≠ d := by
    rintro rfl
    rw [h] at hd
    cases hd
  exact ⟨by simp [isJsonSpace, hne ' ' (by decide), hne '\t' (by decide), hne '\n' (by decide),
    hne '\r' (by decide)], hne '"' (by decide)⟩

theorem numberChar_of_isDigit (h : isDigit c = true) : isNumberChar c = true := by
  simp [isNumberChar, h]

theorem span_eq {cs ds rest : List Char} (h : cs.span isDigit = (ds, rest)) :
    cs = ds ++ rest ∧ ∀ c ∈ ds, isDigit c = true := by
  rw [List.span_eq_takeWhile_dropWhile] at h
  obtain ⟨rfl, rfl⟩ := Prod.mk.inj h
  exact ⟨List.takeWhile_append_dropWhile.symm, fun c hc => List.mem_takeWhile_imp hc⟩

def exponentSign : List Char → Bool × List Char
  | '-' :: cs => (true, cs)
  | '+' :: cs => (false, cs)
  | cs        => (false, cs)

theorem parseExponent_e (h : c = 'e' ∨ c = 'E') (cs : List Char) :
    parseExponent (c :: cs) =
      if ((exponentSign cs).2.span isDigit).1 = [] then none
      else some (if (exponentSign cs).1 then -(digitsValue ((exponentSign cs).2.span isDigit).1 : Int)
        else digitsValue ((exponentSign cs).2.span isDigit).1, ((exponentSign cs).2.span isDigit).2) :=
  (if_pos h).trans rfl

theorem exponentSign_token (cs : List Char) : ∃ sign, cs = sign ++ (exponentSign cs).2 ∧
    (∀ c ∈ sign, isNumberChar c = true) ∧ ∀ d ds, isDigit d = true →
      exponentSign (sign ++ d :: ds) = ((exponentSign cs).1, d :: ds) := by
  unfold exponentSign
  split
  · exact ⟨['-'], rfl, by simp [isNumberChar], fun _ _ _ => rfl⟩
  · exact ⟨['+'], rfl, by simp [isNumberChar], fun _ _ _ => rfl⟩
  · refine ⟨[], rfl, by simp, fun d ds hd => ?_⟩
    rw [List.nil_append]
    split
    · rename_i heq
      cases heq
      exact absurd hd (by decide)
    · rename_i heq
      cases heq
      exact absurd hd (by decide)
    · rfl

/-- The token of an exponent. -/
theorem parseExponent_token {e : Int} (h : parseExponent cs = some (e, rest)) :
    ∃ token, cs = token ++ rest ∧ (∀ c ∈ token, isNumberChar c = true) ∧
      (∀ c ∈ token.head?, c = 'e' ∨ c = 'E') ∧
        ∀ rest', Stops rest' → parseExponent (token ++ rest') = some (e, rest') := by
  by_cases hexp : ∃ c ∈ cs.head?, c = 'e' ∨ c = 'E'
  · obtain ⟨c, hhead, hc⟩ := hexp
    obtain ⟨cs, rfl⟩ := List.head?_eq_some_iff.mp hhead
    obtain ⟨sign, hsign, hchars, hread⟩ := exponentSign_token cs
    rw [parseExponent_e hc] at h
    generalize exponentSign cs = signed at h hsign hread
    obtain ⟨minus, digits⟩ := signed
    dsimp only at h hsign hread
    cases hspan : digits.span isDigit with
    | mk ds tail =>
        rw [hspan] at h
        obtain ⟨rfl, hds⟩ := span_eq hspan
        cases ds with
        | nil => simp at h
        | cons d ds =>
            rw [if_neg (by simp)] at h
            cases h
            refine ⟨c :: (sign ++ d :: ds), by simp [hsign], ?_, ?_, fun rest' hrest => ?_⟩
            · intro c' hc'
              rcases List.mem_cons.mp hc' with rfl | hc'
              · rcases hc with rfl | rfl <;> decide
              · rcases List.mem_append.mp hc' with hc' | hc'
                · exact hchars c' hc'
                · exact numberChar_of_isDigit (hds c' hc')
            · rintro c' hc'
              cases hc'
              exact hc
            · have hsigned := hread d (ds ++ rest') (hds d List.mem_cons_self)
              have hdigits := span_digits hds fun c hc => (hrest c hc).1
              rw [List.cons_append] at hdigits
              rw [List.cons_append, parseExponent_e hc, List.append_assoc, List.cons_append, hsigned]
              dsimp only
              rw [hdigits, if_neg (by simp)]
  · have hnone : parseExponent cs = some (0, cs) := by
      cases cs with
      | nil => rfl
      | cons c cs => exact if_neg fun hc => hexp ⟨c, rfl, hc⟩
    rw [hnone] at h
    cases h
    exact ⟨[], rfl, by simp, by simp, fun rest' hrest => @parseExponent_text none rest' (by simp) hrest⟩

theorem parseFraction_point (cs : List Char) : parseFraction ('.' :: cs) =
    if (cs.span isDigit).1 = [] then none
    else some ((cs.span isDigit).1, (cs.span isDigit).2) := rfl

/-- The token of a fraction. -/
theorem parseFraction_token {cs fraction rest : List Char}
    (h : parseFraction cs = some (fraction, rest)) :
    ∃ token, cs = token ++ rest ∧ (∀ c ∈ token, isNumberChar c = true) ∧
      (∀ c ∈ token.head?, c = '.') ∧ ∀ rest', (∀ c ∈ rest'.head?, isDigit c = false ∧ c ≠ '.') →
        parseFraction (token ++ rest') = some (fraction, rest') := by
  by_cases hpoint : cs.head? = some '.'
  · obtain ⟨cs, rfl⟩ := List.head?_eq_some_iff.mp hpoint
    rw [parseFraction_point] at h
    cases hspan : cs.span isDigit with
    | mk ds tail =>
        rw [hspan] at h
        obtain ⟨rfl, hds⟩ := span_eq hspan
        cases ds with
        | nil => simp at h
        | cons d ds =>
            rw [if_neg (by simp)] at h
            cases h
            refine ⟨'.' :: d :: ds, rfl, ?_, by simp, fun rest' hrest => ?_⟩
            · intro c hc
              rcases List.mem_cons.mp hc with rfl | hc
              · decide
              · exact numberChar_of_isDigit (hds c hc)
            · exact parseFraction_text hds (fun c hc => (hrest c hc).1) fun hc => (hrest '.' hc).2 rfl
  · have hnone : parseFraction cs = some ([], cs) := by
      unfold parseFraction
      split
      · exact absurd rfl hpoint
      · rfl
    rw [hnone] at h
    cases h
    refine ⟨[], rfl, by simp, by simp, fun rest' hrest => ?_⟩
    exact @parseFraction_text [] rest' (by simp) (fun c hc => (hrest c hc).1)
      fun hc => (hrest '.' hc).2 rfl

theorem parseSigned_token {negative : Bool} (h : parseSigned negative cs = some (q, rest)) :
    ∃ token, cs = token ++ rest ∧ (∀ c ∈ token, isNumberChar c = true) ∧
      (∃ d ∈ token.head?, isDigit d = true) ∧
        ∀ rest', Stops rest' → parseSigned negative (token ++ rest') = some (q, rest') := by
  unfold parseSigned at h
  cases hspan : cs.span isDigit with
  | mk whole tail =>
      rw [hspan] at h
      obtain ⟨rfl, hwhole⟩ := span_eq hspan
      dsimp only at h
      split at h
      · cases h
      · rename_i hleading
        split at h
        · cases h
        · rename_i fraction tail' hfraction
          split at h
          · cases h
          · rename_i e tail'' hexponent
            cases h
            obtain ⟨ftoken, rfl, hfchars, hfhead, hfread⟩ := parseFraction_token hfraction
            obtain ⟨etoken, rfl, hechars, hehead, heread⟩ := parseExponent_token hexponent
            refine ⟨whole ++ (ftoken ++ etoken), by simp, ?_, ?_, fun rest' hrest => ?_⟩
            · intro c hc
              rcases List.mem_append.mp hc with hc | hc
              · exact numberChar_of_isDigit (hwhole c hc)
              · rcases List.mem_append.mp hc with hc | hc
                · exact hfchars c hc
                · exact hechars c hc
            · cases whole with
              | nil => exact absurd (.inl rfl) hleading
              | cons d ds => exact ⟨d, rfl, hwhole d List.mem_cons_self⟩
            · have hetail : ∀ c ∈ (etoken ++ rest').head?, isDigit c = false ∧ c ≠ '.' := by
                intro c hc
                cases etoken with
                | nil => exact ⟨(hrest c hc).1, (hrest c hc).2.1⟩
                | cons d ds =>
                    cases hc
                    rcases hehead c rfl with rfl | rfl <;> decide
              have hftail : ∀ c ∈ (ftoken ++ (etoken ++ rest')).head?, isDigit c = false := by
                intro c hc
                cases ftoken with
                | nil => exact (hetail c hc).1
                | cons d ds =>
                    cases hc
                    rw [hfhead c rfl]
                    decide
              unfold parseSigned
              rw [List.append_assoc, List.append_assoc, span_digits hwhole hftail]
              dsimp only
              rw [if_neg hleading, hfread _ hetail]
              dsimp only
              rw [heread rest' hrest]

/-- **The token of a number**: characters of a number, from a digit or a sign on, which are read alike
whatever follows them. -/
theorem parseNumber_token (h : parseNumber cs = some (q, rest)) :
    ∃ token, cs = token ++ rest ∧ (∀ c ∈ token, isNumberChar c = true) ∧
      (∃ c ∈ token.head?, isDigit c = true ∨ c = '-') ∧
        ∀ rest', Stops rest' → parseNumber (token ++ rest') = some (q, rest') := by
  by_cases hminus : cs.head? = some '-'
  · obtain ⟨cs, rfl⟩ := List.head?_eq_some_iff.mp hminus
    rw [parseNumber_minus] at h
    obtain ⟨token, rfl, hchars, -, hread⟩ := parseSigned_token h
    refine ⟨'-' :: token, rfl, ?_, ⟨'-', rfl, .inr rfl⟩, fun rest' hrest => ?_⟩
    · intro c hc
      rcases List.mem_cons.mp hc with rfl | hc
      · decide
      · exact hchars c hc
    · rw [List.cons_append, parseNumber_minus]
      exact hread rest' hrest
  · rw [parseNumber_plus hminus] at h
    obtain ⟨token, rfl, hchars, ⟨d, hd, hdigit⟩, hread⟩ := parseSigned_token h
    refine ⟨token, rfl, hchars, ⟨d, hd, .inl hdigit⟩, fun rest' hrest => ?_⟩
    rw [parseNumber_plus]
    · exact hread rest' hrest
    · obtain ⟨ds, rfl⟩ := List.head?_eq_some_iff.mp hd
      rintro heq
      cases heq
      exact absurd hdigit (by decide)

theorem stops_compact (h : Stops (skipSpace rest)) : Stops (compact false rest) := by
  intro c hc
  rw [head_compact] at hc
  exact h c hc

theorem parseNumber_compact (h : parseNumber cs = some (q, rest)) (hrest : Stops (skipSpace rest)) :
    parseNumber (compact false cs) = some (q, compact false rest) ∧
      (compact false rest).length < (compact false cs).length ∧
        ∃ c tail, compact false cs = c :: tail ∧ (isDigit c = true ∨ c = '-') := by
  obtain ⟨token, rfl, hchars, ⟨c, hc, hkind⟩, hread⟩ := parseNumber_token h
  obtain ⟨tail, rfl⟩ := List.head?_eq_some_iff.mp hc
  rw [compact_token fun c hc => numberChar_kept (hchars c hc)]
  refine ⟨hread _ (stops_compact hrest), ?_, c, _, rfl, hkind⟩
  simp only [List.cons_append, List.length_cons, List.length_append]
  omega

/-! ## Values -/

/-- What is read of a text is read of the compact text, with two units of fuel for each character that
is read of it, less `slack`. -/
def ReadsCompact {α : Type} (read : Nat → List Char → Option (α × List Char)) (slack : Nat)
    (cs : List Char) (a : α) (rest : List Char) : Prop :=
  (compact false rest).length < (compact false cs).length ∧
    ∀ fuel, 2 * (compact false cs).length ≤ fuel + slack + 2 * (compact false rest).length →
      read fuel (compact false cs) = some (a, compact false rest)

/-- What is read is something, so that there is fuel for a call. -/
theorem readsCompact_of_succ {α : Type} {read : Nat → List Char → Option (α × List Char)}
    {slack : Nat} {cs rest : List Char} {a : α} (hslack : slack ≤ 1)
    (hlength : (compact false rest).length < (compact false cs).length)
    (h : ∀ fuel, 2 * (compact false cs).length ≤ fuel + 1 + slack + 2 * (compact false rest).length →
      read (fuel + 1) (compact false cs) = some (a, compact false rest)) :
    ReadsCompact read slack cs a rest := by
  refine ⟨hlength, fun fuel hfuel => ?_⟩
  obtain ⟨fuel, rfl⟩ : ∃ f, fuel = f + 1 := ⟨fuel - 1, by omega⟩
  exact h fuel hfuel

theorem readsCompact_word {word : List Char} {v : JsValue} (hne : word ≠ [])
    (hkept : ∀ c ∈ word, isJsonSpace c = false ∧ c ≠ '"')
    (hread : ∀ fuel rest, parseValue (fuel + 1) (word ++ rest) = some (v, rest)) (rest : List Char) :
    ReadsCompact parseValue 0 (word ++ rest) v rest := by
  have hword := compact_token hkept rest
  have hlength := List.length_pos_iff.mpr hne
  refine readsCompact_of_succ (by omega) (by rw [hword, List.length_append]; omega) fun fuel _ => ?_
  rw [hword]
  exact hread fuel _

theorem readsCompact_null (rest : List Char) :
    ReadsCompact parseValue 0 (['n', 'u', 'l', 'l'] ++ rest) .null rest :=
  readsCompact_word (by simp) (by simp [isJsonSpace])
    (fun _ _ => by simp [parseValue, skipSpace_cons (c := 'n') (by decide)]) rest

theorem readsCompact_true (rest : List Char) :
    ReadsCompact parseValue 0 (['t', 'r', 'u', 'e'] ++ rest) (.bool true) rest :=
  readsCompact_word (by simp) (by simp [isJsonSpace])
    (fun _ _ => by simp [parseValue, skipSpace_cons (c := 't') (by decide)]) rest

theorem readsCompact_false (rest : List Char) :
    ReadsCompact parseValue 0 (['f', 'a', 'l', 's', 'e'] ++ rest) (.bool false) rest :=
  readsCompact_word (by simp) (by simp [isJsonSpace])
    (fun _ _ => by simp [parseValue, skipSpace_cons (c := 'f') (by decide)]) rest

theorem compact_quote (cs : List Char) : compact false ('"' :: cs) = '"' :: compact true cs :=
  compact_cons (by decide) cs

theorem readsCompact_str {s : String} (h : parseString cs = some (s, rest)) :
    ReadsCompact parseValue 0 ('"' :: cs) (.str s) rest := by
  obtain ⟨hread, hlength⟩ := parseString_compact h
  refine readsCompact_of_succ (by omega)
    (by rw [compact_quote]; simp only [List.length_cons]; omega) ?_
  intro fuel _
  rw [compact_quote]
  simp [parseValue, skipSpace_cons (c := '"') (by decide), hread]

theorem readsCompact_number (h : parseNumber cs = some (q, rest)) (hrest : Stops (skipSpace rest)) :
    ReadsCompact parseValue 0 cs (.num q) rest := by
  obtain ⟨hread, hlength, c, tail, htext, hc⟩ := parseNumber_compact h hrest
  refine readsCompact_of_succ (by omega) hlength ?_
  intro fuel _
  rw [htext] at hread ⊢
  rw [parseValue_number hc, hread]
  rfl

theorem compact_mark (h : c ∈ ['[', ']', '\x7b', '\x7d', ',', ':']) (cs : List Char) :
    compact false (c :: cs) = c :: compact false cs := by
  simp only [List.mem_cons, List.not_mem_nil, or_false] at h
  rcases h with rfl | rfl | rfl | rfl | rfl | rfl <;> exact compact_cons (by decide) cs

theorem readsCompact_emptyArr {cs rest : List Char} (h : skipSpace cs = ']' :: rest) :
    ReadsCompact parseValue 0 ('[' :: cs) (.arr []) rest := by
  have htext : compact false ('[' :: cs) = '[' :: ']' :: compact false rest := by
    rw [compact_mark (by decide), ← compact_skipSpace, h, compact_mark (by decide)]
  refine readsCompact_of_succ (by omega) (by rw [htext]; simp only [List.length_cons]; omega) ?_
  intro fuel _
  rw [htext]
  simp [parseValue, skipSpace_cons (c := '[') (by decide), skipSpace_cons (c := ']') (by decide)]

theorem readsCompact_arr {cs rest : List Char} {vs : List JsValue}
    (hclose : (skipSpace cs).head? ≠ some ']') (h : ReadsCompact parseElements 1 cs vs rest) :
    ReadsCompact parseValue 0 ('[' :: cs) (.arr vs) rest := by
  obtain ⟨hlength, hread⟩ := h
  have htext := compact_mark (c := '[') (by decide) cs
  refine readsCompact_of_succ (by omega) (by rw [htext]; simp only [List.length_cons]; omega) ?_
  intro fuel hfuel
  rw [htext] at hfuel ⊢
  simp only [List.length_cons] at hfuel
  have hhead : (skipSpace (compact false cs)).head? ≠ some ']' := by
    rw [skipSpace_compact, head_compact]
    exact hclose
  rw [parseValue_bracket hhead, skipSpace_compact, hread fuel (by omega)]
  rfl

theorem readsCompact_emptyObj (h : skipSpace cs = '\x7d' :: rest) :
    ReadsCompact parseValue 0 ('\x7b' :: cs) (.obj []) rest := by
  have htext : compact false ('\x7b' :: cs) = '\x7b' :: '\x7d' :: compact false rest := by
    rw [compact_mark (by decide), ← compact_skipSpace, h, compact_mark (by decide)]
  refine readsCompact_of_succ (by omega) (by rw [htext]; simp only [List.length_cons]; omega) ?_
  intro fuel _
  rw [htext]
  simp [parseValue, skipSpace_cons (c := '\x7b') (by decide),
    skipSpace_cons (c := '\x7d') (by decide)]

theorem readsCompact_obj {es : List (String × JsValue)}
    (hclose : (skipSpace cs).head? ≠ some '\x7d') (h : ReadsCompact parseMembers 1 cs es rest) :
    ReadsCompact parseValue 0 ('\x7b' :: cs) (.obj (JsObject.spread [] es)) rest := by
  obtain ⟨hlength, hread⟩ := h
  have htext := compact_mark (c := '\x7b') (by decide) cs
  refine readsCompact_of_succ (by omega) (by rw [htext]; simp only [List.length_cons]; omega) ?_
  intro fuel hfuel
  rw [htext] at hfuel ⊢
  simp only [List.length_cons] at hfuel
  have hhead : (skipSpace (compact false cs)).head? ≠ some '\x7d' := by
    rw [skipSpace_compact, head_compact]
    exact hclose
  rw [parseValue_brace hhead, skipSpace_compact, hread fuel (by omega)]
  rfl

theorem readsCompact_lastElement {cs rest rest' : List Char} {v : JsValue}
    (hv : ReadsCompact parseValue 0 cs v rest) (h : skipSpace rest = ']' :: rest') :
    ReadsCompact parseElements 1 cs [v] rest' := by
  obtain ⟨hlength, hread⟩ := hv
  have htext : compact false rest = ']' :: compact false rest' := compact_of_skipSpace h
  rw [htext] at hlength hread
  simp only [List.length_cons] at hlength hread
  refine readsCompact_of_succ (by omega) (by omega) fun fuel hfuel => ?_
  simp [parseElements, hread fuel (by omega), skipSpace_cons (c := ']') (by decide)]

theorem readsCompact_nextElement {cs rest rest' rest'' : List Char} {vs : List JsValue}
    (hv : ReadsCompact parseValue 0 cs v rest) (h : skipSpace rest = ',' :: rest')
    (hvs : ReadsCompact parseElements 1 rest' vs rest'') :
    ReadsCompact parseElements 1 cs (v :: vs) rest'' := by
  obtain ⟨hlength, hread⟩ := hv
  obtain ⟨hlength', hread'⟩ := hvs
  have htext : compact false rest = ',' :: compact false rest' := compact_of_skipSpace h
  rw [htext] at hlength hread
  simp only [List.length_cons] at hlength hread
  refine readsCompact_of_succ (by omega) (by omega) fun fuel hfuel => ?_
  simp [parseElements, hread fuel (by omega), skipSpace_cons (c := ',') (by decide),
    hread' fuel (by omega)]

section Members

variable {cs key colon value rest rest' : List Char} {k : String} {v : JsValue}

/-- A member of the compact text, up to what follows its value. -/
theorem parseMembers_compact (hquote : skipSpace cs = '"' :: key)
    (hkey : parseString key = some (k, colon)) (hcolon : skipSpace colon = ':' :: value)
    (fuel : Nat) : parseMembers (fuel + 1) (compact false cs) =
      (parseValue fuel (compact false value)).bind fun (v, rest) =>
        match skipSpace rest with
        | ',' :: rest    => (parseMembers fuel rest).map fun (es, rest) => ((k, v) :: es, rest)
        | '\x7d' :: rest => some ([(k, v)], rest)
        | _              => none := by
  have htext : compact false cs = '"' :: compact true key := compact_of_skipSpace hquote
  have hmark : compact false colon = ':' :: compact false value := compact_of_skipSpace hcolon
  rw [htext]
  simp only [parseMembers, skipSpace_cons (c := '"') (by decide), (parseString_compact hkey).1, hmark,
    skipSpace_cons (c := ':') (by decide)]
  cases parseValue fuel (compact false value) with
  | none => rfl
  | some r => rfl

theorem length_member (hquote : skipSpace cs = '"' :: key) (hkey : parseString key = some (k, colon))
    (hcolon : skipSpace colon = ':' :: value) :
    (compact false value).length + 2 < (compact false cs).length := by
  have htext : compact false cs = '"' :: compact true key := compact_of_skipSpace hquote
  have hmark : compact false colon = ':' :: compact false value := compact_of_skipSpace hcolon
  have hlength := (parseString_compact hkey).2
  rw [hmark] at hlength
  rw [htext]
  simp only [List.length_cons] at hlength ⊢
  omega

theorem readsCompact_lastMember (hquote : skipSpace cs = '"' :: key)
    (hkey : parseString key = some (k, colon)) (hcolon : skipSpace colon = ':' :: value)
    (hv : ReadsCompact parseValue 0 value v rest) (h : skipSpace rest = '\x7d' :: rest') :
    ReadsCompact parseMembers 1 cs [(k, v)] rest' := by
  obtain ⟨hlength, hread⟩ := hv
  have hkeyLength := length_member hquote hkey hcolon
  have htext : compact false rest = '\x7d' :: compact false rest' := compact_of_skipSpace h
  rw [htext] at hlength hread
  simp only [List.length_cons] at hlength hread
  refine readsCompact_of_succ (by omega) (by omega) fun fuel hfuel => ?_
  rw [parseMembers_compact hquote hkey hcolon, hread fuel (by omega)]
  simp [skipSpace_cons (c := '\x7d') (by decide)]

theorem readsCompact_nextMember {rest'' : List Char} {es : List (String × JsValue)}
    (hquote : skipSpace cs = '"' :: key) (hkey : parseString key = some (k, colon))
    (hcolon : skipSpace colon = ':' :: value) (hv : ReadsCompact parseValue 0 value v rest)
    (h : skipSpace rest = ',' :: rest') (hes : ReadsCompact parseMembers 1 rest' es rest'') :
    ReadsCompact parseMembers 1 cs ((k, v) :: es) rest'' := by
  obtain ⟨hlength, hread⟩ := hv
  obtain ⟨hlength', hread'⟩ := hes
  have hkeyLength := length_member hquote hkey hcolon
  have htext : compact false rest = ',' :: compact false rest' := compact_of_skipSpace h
  rw [htext] at hlength hread
  simp only [List.length_cons] at hlength hread
  refine readsCompact_of_succ (by omega) (by omega) fun fuel hfuel => ?_
  rw [parseMembers_compact hquote hkey hcolon, hread fuel (by omega)]
  simp [skipSpace_cons (c := ',') (by decide), hread' fuel (by omega)]

end Members

theorem readsCompact_skipSpace {α : Type} {read : Nat → List Char → Option (α × List Char)}
    {slack : Nat} {a : α} :
    ReadsCompact read slack (skipSpace cs) a rest ↔ ReadsCompact read slack cs a rest := by
  unfold ReadsCompact
  rw [compact_skipSpace]

theorem parseFuel_compact (fuel : Nat) :
    (∀ cs v rest, parseValue fuel cs = some (v, rest) → Stops (skipSpace rest) →
      ReadsCompact parseValue 0 cs v rest) ∧
    (∀ cs vs rest, parseElements fuel cs = some (vs, rest) → ReadsCompact parseElements 1 cs vs rest) ∧
    ∀ cs es rest, parseMembers fuel cs = some (es, rest) → ReadsCompact parseMembers 1 cs es rest := by
  induction fuel with
  | zero => exact ⟨fun _ _ _ h => (by cases h), fun _ _ _ h => (by cases h), fun _ _ _ h => (by cases h)⟩
  | succ fuel ih =>
      obtain ⟨hvalue, helements, hmembers⟩ := ih
      refine ⟨fun cs v rest h hrest => ?_, fun cs vs rest h => ?_, fun cs es rest h => ?_⟩
      · rw [← readsCompact_skipSpace]
        unfold parseValue at h
        generalize skipSpace cs = cs at h ⊢
        split at h
        · cases h
          exact readsCompact_null rest
        · cases h
          exact readsCompact_true rest
        · cases h
          exact readsCompact_false rest
        · obtain ⟨⟨s, rest'⟩, hs, heq⟩ := Option.map_eq_some_iff.mp h
          cases heq
          exact readsCompact_str hs
        · split at h
          · cases h
            exact readsCompact_emptyArr ‹_›
          · rename_i hclose
            obtain ⟨⟨vs, rest'⟩, hvs, heq⟩ := Option.map_eq_some_iff.mp h
            cases heq
            refine readsCompact_arr ?_ (readsCompact_skipSpace.mp (helements _ _ _ hvs))
            intro hhead
            obtain ⟨tail, htail⟩ := List.head?_eq_some_iff.mp hhead
            exact hclose tail htail
        · split at h
          · cases h
            exact readsCompact_emptyObj ‹_›
          · rename_i hclose
            obtain ⟨⟨es, rest'⟩, hes, heq⟩ := Option.map_eq_some_iff.mp h
            cases heq
            refine readsCompact_obj ?_ (readsCompact_skipSpace.mp (hmembers _ _ _ hes))
            intro hhead
            obtain ⟨tail, htail⟩ := List.head?_eq_some_iff.mp hhead
            exact hclose tail htail
        · obtain ⟨⟨q, rest'⟩, hq, heq⟩ := Option.map_eq_some_iff.mp h
          cases heq
          exact readsCompact_number hq hrest
      · unfold parseElements at h
        split at h
        · cases h
        · rename_i v rest' hv
          split at h
          · rename_i tail hcomma
            obtain ⟨⟨vs, rest''⟩, hvs, heq⟩ := Option.map_eq_some_iff.mp h
            cases heq
            -- a number that stops before the comma stops before it in the compact text
            have hstops : Stops (skipSpace rest') := by
              rw [hcomma]
              exact stops_of (.inl rfl) _
            exact readsCompact_nextElement (hvalue _ _ _ hv hstops) hcomma (helements _ _ _ hvs)
          · rename_i tail hclose
            cases h
            have hstops : Stops (skipSpace rest') := by
              rw [hclose]
              exact stops_of (.inr (.inl rfl)) _
            exact readsCompact_lastElement (hvalue _ _ _ hv hstops) hclose
          · cases h
      · unfold parseMembers at h
        split at h
        · rename_i key hquote
          split at h
          · cases h
          · rename_i k colon hkey
            split at h
            · rename_i value hcolon
              split at h
              · cases h
              · rename_i v rest' hv
                split at h
                · rename_i tail hcomma
                  obtain ⟨⟨es, rest''⟩, hes, heq⟩ := Option.map_eq_some_iff.mp h
                  cases heq
                  have hstops : Stops (skipSpace rest') := by
                    rw [hcomma]
                    exact stops_of (.inl rfl) _
                  exact readsCompact_nextMember hquote hkey hcolon (hvalue _ _ _ hv hstops) hcomma
                    (hmembers _ _ _ hes)
                · rename_i tail hclose
                  cases h
                  have hstops : Stops (skipSpace rest') := by
                    rw [hclose]
                    exact stops_of (.inr (.inr rfl)) _
                  exact readsCompact_lastMember hquote hkey hcolon (hvalue _ _ _ hv hstops) hclose
                · cases h
            · cases h
        · cases h

/-- **Spaces between tokens do not matter.** -/
theorem parse_compact {text : String} (h : parse text = some v) :
    parse (compactText text) = some v := by
  unfold parse at h
  split at h
  · rename_i w rest hw
    split at h
    · rename_i hend
      cases h
      have hstops : Stops (skipSpace rest) := by
        rw [hend]
        intro c hc
        cases hc
      have hnone : compact false rest = [] := by rw [← compact_skipSpace, hend]; rfl
      have hread := ((parseFuel_compact _).1 _ _ _ hw hstops).2
      rw [hnone] at hread
      unfold parse compactText
      rw [String.toList_ofList, hread _ (by simp)]
      rfl
    · cases h
  · cases h

end MapProtocol.Js
