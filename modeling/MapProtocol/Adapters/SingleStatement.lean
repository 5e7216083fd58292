import MapProtocol.Adapters.DbReadAdapter
import MapProtocol.Js.JsonNumbers
import Mathlib.Data.List.TakeWhile

/-!
# One statement

A query that is accepted begins with `SELECT` or `WITH`, has no blocked keyword among its words, and
nothing behind a `;` on the same line. `SingleSelect` is what the checks are for: one statement, as it
is given and as it is sent. The beginning is compared in capitals and without the end of the word, `.`
stops at the end of the line, and the `LIMIT` is added behind a `;`. `singleSelect_iff` says what
remains to be asked of an accepted query.
-/

namespace MapProtocol

open Js

namespace DbReadAdapter

variable {upper : UpperCase} {query keyword : String}

/-- There is only white space after the first `;`. -/
def OneStatement (text : String) : Prop :=
  ∀ c ∈ (text.toList.dropWhile (· ≠ ';')).tail, isWhiteSpace c = true

instance (text : String) : Decidable (OneStatement text) :=
  decidable_of_iff ((text.toList.dropWhile (· ≠ ';')).tail.all isWhiteSpace) List.all_eq_true

def firstWord (text : String) : List Char := text.toList.takeWhile isWordChar

/-- The words a query may begin with. -/
def readKeywords : List String := ["SELECT", "WITH"]

/-- A query, and the text that is sent for it, are one statement that reads. -/
structure SingleSelect (query sent : String) : Prop where
  keyword   : ∃ keyword ∈ readKeywords, (firstWord query).map Char.toUpper = keyword.toList
  statement : OneStatement query
  unblocked : ∀ keyword ∈ blockedKeywords, ¬ HasWord keyword query
  sent      : OneStatement sent

/-- What the checks leave open. -/
structure KeepsToOneStatement (upper : UpperCase) (query : String) : Prop where
  /-- The keyword is written in ASCII, and the word ends behind it. -/
  keyword : ∃ keyword ∈ readKeywords, startsWith (upper.apply query) keyword = true ∧
    (∀ c ∈ query.toList.take keyword.toList.length, c.toNat < 128) ∧
    (query.toList.drop keyword.toList.length).head?.any isWordChar = false
  /-- The lines below the first `;` are blank. -/
  lines   : ∀ c ∈ (query.toList.dropWhile (· ≠ ';')).dropWhile dotCovers, isWhiteSpace c = true
  limit   : ';' ∈ query.toList → HasWord "LIMIT" query

/-! ## The keyword at the beginning -/

theorem startsWith_apply_iff {w rest : List Char} (hquery : query.toList = w ++ rest)
    (hascii : ∀ c ∈ w, c.toNat < 128) (hlength : w.length = keyword.toList.length) :
    startsWith (upper.apply query) keyword = true ↔ w.map Char.toUpper = keyword.toList := by
  unfold startsWith
  rw [List.isPrefixOf_iff_prefix, toList_apply hquery hascii]
  constructor
  · intro h
    have hstarts : keyword.toList <+: w.map Char.toUpper :=
      List.prefix_of_prefix_length_le h (List.prefix_append ..) (by simp [hlength])
    exact (hstarts.eq_of_length (by simp [hlength])).symm
  · intro h
    exact h ▸ List.prefix_append ..

theorem length_take_of_startsWith
    (hascii : ∀ c ∈ query.toList.take keyword.toList.length, c.toNat < 128)
    (h : startsWith (upper.apply query) keyword = true) :
    (query.toList.take keyword.toList.length).length = keyword.toList.length := by
  rw [List.length_take]
  refine Nat.min_eq_left ?_
  by_contra hshort
  rw [List.take_of_length_le (by omega)] at hascii
  unfold startsWith UpperCase.apply at h
  rw [String.toList_ofList, flatMap_ascii hascii, List.isPrefixOf_iff_prefix] at h
  have hle := h.length_le
  rw [List.length_map] at hle
  omega

theorem firstWord_eq_iff (hkeyword : IsKeywordText keyword) :
    (firstWord query).map Char.toUpper = keyword.toList ↔
      (query.toList.take keyword.toList.length).map Char.toUpper = keyword.toList ∧
        (query.toList.drop keyword.toList.length).head?.any isWordChar = false := by
  unfold firstWord
  constructor
  · intro h
    have hlength : (query.toList.takeWhile isWordChar).length = keyword.toList.length := by
      rw [← h, List.length_map]
    have hsplit := List.takeWhile_append_dropWhile (p := isWordChar) (l := query.toList)
    have htake : query.toList.take keyword.toList.length = query.toList.takeWhile isWordChar := by
      conv_lhs => rw [← hsplit, ← hlength, List.take_left]
    have hdrop : query.toList.drop keyword.toList.length = query.toList.dropWhile isWordChar := by
      conv_lhs => rw [← hsplit, ← hlength, List.drop_left]
    refine ⟨htake ▸ h, ?_⟩
    rw [hdrop]
    exact head_dropWhile_word isWordChar query.toList
  · rintro ⟨htake, hdrop⟩
    have hword : ∀ c ∈ query.toList.take keyword.toList.length, isWordChar c = true := by
      intro c hc
      rw [← isWordChar_toUpper]
      exact hkeyword.word _ (htake ▸ List.mem_map_of_mem hc)
    rw [← List.take_append_drop keyword.toList.length query.toList, takeWhile_word hword hdrop, htake]

theorem readKeywords_text : ∀ keyword ∈ readKeywords, IsKeywordText keyword := by decide

/-- The text begins with one of the keywords as a word. -/
theorem keyword_iff :
    (∃ keyword ∈ readKeywords, (firstWord query).map Char.toUpper = keyword.toList) ↔
      ∃ keyword ∈ readKeywords, startsWith (upper.apply query) keyword = true ∧
        (∀ c ∈ query.toList.take keyword.toList.length, c.toNat < 128) ∧
        (query.toList.drop keyword.toList.length).head?.any isWordChar = false := by
  have hsplit (n : Nat) := (List.take_append_drop n query.toList).symm
  refine exists_congr fun keyword => and_congr_right fun hread => ?_
  rw [firstWord_eq_iff (readKeywords_text keyword hread)]
  constructor
  · rintro ⟨htake, hdrop⟩
    have hascii : ∀ c ∈ query.toList.take keyword.toList.length, c.toNat < 128 := by
      intro c hc
      refine isAscii_of_isWordChar ?_
      rw [← isWordChar_toUpper]
      exact (readKeywords_text keyword hread).word _ (htake ▸ List.mem_map_of_mem hc)
    have hlength : (query.toList.take keyword.toList.length).length = keyword.toList.length := by
      conv_rhs => rw [← htake, List.length_map]
    exact ⟨(startsWith_apply_iff (hsplit _) hascii hlength).mpr htake, hascii, hdrop⟩
  · rintro ⟨hstarts, hascii, hdrop⟩
    have hlength := length_take_of_startsWith hascii hstarts
    exact ⟨(startsWith_apply_iff (hsplit _) hascii hlength).mp hstarts, hdrop⟩

/-! ## The end of the statement -/

theorem semicolon_cases (cs : List Char) :
    ';' ∉ cs ∨ ∃ front rest, cs = front ++ ';' :: rest ∧ ';' ∉ front := by
  by_cases h : ';' ∈ cs
  · obtain ⟨front, rest, hsplit, hfront⟩ := List.eq_append_cons_of_mem h
    exact .inr ⟨front, rest, hsplit, hfront⟩
  · exact .inl h

theorem dropWhile_of_notMem {cs : List Char} (h : ';' ∉ cs) : cs.dropWhile (· ≠ ';') = [] :=
  List.dropWhile_eq_nil_iff.mpr fun c hc => by simpa using ne_of_mem_of_not_mem hc h

theorem dropWhile_semicolon {front rest : List Char} (h : ';' ∉ front) :
    (front ++ ';' :: rest).dropWhile (· ≠ ';') = ';' :: rest := by
  rw [List.dropWhile_append_of_pos fun c hc => by simpa using ne_of_mem_of_not_mem hc h]
  exact List.dropWhile_cons_of_neg (by simp)

theorem oneStatement_of_notMem {text : String} (h : ';' ∉ text.toList) : OneStatement text := by
  unfold OneStatement
  rw [dropWhile_of_notMem h]
  nofun

theorem oneStatement_split {text : String} {front rest : List Char}
    (htext : text.toList = front ++ ';' :: rest) (hfront : ';' ∉ front) :
    OneStatement text ↔ ∀ c ∈ rest, isWhiteSpace c = true := by
  unfold OneStatement
  rw [htext, dropWhile_semicolon hfront, List.tail_cons]

/-- Where the line of the first `;` ends in white space, the text is one statement exactly when the
lines below are blank. -/
theorem oneStatement_iff_lines {query : String}
    (h : ∀ front rest, query.toList = front ++ ';' :: rest →
      ∀ c ∈ rest.takeWhile dotCovers, isWhiteSpace c = true) :
    OneStatement query ↔ ∀ c ∈ (query.toList.dropWhile (· ≠ ';')).dropWhile dotCovers,
      isWhiteSpace c = true := by
  rcases semicolon_cases query.toList with hnone | ⟨front, rest, hquery, hfront⟩
  · refine iff_of_true (oneStatement_of_notMem hnone) ?_
    rw [dropWhile_of_notMem hnone]
    nofun
  · have hcovers : dotCovers ';' = true := by decide
    rw [oneStatement_split hquery hfront, hquery, dropWhile_semicolon hfront,
      List.dropWhile_cons_of_pos hcovers]
    -- of the line itself the pattern has taken care, so only what is below it is left
    have hline := h front rest hquery
    constructor
    · exact fun hall c hc => hall c ((List.dropWhile_sublist _).subset hc)
    · intro hbelow c hc
      rw [← List.takeWhile_append_dropWhile (p := dotCovers) (l := rest)] at hc
      exact (List.mem_append.mp hc).elim (hline c) (hbelow c)

/-! ## The `LIMIT` -/

theorem limit_text : IsKeywordText "LIMIT" := by decide

theorem semicolon_notMem_limit (limit : Nat) : ';' ∉ (" LIMIT " ++ toString limit).toList := by
  rw [String.toList_append, List.mem_append]
  rintro (hword | hdigits)
  · exact absurd hword (by decide)
  · exact absurd (isDigit_of_mem_toString hdigits) (by decide)

theorem toList_withLimit (query : String) (limit : Nat) :
    (query ++ " LIMIT " ++ toString limit).toList =
      query.toList ++ (" LIMIT " ++ toString limit).toList := by
  rw [String.append_assoc, String.toList_append]

theorem not_oneStatement_withLimit (h : ';' ∈ query.toList) (limit : Nat) :
    ¬ OneStatement (query ++ " LIMIT " ++ toString limit) := by
  obtain ⟨front, rest, hquery, hfront⟩ := List.eq_append_cons_of_mem h
  have hsent : (query ++ " LIMIT " ++ toString limit).toList =
      front ++ ';' :: (rest ++ (" LIMIT " ++ toString limit).toList) := by
    rw [toList_withLimit, hquery, List.append_assoc, List.cons_append]
  rw [oneStatement_split hsent hfront]
  intro hwhite
  have hmem : 'L' ∈ rest ++ (" LIMIT " ++ toString limit).toList := by simp
  exact absurd (hwhite 'L' hmem) (by decide)

theorem oneStatement_limitedQuery_iff {query : String} (limit : Nat) :
    OneStatement query ∧ OneStatement (limitedQuery query limit) ↔
      OneStatement query ∧ (';' ∈ query.toList → HasWord "LIMIT" query) := by
  have hword := testsWord_iff limit_text query
  refine and_congr_right fun hone => ?_
  unfold limitedQuery
  by_cases htest : testsWord "LIMIT" query = true
  · rw [if_pos htest]
    exact iff_of_true hone fun _ => hword.mp htest
  · rw [if_neg htest]
    constructor
    · -- the `LIMIT` that is appended would stand behind the `;`
      exact fun hsent hmem => absurd hsent (not_oneStatement_withLimit hmem limit)
    · intro hlimit
      have hnone : ';' ∉ query.toList := fun hmem => htest (hword.mpr (hlimit hmem))
      refine oneStatement_of_notMem ?_
      rw [toList_withLimit, List.mem_append]
      exact not_or.mpr ⟨hnone, semicolon_notMem_limit limit⟩

/-! ## One statement -/

/-- **An input that is accepted is a single statement that reads exactly when its query keeps to one
line, ends its keyword, and brings its own `LIMIT` with a `;`.** -/
theorem singleSelect_iff (upper : UpperCase) (adapter : DbReadAdapter) (value : JsValue)
    (h : (adapter.validate upper value).valid = true) :
    ∃ input, value = .obj input ∧
      (SingleSelect (queryOf input) (limitedQuery (queryOf input) (adapter.rowLimit input)) ↔
        KeepsToOneStatement upper (queryOf input)) := by
  obtain ⟨input, rfl⟩ := validate_object h
  obtain ⟨haccepts, -, -, -⟩ := accepted_of_validate h
  have hlines := oneStatement_iff_lines haccepts.statements
  have hsent := @oneStatement_limitedQuery_iff (queryOf input) (adapter.rowLimit input)
  refine ⟨input, rfl, ?_, ?_⟩
  · rintro ⟨hkeyword, hone, -, hsentOne⟩
    exact ⟨keyword_iff.mp hkeyword, hlines.mp hone, (hsent.mp ⟨hone, hsentOne⟩).2⟩
  · rintro ⟨hkeyword, hbelow, hlimit⟩
    have hone := hlines.mpr hbelow
    exact ⟨keyword_iff.mpr hkeyword, hone, haccepts.unblocked, (hsent.mpr ⟨hone, hlimit⟩).2⟩

theorem singleSelect_iff_sample :
    ∃ input, JsValue.obj [("query", .str "SELECT 1 LIMIT 1; ")] = .obj input ∧
      (SingleSelect (queryOf input) (limitedQuery (queryOf input)
          ((new id none {}).rowLimit input)) ↔
        KeepsToOneStatement asciiCapitals (queryOf input)) :=
  singleSelect_iff asciiCapitals (new id none {}) (.obj [("query", .str "SELECT 1 LIMIT 1; ")])
    (by decide)

/-- Two statements on two lines are accepted. -/
theorem singleSelect_fails :
    ¬ ∀ (upper : UpperCase) (adapter : DbReadAdapter) (input : JsObject),
      (adapter.validate upper (.obj input)).valid = true →
        SingleSelect (queryOf input) (limitedQuery (queryOf input) (adapter.rowLimit input)) := by
  intro h
  have hsingle := h asciiCapitals (new id none {}) [("query", .str "SELECT 1;\nSELECT 2")] (by decide)
  have hquery : (queryOf [("query", .str "SELECT 1;\nSELECT 2")]).toList =
      "SELECT 1".toList ++ ';' :: "\nSELECT 2".toList := by rfl
  have hwhite := (oneStatement_split hquery (by decide)).mp hsingle.statement 'S' (by decide)
  exact absurd hwhite (by decide)

end DbReadAdapter

end MapProtocol
