import MapProtocol.Core.Types
import MapProtocol.Js.Letters
import MapProtocol.Js.RegExp
import MapProtocol.Lib.Words

/-!
# The database adapter

`DbReadAdapter` validates the text of a query by a list of expressions, adds a `LIMIT` to one that has
none, and returns the rows in one of three modes, with some columns redacted. What the database
answers is a parameter, as are Unicode's capital and small letters, the clock and the random number of
a simulated answer.

An expression `\bKEYWORD\b` finds the keyword exactly when it is one of the words of the text
(`testsWord_iff`), and `;.*\S` finds what follows a `;` on the same line (`testsStatements_iff`).
-/

namespace MapProtocol

open Js

/-- `s.trimStart()` -/
def trimStart (s : String) : String := String.ofList (s.toList.dropWhile isWhiteSpace)

namespace DbReadAdapter

/-! ## The blocked patterns -/

/-- A letter of an expression, whatever the case. -/
def sameLetter (letter c : Char) : Bool := c.toUpper == letter

/-- `/\bKEYWORD\b/i.test(text)`, for a keyword in capitals. -/
def testsWord (keyword text : String) : Bool :=
  occursAsWord isWordChar sameLetter keyword.toList false text.toList

/-- `.*\S` at the beginning. -/
def goesOn : List Char → Bool
  | []      => false
  | c :: cs => !isLineTerminator c && (!isWhiteSpace c || goesOn cs)

/-- `/;.*\S/.test(text)` -/
def testsStatements : List Char → Bool
  | []      => false
  | c :: cs => (c == ';' && goesOn cs) || testsStatements cs

def blockedKeywords : List String :=
  ["INSERT", "UPDATE", "DELETE", "DROP", "TRUNCATE", "ALTER", "CREATE", "GRANT", "REVOKE", "EXEC",
    "EXECUTE"]

/-- One of `BLOCKED_SQL_PATTERNS` matches. -/
def testsBlocked (query : String) : Bool :=
  (blockedKeywords.any fun keyword => testsWord keyword query) || includes query "--" ||
    testsStatements query.toList

/-! ## Options -/

inductive DbOutputMode where
  | summary
  | structured
  | countOnly
  deriving DecidableEq, Repr

def DbOutputMode.text : DbOutputMode → String
  | .summary    => "summary"
  | .structured => "structured"
  | .countOnly  => "count_only"

def readOutputMode : JsValue → Option DbOutputMode
  | .str "summary"    => some .summary
  | .str "structured" => some .structured
  | .str "count_only" => some .countOnly
  | _                 => none

structure DbReadAdapterOptions where
  connectionString   : Option String        := none
  maxRows            : Option Nat           := none
  defaultOutputMode  : Option DbOutputMode  := none
  alwaysRedactFields : Option (List String) := none

end DbReadAdapter

open DbReadAdapter

/-- An adapter. The fields that are always redacted are in small letters. -/
structure DbReadAdapter where
  maxRows            : Nat
  defaultOutputMode  : DbOutputMode
  alwaysRedactFields : List String
  simulate           : Bool

namespace DbReadAdapter

/-- The constructor; `lower` is `toLowerCase`, and `environment` is `MAP_DB_CONNECTION_STRING`. -/
def new (lower : String → String) (environment : Option String) (options : DbReadAdapterOptions) :
    DbReadAdapter where
  maxRows            := options.maxRows.getD 1000
  defaultOutputMode  := options.defaultOutputMode.getD .structured
  alwaysRedactFields :=
    (options.alwaysRedactFields.getD ["password", "password_hash", "secret", "token", "api_key", "ssn",
      "credit_card", "card_number"]).map lower
  simulate           := ((options.connectionString.or environment).filter (· ≠ "")).isNone

/-! ## Validation -/

def queryErrors (upper : UpperCase) (query : JsValue) : List ValidationError :=
  match query with
  | .str text =>
      if isBlank text then ⟨"query", "query is required and must be a non-empty string."⟩ :: []
      else
        let query := trim text
        let capitals := trimStart (upper.apply query)
        -- one error at most: the loop over the patterns breaks at the first that matches
        (if testsBlocked query then
          [⟨"query", "Only SELECT queries are allowed. Write operations are blocked."⟩] else []) ++
        (if !startsWith capitals "SELECT" && !startsWith capitals "WITH" then
          [⟨"query", "Query must start with SELECT or WITH."⟩] else [])
  | _         => ⟨"query", "query is required and must be a non-empty string."⟩ :: []

def paramsErrors (params : JsValue) : List ValidationError :=
  match params with
  | .undefined => []
  | .arr _     => []
  | _          => [⟨"params", "params must be an array."⟩]

def limitErrors (maxRows : Nat) (limit : JsValue) : List ValidationError :=
  match limit with
  | .undefined => []
  | .num n     =>
      -- a number with a fraction is no integer
      if n ≤ 0 ∨ n.den ≠ 1 then [⟨"limit", "limit must be a positive integer."⟩]
      else if (maxRows : Rat) < n then [⟨"limit", "limit cannot exceed " ++ toString maxRows ++ "."⟩]
      else []
  | _          => [⟨"limit", "limit must be a positive integer."⟩]

def outputModeErrors (outputMode : JsValue) : List ValidationError :=
  if outputMode.isUndefined || (readOutputMode outputMode).isSome then []
  else [⟨"output_mode", "output_mode must be \"summary\", \"structured\", or \"count_only\"."⟩]

def inputErrors (upper : UpperCase) (maxRows : Nat) (inp : JsObject) : List ValidationError :=
  queryErrors upper (inp.get "query") ++ paramsErrors (inp.get "params") ++
    limitErrors maxRows (inp.get "limit") ++ outputModeErrors (inp.get "output_mode")

/-- `validate`; an array is an object that has none of the members. -/
def validate (upper : UpperCase) (adapter : DbReadAdapter) (input : JsValue) : ValidationResult :=
  let errors := match input with
    | .obj es => inputErrors upper adapter.maxRows es
    | .arr _  => inputErrors upper adapter.maxRows []
    | _       => [⟨"input", "Input must be an object."⟩]
  ⟨errors.isEmpty, errors⟩

/-! ## Execution -/

/-- What `client.query` gives for a text and its parameters. -/
structure DbAnswer where
  rows     : List JsObject
  rowCount : Option Nat

/-- The database, small letters, the clock before and after, and `Math.floor(Math.random() * 10)`. -/
structure DbHost where
  query     : String → List JsValue → Except String DbAnswer
  lower     : String → String
  startedAt : Nat
  endedAt   : Nat
  random    : Nat

/-- The query as it is sent, with a `LIMIT` if there is no such word in it. -/
def limitedQuery (query : String) (limit : Nat) : String :=
  if testsWord "LIMIT" query then query else query ++ " LIMIT " ++ toString limit

/-- `["']` -/
def isQuote (c : Char) : Bool := c.toNat == 0x22 || c.toNat == 0x27

/-- `/FROM\s+["']?(\w+)["']?/i`, the word in it, at the beginning. -/
def tableAt (cs : List Char) : Option String :=
  match afterKeyword sameLetter "FROM".toList cs with
  | some rest =>
      let name := rest.dropWhile isWhiteSpace
      -- the quote may be missing, here and behind the word
      let name := if name.head?.any isQuote then name.tail else name
      let word := name.takeWhile isWordChar
      if rest.head?.any isWhiteSpace && !word.isEmpty then some (String.ofList word) else none
  | none      => none

def firstTable : List Char → Option String
  | []      => none
  | c :: cs => (tableAt (c :: cs)).or (firstTable cs)

def extractTableName (query : String) : String := (firstTable query.toList).getD "record"

def simulatedRow (tableName : String) (now i : Nat) : JsObject :=
  [("id", .num (i + 1)),
    (tableName ++ "_name", .str (tableName ++ "_record_" ++ toString (i + 1))),
    ("created_at", .str (toISOString (now - i * 86400000))),
    ("status", .str (["active", "pending", "completed"].getD (i % 3) ""))]

def simulateQuery (host : DbHost) (query : String) (limit : Nat) : DbAnswer :=
  let count := min (host.random + 1) limit
  ⟨(List.range count).map (simulatedRow (extractTableName query) host.startedAt), some count⟩

def executeQuery (host : DbHost) (query : String) (params : List JsValue) (limit : Nat) :
    Except String DbAnswer :=
  host.query (limitedQuery query limit) params

/-- `redactRow`; a column that is named `__proto__` is no property of the result. -/
def redactRow (lower : String → String) (redactFields : List String) (row : JsObject) : JsObject :=
  (row.filter fun e => e.1 ≠ "__proto__").map fun e =>
    (e.1, if redactFields.contains (lower e.1) then .str "[REDACTED]" else e.2)

inductive DbOutput where
  | countOnly (count durationMs : Nat) (simulated : Bool)
  | summary (count : Nat) (columns : List String) (sample : List JsObject) (durationMs : Nat)
      (simulated : Bool)
  | structured (count : Nat) (rows : List JsObject) (durationMs : Nat) (simulated : Bool)

def DbOutput.rows : DbOutput → List JsObject
  | .countOnly _ _ _        => []
  | .summary _ _ sample _ _ => sample
  | .structured _ rows _ _  => rows

structure DbResult where
  output  : DbOutput
  summary : String

/-- `Math.min(typeof input.limit === "number" ? input.limit : DEFAULT_LIMIT, this.maxRows)`, for a limit
that is a positive integer. -/
def rowLimit (adapter : DbReadAdapter) (input : JsObject) : Nat :=
  min (match input.get "limit" with
    | .num n => n.num.toNat
    | _      => 100) adapter.maxRows

def outputMode (adapter : DbReadAdapter) (input : JsObject) : DbOutputMode :=
  (readOutputMode (input.get "output_mode")).getD adapter.defaultOutputMode

/-- `input.redact_fields ?? []`, where it is a list of texts. -/
def readRedactFields (input : JsObject) : Except String (List String) :=
  match input.get "redact_fields" with
  | .undefined => .ok []
  | .null      => .ok []
  | .arr xs    => xs.mapM fun
      | .str s => .ok s
      | _      => .error "f.toLowerCase is not a function"
  | _          => .error "(input.redact_fields ?? []).map is not a function"

/-- The query of an input, and the list of its parameters. -/
def queryOf (input : JsObject) : String := trim ((input.get "query").asString.getD "")

def paramsOf (input : JsObject) : List JsValue :=
  match input.get "params" with
  | .arr xs => xs
  | _       => []

def buildOutput (mode : DbOutputMode) (rows : List JsObject) (rowCount durationMs : Nat)
    (simulated : Bool) : DbOutput :=
  match mode with
  | .countOnly  => .countOnly rowCount durationMs simulated
  | .summary    =>
      .summary rowCount ((rows.head?.map JsObject.keys).getD []) (rows.take 3) durationMs simulated
  | .structured => .structured rowCount rows durationMs simulated

/-- What `execute` has from the database, or from the simulation. -/
def answerOf (adapter : DbReadAdapter) (host : DbHost) (input : JsObject) : Except String DbAnswer :=
  if adapter.simulate then .ok (simulateQuery host (queryOf input) (adapter.rowLimit input))
  else executeQuery host (queryOf input) (paramsOf input) (adapter.rowLimit input)

/-- `execute`, for an input that was accepted. -/
def execute (adapter : DbReadAdapter) (host : DbHost) (input : JsObject) : Except String DbResult := do
  let redactFields := adapter.alwaysRedactFields ++ (← readRedactFields input).map host.lower
  let answer ← adapter.answerOf host input
  let rowCount := answer.rowCount.getD answer.rows.length
  let durationMs := host.endedAt - host.startedAt
  let redactedRows := answer.rows.map (redactRow host.lower redactFields)
  return {
    output  := buildOutput (adapter.outputMode input) redactedRows rowCount durationMs adapter.simulate
    summary := "Query returned " ++ toString rowCount ++ " row" ++ (if rowCount = 1 then "" else "s") ++
      " in " ++ toString durationMs ++ "ms" }

/-! ## Words -/

theorem isWordChar_iff {c : Char} :
    isWordChar c = true ↔ (48 ≤ c.toNat ∧ c.toNat ≤ 57) ∨ (65 ≤ c.toNat ∧ c.toNat ≤ 90) ∨
      c.toNat = 95 ∨ (97 ≤ c.toNat ∧ c.toNat ≤ 122) := by
  have hline : c = '_' ↔ c.toNat = 95 := Char.toNat_inj.symm
  rw [isWordChar, Bool.or_eq_true, isAlphanum_iff, beq_iff_eq, hline]
  omega

theorem isWordChar_toUpper (c : Char) : isWordChar c.toUpper = isWordChar c := by
  rw [Bool.eq_iff_iff, isWordChar_iff, isWordChar_iff, toNat_toUpper]
  split <;> omega

theorem isAscii_of_isWordChar {c : Char} (h : isWordChar c = true) : c.toNat < 128 := by
  rw [isWordChar_iff] at h
  omega

/-- A word of the text is the keyword, whatever its case. -/
def HasWord (keyword text : String) : Prop :=
  ∃ w ∈ words isWordChar text.toList, w.map Char.toUpper = keyword.toList

theorem isKeyword_iff {keyword w : List Char} :
    IsKeyword sameLetter keyword w ↔ w.map Char.toUpper = keyword := by
  unfold IsKeyword sameLetter
  simp only [beq_iff_eq]
  rw [← List.forall₂_eq_eq_eq, List.forall₂_map_left_iff]
  exact ⟨List.Forall₂.flip, List.Forall₂.flip⟩

/-- A word in capital letters. -/
def IsKeywordText (keyword : String) : Prop :=
  keyword ≠ "" ∧ keyword.toList.all isWordChar = true

instance (keyword : String) : Decidable (IsKeywordText keyword) :=
  inferInstanceAs (Decidable (keyword ≠ "" ∧ keyword.toList.all isWordChar = true))

theorem IsKeywordText.word {keyword : String} (h : IsKeywordText keyword) :
    ∀ c ∈ keyword.toList, isWordChar c = true :=
  List.all_eq_true.mp h.2

theorem testsWord_iff {keyword : String} (h : IsKeywordText keyword) (text : String) :
    testsWord keyword text = true ↔ HasWord keyword text := by
  have hne : keyword.toList ≠ [] := by simpa using h.1
  have hletters : LettersAreWord isWordChar sameLetter keyword.toList := by
    -- what reads like a letter of the keyword is a word character, since the letter is one
    intro k hk c hsame
    rw [← isWordChar_toUpper, beq_iff_eq.mp hsame]
    exact h.word k hk
  unfold testsWord HasWord
  rw [occursAsWord_iff hne hletters]
  simp only [isKeyword_iff]

/-! ## What follows on a line -/

/-- The line goes on with nothing but white space. -/
theorem goesOn_eq_false_iff {cs : List Char} :
    goesOn cs = false ↔ ∀ c ∈ cs.takeWhile dotCovers, isWhiteSpace c = true := by
  induction cs with
  | nil => simp [goesOn]
  | cons c cs ih =>
      cases hline : isLineTerminator c with
      | true => simp [goesOn, dotCovers, hline]
      | false => simp [goesOn, dotCovers, hline, ih]

theorem testsStatements_iff {cs : List Char} :
    testsStatements cs = false ↔ ∀ front rest, cs = front ++ ';' :: rest →
      ∀ c ∈ rest.takeWhile dotCovers, isWhiteSpace c = true := by
  induction cs with
  | nil => simp [testsStatements]
  | cons c cs ih =>
      rw [testsStatements, Bool.or_eq_false_iff, ih]
      constructor
      · rintro ⟨hfirst, hlater⟩ front rest heq
        cases front with
        | nil =>
            obtain ⟨rfl, rfl⟩ := List.cons.inj heq
            exact goesOn_eq_false_iff.mp (by simpa using hfirst)
        | cons d front =>
            obtain ⟨-, rfl⟩ := List.cons.inj heq
            exact hlater front rest rfl
      · intro h
        refine ⟨?_, fun front rest heq => h (c :: front) rest (by rw [heq, List.cons_append])⟩
        by_cases hc : c = ';'
        · subst hc
          simpa using goesOn_eq_false_iff.mpr (h [] cs rfl)
        · simp [hc]

/-! ## What is accepted -/

structure AcceptsQuery (upper : UpperCase) (query : String) : Prop where
  unblocked  : ∀ keyword ∈ blockedKeywords, ¬ HasWord keyword query
  noComment  : includes query "--" = false
  statements : ∀ front rest, query.toList = front ++ ';' :: rest →
    ∀ c ∈ rest.takeWhile dotCovers, isWhiteSpace c = true
  keyword    : startsWith (trimStart (upper.apply query)) "SELECT" = true ∨
    startsWith (trimStart (upper.apply query)) "WITH" = true

theorem blockedKeywords_text : ∀ keyword ∈ blockedKeywords, IsKeywordText keyword := by
  decide +kernel

theorem testsBlocked_eq_false_iff {query : String} :
    testsBlocked query = false ↔ (∀ keyword ∈ blockedKeywords, ¬ HasWord keyword query) ∧
      includes query "--" = false ∧ ∀ front rest, query.toList = front ++ ';' :: rest →
        ∀ c ∈ rest.takeWhile dotCovers, isWhiteSpace c = true := by
  have hwords : blockedKeywords.any (fun keyword => testsWord keyword query) = false ↔
      ∀ keyword ∈ blockedKeywords, ¬ HasWord keyword query := by
    rw [List.any_eq_false]
    refine forall₂_congr fun keyword hkeyword => ?_
    rw [testsWord_iff (blockedKeywords_text keyword hkeyword)]
  unfold testsBlocked
  rw [Bool.or_eq_false_iff, Bool.or_eq_false_iff, hwords, testsStatements_iff, and_assoc]

/-- The query of an input has no errors exactly when it is a text that is accepted. -/
theorem queryErrors_eq_nil_iff {upper : UpperCase} {text : String} :
    queryErrors upper (.str text) = [] ↔
      isBlank text = false ∧ AcceptsQuery upper (trim text) := by
  unfold queryErrors
  dsimp only
  by_cases hblank : isBlank text = true
  · simp [hblank]
  · rw [if_neg hblank, List.append_eq_nil_iff]
    have hnot : isBlank text = false := by simpa using hblank
    rw [and_iff_right hnot]
    constructor
    · rintro ⟨hblocked, hkeyword⟩
      have htests : testsBlocked (trim text) = false := by
        by_contra hbad
        rw [if_pos (by simpa using hbad)] at hblocked
        cases hblocked
      obtain ⟨hwords, hcomment, hstatements⟩ := testsBlocked_eq_false_iff.mp htests
      refine ⟨hwords, hcomment, hstatements, ?_⟩
      by_contra hbad
      rw [if_pos (by simpa using hbad)] at hkeyword
      cases hkeyword
    · intro h
      have htests : testsBlocked (trim text) = false :=
        testsBlocked_eq_false_iff.mpr ⟨h.unblocked, h.noComment, h.statements⟩
      refine ⟨by simp [htests], if_neg ?_⟩
      rcases h.keyword with hselect | hwith
      · simp [hselect]
      · simp [hwith]

/-- An input that is accepted is an object, and each of its members is. -/
structure Accepted (upper : UpperCase) (adapter : DbReadAdapter) (input : JsObject) : Prop where
  query      : AcceptsQuery upper (queryOf input)
  params     : paramsErrors (input.get "params") = []
  limit      : limitErrors adapter.maxRows (input.get "limit") = []
  outputMode : outputModeErrors (input.get "output_mode") = []

theorem validate_object {upper : UpperCase} {adapter : DbReadAdapter} {input : JsValue}
    (h : (adapter.validate upper input).valid = true) : ∃ es, input = .obj es := by
  cases input with
  | obj es => exact ⟨es, rfl⟩
  | arr xs => cases h
  | _ => simp [validate] at h

theorem accepted_of_validate {upper : UpperCase} {adapter : DbReadAdapter} {input : JsObject}
    (h : (adapter.validate upper (.obj input)).valid = true) : Accepted upper adapter input := by
  unfold validate inputErrors at h
  dsimp only at h
  rw [List.isEmpty_iff, List.append_eq_nil_iff, List.append_eq_nil_iff, List.append_eq_nil_iff] at h
  obtain ⟨⟨⟨hquery, hparams⟩, hlimit⟩, hmode⟩ := h
  refine ⟨?_, hparams, hlimit, hmode⟩
  unfold queryOf
  cases hget : input.get "query" with
  | str text =>
      rw [hget] at hquery
      exact (queryErrors_eq_nil_iff.mp hquery).2
  | _ => simp [hget, queryErrors] at hquery

end DbReadAdapter

end MapProtocol
