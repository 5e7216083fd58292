import MapProtocol.Adapters.DbReadAdapter
import MapProtocol.Js.JsonNumbers
import Mathlib.Data.List.TakeWhile

/-!
# The rows that are returned

How a database reads the limit in the text of a query is a parameter, of which the adapter relies on one
thing: a `LIMIT` at the end of a text that has no such word is the limit. `KeepsToLimits` is that no
database that respects what it reads makes the adapter return more rows than it was asked for, nor a
column that is redacted. Redaction holds always; the rows are bounded exactly where the adapter writes
the limit itself, or something else bounds them (`keepsToLimits_iff`).
-/

namespace MapProtocol

open Js

namespace DbReadAdapter

variable {adapter : DbReadAdapter} {host : DbHost} {input : JsObject} {fields : List String}
  {answer : DbAnswer} {lower : String → String} {query : String} {reader : LimitReader}

/-- How a database reads the limit in a text. -/
structure LimitReader where
  read     : String → Option Nat
  appended : ∀ query limit, ¬ HasWord "LIMIT" query →
    read (query ++ " LIMIT " ++ toString limit) = some limit

/-- No answer has more rows than the text allows. -/
def Respects (reader : LimitReader) (query : String → List JsValue → Except String DbAnswer) : Prop :=
  ∀ text params answer, query text params = .ok answer →
    ∀ limit, reader.read text = some limit → answer.rows.length ≤ limit

/-- A column that is redacted, by the adapter or by the input, whatever the case. -/
def IsRedacted (adapter : DbReadAdapter) (lower : String → String) (input : JsObject)
    (column : String) : Prop :=
  lower column ∈ adapter.alwaysRedactFields ∨
    ∃ fields, readRedactFields input = .ok fields ∧ ∃ field ∈ fields, lower field = lower column

/-- Whatever the database answers within the limit it reads, the rows and the columns that are returned
are those that may be. -/
def KeepsToLimits (reader : LimitReader) (adapter : DbReadAdapter) (lower : String → String)
    (input : JsObject) : Prop :=
  ∀ host : DbHost, host.lower = lower → Respects reader host.query →
    ∀ result, adapter.execute host input = .ok result →
      result.output.rows.length ≤ adapter.rowLimit input ∧
        ∀ row ∈ result.output.rows, ∀ e ∈ row, IsRedacted adapter lower input e.1 →
          e.2 = .str "[REDACTED]"

/-- The rows are bounded by something other than a word of the query. -/
inductive BoundsRows (reader : LimitReader) (adapter : DbReadAdapter) (input : JsObject) : Prop where
  | simulated (h : adapter.simulate = true)
  | counted (h : adapter.outputMode input = .countOnly)
  | appended (h : ¬ HasWord "LIMIT" (queryOf input))
  | written (limit : Nat) (h : reader.read (queryOf input) = some limit)
      (hle : limit ≤ adapter.rowLimit input)
  | sampled (h : adapter.outputMode input = .summary) (hle : 3 ≤ adapter.rowLimit input)
  | refused (message : String) (h : readRedactFields input = .error message)

/-! ## One execution -/

def redactedFields (adapter : DbReadAdapter) (lower : String → String) (fields : List String) :
    List String :=
  adapter.alwaysRedactFields ++ fields.map lower

theorem execute_ok (hfields : readRedactFields input = .ok fields)
    (hanswer : adapter.answerOf host input = .ok answer) :
    ∃ result, adapter.execute host input = .ok result ∧ ∃ rowCount durationMs,
      result.output = buildOutput (adapter.outputMode input)
        (answer.rows.map (redactRow host.lower (adapter.redactedFields host.lower fields)))
        rowCount durationMs adapter.simulate := by
  unfold execute
  rw [hfields, hanswer]
  exact ⟨_, rfl, _, _, rfl⟩

theorem execute_eq_ok {result : DbResult} (h : adapter.execute host input = .ok result) :
    ∃ fields answer, readRedactFields input = .ok fields ∧ adapter.answerOf host input = .ok answer ∧
      ∃ rowCount durationMs, result.output = buildOutput (adapter.outputMode input)
        (answer.rows.map (redactRow host.lower (adapter.redactedFields host.lower fields)))
        rowCount durationMs adapter.simulate := by
  cases hfields : readRedactFields input with
  | error message =>
      unfold execute at h
      rw [hfields] at h
      cases h
  | ok fields =>
      cases hanswer : adapter.answerOf host input with
      | error message =>
          unfold execute at h
          rw [hfields, hanswer] at h
          cases h
      | ok answer =>
          obtain ⟨result', hresult, houtput⟩ := execute_ok hfields hanswer
          obtain rfl := Except.ok.inj (h.symm.trans hresult)
          exact ⟨fields, answer, rfl, rfl, houtput⟩

/-! ## Redaction -/

theorem rows_buildOutput {mode : DbOutputMode} {rows : List JsObject} {rowCount durationMs : Nat}
    {simulated : Bool} :
    (buildOutput mode rows rowCount durationMs simulated).rows =
      match mode with
      | .countOnly  => []
      | .summary    => rows.take 3
      | .structured => rows := by
  cases mode <;> rfl

theorem mem_rows_buildOutput {mode : DbOutputMode} {rows : List JsObject} {rowCount durationMs : Nat}
    {simulated : Bool} {row : JsObject}
    (h : row ∈ (buildOutput mode rows rowCount durationMs simulated).rows) : row ∈ rows := by
  rw [rows_buildOutput] at h
  cases mode with
  | countOnly => cases h
  | summary => exact List.mem_of_mem_take h
  | structured => exact h

theorem redactRow_redacted {row : JsObject} {e : String × JsValue}
    (he : e ∈ redactRow lower fields row) (hfield : lower e.1 ∈ fields) :
    e.2 = .str "[REDACTED]" := by
  obtain ⟨d, -, rfl⟩ := List.mem_map.mp he
  exact if_pos (List.contains_iff_mem.mpr hfield)

theorem mem_redactedFields (hfields : readRedactFields input = .ok fields) {column : String}
    (h : IsRedacted adapter lower input column) :
    lower column ∈ adapter.redactedFields lower fields := by
  unfold redactedFields
  rw [List.mem_append]
  rcases h with halways | ⟨fields', hfields', field, hmem, hlower⟩
  · exact .inl halways
  · obtain rfl := Except.ok.inj (hfields.symm.trans hfields')
    exact .inr (List.mem_map.mpr ⟨field, hmem, hlower⟩)

/-! ## The rows -/

theorem length_simulateQuery_le (host : DbHost) (query : String) (limit : Nat) :
    (simulateQuery host query limit).rows.length ≤ limit := by
  simp [simulateQuery]

theorem limitedQuery_of_hasWord (h : HasWord "LIMIT" query) (limit : Nat) :
    limitedQuery query limit = query :=
  if_pos ((testsWord_iff (by decide) query).mpr h)

theorem limitedQuery_of_not_hasWord (h : ¬ HasWord "LIMIT" query) (limit : Nat) :
    limitedQuery query limit = query ++ " LIMIT " ++ toString limit :=
  if_neg ((testsWord_iff (by decide) query).not.mpr h)

/-- The rows are few, or they are the database's. -/
theorem length_le_or_answered (h : adapter.answerOf host input = .ok answer) :
    answer.rows.length ≤ adapter.rowLimit input ∨
      host.query (limitedQuery (queryOf input) (adapter.rowLimit input)) (paramsOf input) =
        .ok answer := by
  unfold answerOf at h
  split at h
  · obtain rfl := Except.ok.inj h
    exact .inl (length_simulateQuery_le host (queryOf input) _)
  · exact .inr h

/-- What is read in the text that is sent, where it is within the limit, bounds the rows. -/
theorem length_le_of_read {limit : Nat} (hrespects : Respects reader host.query)
    (hread : reader.read (limitedQuery (queryOf input) (adapter.rowLimit input)) = some limit)
    (hle : limit ≤ adapter.rowLimit input) (hanswer : adapter.answerOf host input = .ok answer) :
    answer.rows.length ≤ adapter.rowLimit input := by
  rcases length_le_or_answered hanswer with hfew | hquery
  · exact hfew
  · exact (hrespects _ _ _ hquery limit hread).trans hle

theorem length_le_of_appended {reader : LimitReader} {adapter : DbReadAdapter} {host : DbHost}
    {input : JsObject} {answer : DbAnswer} (hrespects : Respects reader host.query)
    (hword : ¬ HasWord "LIMIT" (queryOf input)) (hanswer : adapter.answerOf host input = .ok answer) :
    answer.rows.length ≤ adapter.rowLimit input := by
  refine length_le_of_read hrespects ?_ le_rfl hanswer
  rw [limitedQuery_of_not_hasWord hword]
  exact reader.appended _ _ hword

theorem length_rows_le {result : DbResult} (hbounds : BoundsRows reader adapter input)
    (hrespects : Respects reader host.query) (h : adapter.execute host input = .ok result) :
    result.output.rows.length ≤ adapter.rowLimit input := by
  obtain ⟨fields, answer, hfields, hanswer, rowCount, durationMs, houtput⟩ := execute_eq_ok h
  have hall : result.output.rows.length ≤ answer.rows.length := by
    rw [houtput, rows_buildOutput]
    split <;> simp
  cases hbounds with
  | simulated hsimulate =>
      unfold answerOf at hanswer
      rw [if_pos hsimulate] at hanswer
      obtain rfl := Except.ok.inj hanswer
      exact hall.trans (length_simulateQuery_le host (queryOf input) _)
  | counted hmode =>
      rw [houtput, hmode]
      exact Nat.zero_le _
  | appended hword => exact hall.trans (length_le_of_appended hrespects hword hanswer)
  | written limit hread hle =>
      by_cases hword : HasWord "LIMIT" (queryOf input)
      · refine hall.trans (length_le_of_read hrespects ?_ hle hanswer)
        rwa [limitedQuery_of_hasWord hword]
      · exact hall.trans (length_le_of_appended hrespects hword hanswer)
  | sampled hmode hle =>
      rw [houtput, hmode, rows_buildOutput]
      exact (List.length_take_le ..).trans hle
  | refused message hmessage =>
      rw [hmessage] at hfields
      cases hfields

/-! ## A database that says too much -/

/-- A database that knows one text, and answers it with so many rows. -/
def answering (query : String) (rows : Nat) (text : String) (_params : List JsValue) :
    Except String DbAnswer :=
  if text = query then .ok ⟨List.replicate rows [], none⟩ else .error "relation does not exist"

def answeringHost (lower : String → String) (query : String) (rows : Nat) : DbHost where
  query     := answering query rows
  lower     := lower
  startedAt := 0
  endedAt   := 0
  random    := 0

theorem query_answeringHost (lower : String → String) (query : String) (rows : Nat)
    (params : List JsValue) :
    (answeringHost lower query rows).query query params = .ok ⟨List.replicate rows [], none⟩ := by
  unfold answeringHost answering
  dsimp only
  rw [if_pos rfl]

theorem respects_answeringHost {rows : Nat}
    (h : ∀ limit, reader.read query = some limit → rows ≤ limit) (lower : String → String) :
    Respects reader (answeringHost lower query rows).query := by
  intro text params answer hanswer limit hread
  unfold answeringHost answering at hanswer
  dsimp only at hanswer
  split at hanswer
  · rename_i htext
    obtain rfl := Except.ok.inj hanswer
    rw [List.length_replicate]
    exact h limit (htext ▸ hread)
  · cases hanswer

/-- One row more than the limit is not shown only if rows are counted, or if three of them are shown and
the limit is no less. -/
theorem few_of_length_le {mode : DbOutputMode} {rows : List JsObject} {rowCount durationMs limit : Nat}
    {simulated : Bool} (hrows : rows.length = limit + 1)
    (h : (buildOutput mode rows rowCount durationMs simulated).rows.length ≤ limit) :
    mode = .countOnly ∨ mode = .summary ∧ 3 ≤ limit := by
  rw [rows_buildOutput] at h
  cases mode with
  | countOnly => exact .inl rfl
  | summary =>
      dsimp only at h
      rw [List.length_take, hrows] at h
      exact .inr ⟨rfl, by omega⟩
  | structured =>
      dsimp only at h
      omega

/-- A query with a `LIMIT` of its own, that is read as none or as a greater one, may give a row more than
it was asked for. -/
theorem boundsRows_of_keepsToLimits (h : KeepsToLimits reader adapter lower input) :
    BoundsRows reader adapter input := by
  by_cases hsimulate : adapter.simulate = true
  · exact .simulated hsimulate
  by_cases hword : HasWord "LIMIT" (queryOf input)
  swap
  · exact .appended hword
  cases hfields : readRedactFields input with
  | error message => exact .refused message hfields
  | ok fields =>
      by_cases hread : ∃ limit, reader.read (queryOf input) = some limit ∧
          limit ≤ adapter.rowLimit input
      · obtain ⟨limit, hlimit, hle⟩ := hread
        exact .written limit hlimit hle
      -- a database that answers this query alone, with one row too many, respects what is read in it
      have hlarge : ∀ limit, reader.read (queryOf input) = some limit →
          adapter.rowLimit input + 1 ≤ limit := by
        intro limit hlimit
        exact Nat.lt_of_not_le fun hle => hread ⟨limit, hlimit, hle⟩
      have hrespects := respects_answeringHost hlarge lower
      have hanswer : adapter.answerOf
          (answeringHost lower (queryOf input) (adapter.rowLimit input + 1)) input =
            .ok ⟨List.replicate (adapter.rowLimit input + 1) [], none⟩ := by
        unfold answerOf executeQuery
        rw [if_neg hsimulate, limitedQuery_of_hasWord hword, query_answeringHost]
      obtain ⟨result, hresult, rowCount, durationMs, houtput⟩ := execute_ok hfields hanswer
      obtain ⟨hrows, -⟩ := h _ rfl hrespects result hresult
      rw [houtput] at hrows
      rcases few_of_length_le (by simp) hrows with hmode | ⟨hmode, hle⟩
      · exact .counted hmode
      · exact .sampled hmode hle

/-- **The rows of every answer within its limit are bounded, and its columns redacted, exactly where the
limit is the adapter's, or one that is read in the query and is small enough.** -/
theorem keepsToLimits_iff (reader : LimitReader) (upper : UpperCase) (lower : String → String)
    (adapter : DbReadAdapter) (value : JsValue) (h : (adapter.validate upper value).valid = true) :
    ∃ input, value = .obj input ∧
      (KeepsToLimits reader adapter lower input ↔ BoundsRows reader adapter input) := by
  obtain ⟨input, rfl⟩ := validate_object h
  refine ⟨input, rfl, boundsRows_of_keepsToLimits, ?_⟩
  rintro hbounds host rfl hrespects result hresult
  refine ⟨length_rows_le hbounds hrespects hresult, ?_⟩
  obtain ⟨fields, answer, hfields, -, rowCount, durationMs, houtput⟩ := execute_eq_ok hresult
  intro row hrow e he hredacted
  rw [houtput] at hrow
  obtain ⟨row', -, rfl⟩ := List.mem_map.mp (mem_rows_buildOutput hrow)
  exact redactRow_redacted he (mem_redactedFields hfields hredacted)

/-! ## The number at the end -/

/-- The number at the end of a text, behind a `LIMIT`. -/
def limitAtEnd (text : String) : Option Nat :=
  let digits := text.toList.reverse.takeWhile isDigit
  if " TIMIL ".toList.isPrefixOf (text.toList.reverse.dropWhile isDigit) then
    some (digitsValue digits.reverse)
  else none

theorem limitAtEnd_appended (query : String) (limit : Nat) :
    limitAtEnd (query ++ " LIMIT " ++ toString limit) = some limit := by
  have hreverse : (query ++ " LIMIT " ++ toString limit).toList.reverse =
      (toString limit).toList.reverse ++ (' ' :: ("TIMIL ".toList ++ query.toList.reverse)) := by
    simp
  have hdigits : ∀ c ∈ (toString limit).toList.reverse, isDigit c = true :=
    fun c hc => isDigit_of_mem_toString (List.mem_reverse.mp hc)
  have hblank : ¬ isDigit ' ' = true := by decide
  unfold limitAtEnd
  dsimp only
  rw [hreverse, List.takeWhile_append_of_pos hdigits, List.takeWhile_cons_of_neg hblank,
    List.append_nil, List.reverse_reverse, digitsValue_toString, List.dropWhile_append_of_pos hdigits,
    List.dropWhile_cons_of_neg hblank]
  exact if_pos (by simp)

def readerAtEnd : LimitReader := ⟨limitAtEnd, fun query limit _ => limitAtEnd_appended query limit⟩

def connected : DbReadAdapter := new id (some "postgresql://localhost/app") {}

theorem keepsToLimits_iff_sample :
    ∃ input, JsValue.obj [("query", .str "SELECT 1 LIMIT 2"), ("limit", .num 5)] = .obj input ∧
      (KeepsToLimits readerAtEnd connected id input ↔ BoundsRows readerAtEnd connected input) :=
  keepsToLimits_iff readerAtEnd asciiCapitals id connected
    (.obj [("query", .str "SELECT 1 LIMIT 2"), ("limit", .num 5)]) (by decide)

/-- A `LIMIT` of the query's own may be greater than the limit of the input. -/
theorem keepsToLimits_fails :
    ¬ ∀ (reader : LimitReader) (upper : UpperCase) (adapter : DbReadAdapter)
      (lower : String → String) (input : JsObject),
        (adapter.validate upper (.obj input)).valid = true →
          KeepsToLimits reader adapter lower input := by
  intro h
  have hkeeps := h readerAtEnd asciiCapitals connected id
    [("query", .str "SELECT 1 LIMIT 2"), ("limit", .num 1)] (by decide)
  cases boundsRows_of_keepsToLimits hkeeps with
  | simulated hsimulate => exact absurd hsimulate (by decide)
  | counted hmode => exact absurd hmode (by decide)
  | appended hword => exact hword ((testsWord_iff (by decide) _).mp (by decide))
  | written limit hread hle =>
      have hwritten : readerAtEnd.read (queryOf
          [("query", .str "SELECT 1 LIMIT 2"), ("limit", .num 1)]) = some 2 :=
        limitAtEnd_appended "SELECT 1" 2
      obtain rfl := Option.some.inj (hwritten.symm.trans hread)
      exact absurd hle (by decide)
  | sampled hmode _ => exact absurd hmode (by decide)
  | refused message hmessage => cases hmessage

end DbReadAdapter

end MapProtocol
