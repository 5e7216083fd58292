import MapProtocol.Adapters.DbReadAdapter
import MapProtocol.Integration.EcpBridge
import MapProtocol.Lib.Comments
import Mathlib.Data.List.TakeWhile

/-!
# The queries that are built

For a `db.read.` capability `mapEnvelopeToIntent` builds the query of an envelope that brings none: a
`SELECT` over the dataset, with its service as a parameter, or else with the summary in a comment.
`BuildsWell` is what this is for: the name is a name, the comment ends where it should, and the adapter
takes the query. The name always is one; the rest is a matter of the letters of the dataset and of the
summary (`buildsWell_iff`).
-/

namespace MapProtocol

open Js DbReadAdapter

variable {c : Char} {dataset keyword s : String} {w cs : List Char} {upper : UpperCase}
  {parts : QueryParts}

/-! ## Texts with a separator -/

section Separators

variable {α : Type} {pat xs ys : List α} {c : α}

theorem prefix_append_cons_iff (hc : c ∉ pat) : pat <+: xs ++ c :: ys ↔ pat <+: xs := by
  constructor
  · intro h
    rcases Nat.le_total pat.length xs.length with hle | hle
    · exact List.prefix_of_prefix_length_le h (List.prefix_append ..) hle
    · have hxs : xs <+: pat := List.prefix_of_prefix_length_le (List.prefix_append ..) h hle
      obtain ⟨rest, rfl⟩ := hxs
      rw [List.prefix_append_right_inj] at h
      cases rest with
      | nil => simp
      | cons d rest =>
          obtain ⟨rfl, -⟩ := List.cons_prefix_cons.mp h
          exact absurd (by simp) hc
  · exact fun h => h.trans (List.prefix_append ..)

theorem infix_append_cons_iff (hc : c ∉ pat) :
    pat <:+: xs ++ c :: ys ↔ pat <:+: xs ∨ pat <:+: ys := by
  induction xs with
  | nil =>
      have hnil := @prefix_append_cons_iff _ pat [] ys c hc
      rw [List.nil_append] at hnil
      rw [List.nil_append, List.infix_cons_iff, hnil, List.prefix_nil, List.infix_nil]
  | cons x xs ih =>
      have hcons := @prefix_append_cons_iff _ pat (x :: xs) ys c hc
      rw [List.cons_append] at hcons ⊢
      rw [List.infix_cons_iff, ih, hcons, List.infix_cons_iff, or_assoc]

end Separators

/-! ## The parts of a query -/

structure QueryParts where
  dataset : String
  service : Option String
  summary : Option String

def queryParts (envelope : TaskEnvelope) : QueryParts where
  dataset := (nonBlank (envelope.constraints.domain.getD []) "dataset").getD "records"
  service := nonBlank (envelope.constraints.domain.getD []) "service"
  summary := (parseIntentPayload envelope.intent).summary

def QueryParts.query (parts : QueryParts) : String :=
  buildDbReadQuery parts.dataset parts.service parts.summary

theorem not_payment {capability : String} (h : startsWith capability "db.read." = true) :
    startsWith capability "payment." = false := by
  unfold startsWith at h ⊢
  cases hchars : capability.toList with
  | nil => rfl
  | cons c cs =>
      rw [hchars] at h
      have hc : c = 'd' := by
        simp [List.isPrefixOf] at h
        exact h.1.symm
      subst hc
      rfl

/-- The intent text is no object with a query of its own. -/
def GivesNoQuery (envelope : TaskEnvelope) : Prop :=
  (parseIntentPayload envelope.intent).data.get "query" = .undefined ∨
    (parseIntentPayload envelope.intent).data.get "query" = .null

theorem get_query {envelope : TaskEnvelope} {capability : String}
    (hcapability : startsWith capability "db.read." = true) (hquery : GivesNoQuery envelope) :
    (mapEnvelopeToIntent envelope capability).input.get "query" = .str (queryParts envelope).query := by
  have hdefault (v : JsValue) :
      ((parseIntentPayload envelope.intent).data.get "query").orElse v = v := by
    rcases hquery with h | h <;> rw [h] <;> rfl
  unfold mapEnvelopeToIntent mapIntentInput
  simp only [not_payment hcapability, hcapability, hdefault]
  simp [JsObject.spread, JsObject.get, JsObject.set, OrderedMap.getEntries_setEntries, queryParts,
    QueryParts.query]

def cleaned (summary : String) : List Char := dropCommentEnds summary.toList

/-- What is built is one `SELECT` over a table, on a service, with the summary in one comment, or with
nothing more. -/
structure SelectsOne (nests : Bool) (parts : QueryParts) (query name rest : String) : Prop where
  select   : query = "SELECT * FROM " ++ name ++ rest
  nonempty : name ≠ ""
  name     : ∀ c ∈ name.toList, isWordChar c = true
  rest     : match parts.service, parts.summary with
    | some _, _    => rest = " WHERE service = $1"
    | none, some s => ∃ comment : String, rest = " /*" ++ comment ∧
        cleaned s <:+: comment.toList ∧ commentEnd nests (0, none) comment.toList = some []
    | none, none   => rest = ""

/-- The query of the intent is one `SELECT`, and the adapter has nothing against it. -/
structure BuildsWell (nests : Bool) (upper : UpperCase) (adapter : DbReadAdapter)
    (envelope : TaskEnvelope) (capability : String) : Prop where
  select   : ∃ query name rest,
    (mapEnvelopeToIntent envelope capability).input.get "query" = .str query ∧
      SelectsOne nests (queryParts envelope) query name rest
  accepted : ∀ e ∈ (adapter.validate upper
    (.obj (mapEnvelopeToIntent envelope capability).input)).errors, e.field ≠ "query"

/-- A summary, as it is written, that a comment can hold and the adapter lets pass. -/
structure Harmless (nests : Bool) (text : List Char) : Prop where
  staysOpen : StaysOpen nests text
  words     : ∀ keyword ∈ blockedKeywords, ¬ HasWord keyword (String.ofList text)
  dashes    : ¬ ['-', '-'] <:+: text
  lines     : ∀ front rest, text = front ++ ';' :: rest →
    (∀ c ∈ rest.takeWhile dotCovers, isWhiteSpace c = true) ∧ ∃ c ∈ rest, isLineTerminator c = true

/-- Parts of which a query is built that is one `SELECT` and passes. -/
structure Buildable (nests : Bool) (parts : QueryParts) : Prop where
  dataset : ∀ keyword ∈ blockedKeywords, parts.dataset.toList.map Char.toUpper ≠ keyword.toList
  summary : parts.service = none → ∀ s, parts.summary = some s → Harmless nests (cleaned s)

/-! ## The name of the table -/

theorem isWordChar_letter :
    (('a' ≤ c && c ≤ 'z') || ('A' ≤ c && c ≤ 'Z') || ('0' ≤ c && c ≤ '9') || c == '_') =
      isWordChar c := by
  have hle (d e : Char) : d ≤ e ↔ d.toNat ≤ e.toNat := UInt32.le_iff_toNat_le
  have hline : c = '_' ↔ c.toNat = '_'.toNat := Char.toNat_inj.symm
  rw [Bool.eq_iff_iff, isWordChar_iff]
  simp only [Bool.or_eq_true, Bool.and_eq_true, decide_eq_true_eq, beq_iff_eq, hle, hline]
  simp only [Char.reduceToNat]
  omega

theorem toList_safeDatasetName (dataset : String) :
    (safeDatasetName dataset).toList = dataset.toList.flatMap fun c =>
      if isWordChar c then [c] else if c.toNat < 0x10000 then ['_'] else ['_', '_'] := by
  unfold safeDatasetName
  simp only [isWordChar_letter, String.toList_ofList]

theorem safeDatasetName_word (dataset : String) :
    ∀ c ∈ (safeDatasetName dataset).toList, isWordChar c = true := by
  intro c hc
  rw [toList_safeDatasetName] at hc
  obtain ⟨d, -, hd⟩ := List.mem_flatMap.mp hc
  have hline : isWordChar '_' = true := by decide
  split at hd
  · rename_i hword
    rwa [List.mem_singleton.mp hd]
  · split at hd
    · rwa [List.mem_singleton.mp hd]
    · simp only [List.mem_cons, List.not_mem_nil, or_false, or_self] at hd
      rwa [hd]

theorem safeDatasetName_ne_empty (h : dataset ≠ "") :
    safeDatasetName dataset ≠ "" := by
  cases hchars : dataset.toList with
  | nil => exact absurd (String.toList_eq_nil_iff.mp hchars) h
  | cons c cs =>
      rw [ne_eq, ← String.toList_eq_nil_iff, toList_safeDatasetName, hchars, List.flatMap_cons]
      split
      · simp
      · split <;> simp

/-- A name of word characters stays as it is; where there is any other, a `_` is in the name. -/
theorem safeDatasetName_cases (dataset : String) :
    (∀ c ∈ dataset.toList, isWordChar c = true) ∧ safeDatasetName dataset = dataset ∨
      (∃ c ∈ dataset.toList, isWordChar c = false) ∧ '_' ∈ (safeDatasetName dataset).toList := by
  by_cases hall : ∀ c ∈ dataset.toList, isWordChar c = true
  · refine .inl ⟨hall, String.toList_inj.mp ?_⟩
    rw [toList_safeDatasetName, List.flatMap_congr fun c hc => if_pos (hall c hc)]
    exact List.flatMap_singleton' _
  · simp only [not_forall, Bool.not_eq_true] at hall
    obtain ⟨c, hc, hword⟩ := hall
    refine .inr ⟨⟨c, hc, hword⟩, ?_⟩
    rw [toList_safeDatasetName, List.mem_flatMap]
    refine ⟨c, hc, ?_⟩
    rw [hword]
    split
    · contradiction
    · split <;> simp

theorem line_notMem_blockedKeywords :
    ∀ keyword ∈ blockedKeywords, '_' ∉ keyword.toList := by
  decide +kernel

theorem map_toUpper_safeDatasetName (h : keyword ∈ blockedKeywords) :
    (safeDatasetName dataset).toList.map Char.toUpper = keyword.toList ↔
      dataset.toList.map Char.toUpper = keyword.toList := by
  rcases safeDatasetName_cases dataset with ⟨-, hsame⟩ | ⟨⟨c, hc, hword⟩, hline⟩
  · rw [hsame]
  · refine iff_of_false ?_ ?_
    · intro heq
      have hmem : '_' ∈ keyword.toList := heq ▸ List.mem_map.mpr ⟨'_', hline, by decide⟩
      exact line_notMem_blockedKeywords keyword h hmem
    · intro heq
      have hmem : c.toUpper ∈ keyword.toList := heq ▸ List.mem_map_of_mem hc
      have hletter := (blockedKeywords_text keyword h).word _ hmem
      rw [isWordChar_toUpper, hword] at hletter
      cases hletter

/-! ## Words of the query

No blocked keyword straddles a character that is not of a word. -/

abbrev HasKeyword (keyword : String) (cs : List Char) : Prop := HasWord keyword (String.ofList cs)

theorem hasKeyword_append_cons (hc : isWordChar c = false) (xs ys : List Char) :
    HasKeyword keyword (xs ++ c :: ys) ↔ HasKeyword keyword xs ∨ HasKeyword keyword ys := by
  unfold HasKeyword HasWord
  simp only [String.toList_ofList, words_append_cons hc, List.mem_append, or_and_right, exists_or]

theorem hasKeyword_of_word (h : ∀ c ∈ w, isWordChar c = true) :
    HasKeyword keyword w ↔ w.map Char.toUpper = keyword.toList := by
  unfold HasKeyword HasWord
  rw [String.toList_ofList, words_of_forall h]
  simp

/-! ## What passes -/

/-- None of the blocked patterns is in the text. -/
abbrev Unblocked (cs : List Char) : Prop := testsBlocked (String.ofList cs) = false

theorem unblocked_iff :
    Unblocked cs ↔ (∀ keyword ∈ blockedKeywords, ¬ HasKeyword keyword cs) ∧
      ¬ ['-', '-'] <:+: cs ∧ ∀ front rest, cs = front ++ ';' :: rest →
        ∀ c ∈ rest.takeWhile dotCovers, isWhiteSpace c = true := by
  have hdashes : includes (String.ofList cs) "--" = false ↔ ¬ ['-', '-'] <:+: cs := by
    unfold includes
    rw [← Bool.not_eq_true, includesChars_iff, @String.toList_ofList cs]
    exact Iff.rfl
  unfold Unblocked
  rw [testsBlocked_eq_false_iff, hdashes, String.toList_ofList]

theorem semicolon_of_append {front tail cs rest : List Char} (hfront : ';' ∉ front) (hc : c ≠ ';')
    (h : front ++ c :: tail = cs ++ ';' :: rest) : ∃ cs', tail = cs' ++ ';' :: rest := by
  induction front generalizing cs with
  | nil =>
      cases cs with
      | nil => exact absurd (List.cons.inj h).1 hc
      | cons d cs => exact ⟨cs, (List.cons.inj h).2⟩
  | cons d front ih =>
      cases cs with
      | nil => exact absurd (List.mem_cons.mpr (.inl (List.cons.inj h).1.symm)) hfront
      | cons e cs => exact ih (fun hmem => hfront (List.mem_cons_of_mem _ hmem)) (List.cons.inj h).2

theorem unblocked_append_cons {front : List Char} (hfront : ';' ∉ front) (tail : List Char) :
    Unblocked (front ++ ' ' :: tail) ↔ Unblocked front ∧ Unblocked tail := by
  have hblank : isWordChar ' ' = false := by decide
  rw [unblocked_iff, unblocked_iff, unblocked_iff, infix_append_cons_iff (by decide), not_or]
  simp only [hasKeyword_append_cons hblank, not_or, forall₂_and]
  constructor
  · rintro ⟨⟨hwords, hwords'⟩, ⟨hdashes, hdashes'⟩, hlines⟩
    refine ⟨⟨hwords, hdashes, ?_⟩, hwords', hdashes', ?_⟩
    · rintro cs rest rfl
      exact absurd (by simp) hfront
    · rintro cs rest rfl
      exact hlines (front ++ ' ' :: cs) rest (by simp)
  · rintro ⟨⟨hwords, hdashes, -⟩, hwords', hdashes', hlines⟩
    refine ⟨⟨hwords, hwords'⟩, ⟨hdashes, hdashes'⟩, fun cs rest heq => ?_⟩
    obtain ⟨cs', htail⟩ := semicolon_of_append hfront (by decide) heq
    exact hlines cs' rest htail

theorem unblocked_word (h : ∀ c ∈ w, isWordChar c = true) :
    Unblocked w ↔ ∀ keyword ∈ blockedKeywords, w.map Char.toUpper ≠ keyword.toList := by
  rw [unblocked_iff]
  simp only [hasKeyword_of_word h]
  refine and_iff_left ⟨fun hdashes => ?_, ?_⟩
  · exact absurd (h '-' (hdashes.subset (by simp))) (by decide)
  · rintro front rest rfl
    exact absurd (h ';' (by simp)) (by decide)

theorem takeWhile_summary_iff {rest : List Char} :
    (∀ c ∈ (rest ++ [' ', '*', '/']).takeWhile dotCovers, isWhiteSpace c = true) ↔
      (∀ c ∈ rest.takeWhile dotCovers, isWhiteSpace c = true) ∧
        ∃ c ∈ rest, isLineTerminator c = true := by
  have hend : [' ', '*', '/'].takeWhile dotCovers = [' ', '*', '/'] := by decide
  by_cases hall : ∀ c ∈ rest, dotCovers c = true
  · -- the line of the summary goes on into the end of the comment, which is not white
    rw [List.takeWhile_append_of_pos hall, hend]
    refine iff_of_false (fun h => ?_) ?_
    · exact absurd (h '*' (by simp)) (by decide)
    · rintro ⟨-, c, hc, hline⟩
      have hcovers := hall c hc
      rw [dotCovers, hline] at hcovers
      cases hcovers
  · obtain ⟨c, hc, hline⟩ : ∃ c ∈ rest, isLineTerminator c = true := by
      simpa [dotCovers] using hall
    have hshort : (rest.takeWhile dotCovers).length ≠ rest.length := by
      intro hlength
      have hsame := (List.takeWhile_prefix dotCovers).eq_of_length hlength
      exact hall (List.takeWhile_eq_self_iff.mp hsame)
    rw [List.takeWhile_append, if_neg hshort]
    exact (and_iff_left ⟨c, hc, hline⟩).symm

theorem unblocked_summary_iff {text : List Char} :
    Unblocked (text ++ [' ', '*', '/']) ↔ (∀ keyword ∈ blockedKeywords, ¬ HasKeyword keyword text) ∧
      ¬ ['-', '-'] <:+: text ∧ ∀ front rest, text = front ++ ';' :: rest →
        (∀ c ∈ rest.takeWhile dotCovers, isWhiteSpace c = true) ∧
          ∃ c ∈ rest, isLineTerminator c = true := by
  have hblank : isWordChar ' ' = false := by decide
  have hmark : Unblocked ['*', '/'] := by decide +kernel
  obtain ⟨hmarkWords, hmarkDashes, -⟩ := unblocked_iff.mp hmark
  rw [unblocked_iff, infix_append_cons_iff (by decide), or_iff_left hmarkDashes]
  simp only [hasKeyword_append_cons hblank, not_or]
  rw [forall₂_and, and_iff_left hmarkWords]
  refine and_congr_right fun _ => and_congr_right fun _ => ?_
  constructor
  · rintro h front rest rfl
    exact takeWhile_summary_iff.mp (h front (rest ++ [' ', '*', '/']) (by simp))
  · intro h front rest heq
    obtain ⟨rest', rfl, rfl⟩ : ∃ rest', text = front ++ ';' :: rest' ∧
        rest = rest' ++ [' ', '*', '/'] := by
      -- there is no `;` in the end of the comment, so that it is one of the summary
      rcases List.append_eq_append_iff.mp heq with ⟨within, -, htail⟩ | ⟨rest', htext, hrest⟩
      · have hmem : ';' ∈ [' ', '*', '/'] := htail ▸ by simp
        exact absurd hmem (by decide)
      · cases rest' with
        | nil => exact absurd (List.cons.inj hrest).1 (by decide)
        | cons c rest' =>
            obtain ⟨rfl, hbehind⟩ := List.cons.inj hrest
            exact ⟨rest', htext, hbehind⟩
    exact takeWhile_summary_iff.mpr (h front rest' rfl)

/-! ## What the adapter says of a query -/

theorem field_queryErrors {query : JsValue} :
    ∀ e ∈ queryErrors upper query, e.field = "query" := by
  cases query with
  | str text =>
      unfold queryErrors
      dsimp only
      split
      · simp
      · intro e he
        rcases List.mem_append.mp he with hblocked | hkeyword
        · split at hblocked <;> simp_all
        · split at hkeyword <;> simp_all
  | _ => simp [queryErrors]

theorem field_otherErrors {maxRows : Nat} {params limit mode : JsValue} :
    ∀ e ∈ paramsErrors params ++ limitErrors maxRows limit ++ outputModeErrors mode,
      e.field ≠ "query" := by
  have hparams : ∀ e ∈ paramsErrors params, e.field ≠ "query" := by
    unfold paramsErrors
    split <;> simp
  have hlimit : ∀ e ∈ limitErrors maxRows limit, e.field ≠ "query" := by
    unfold limitErrors
    repeat' split
    all_goals simp
  have hmode : ∀ e ∈ outputModeErrors mode, e.field ≠ "query" := by
    unfold outputModeErrors
    split <;> simp
  intro e he
  rcases List.mem_append.mp he with hfirst | hlast
  · exact (List.mem_append.mp hfirst).elim (hparams e) (hlimit e)
  · exact hmode e hlast

theorem query_errors_iff {adapter : DbReadAdapter} {input : JsObject} :
    (∀ e ∈ (adapter.validate upper (.obj input)).errors, e.field ≠ "query") ↔
      queryErrors upper (input.get "query") = [] := by
  have herrors : (adapter.validate upper (.obj input)).errors =
      queryErrors upper (input.get "query") ++ (paramsErrors (input.get "params") ++
        limitErrors adapter.maxRows (input.get "limit") ++
        outputModeErrors (input.get "output_mode")) := by
    simp [validate, inputErrors]
  rw [herrors]
  constructor
  · intro h
    refine List.eq_nil_iff_forall_not_mem.mpr fun e he => ?_
    exact h e (List.mem_append_left _ he) (field_queryErrors e he)
  · intro h e he
    rw [h, List.nil_append] at he
    exact field_otherErrors e he

/-- A text that begins with `SELECT` and does not end in white space is judged by the blocked patterns
alone. -/
theorem queryErrors_select_iff {query : String} {cs ds : List Char} {d : Char}
    (hselect : query.toList = "SELECT".toList ++ cs) (hend : query.toList = ds ++ [d])
    (hd : isWhiteSpace d = false) :
    queryErrors upper (.str query) = [] ↔ Unblocked query.toList := by
  have hS : isWhiteSpace 'S' = false := by decide
  have hbegin : query.toList = 'S' :: ("ELECT".toList ++ cs) := hselect
  have hblank : isBlank query = false := by
    unfold isBlank
    rw [hbegin, List.all_cons, hS, Bool.false_and]
  have hkeyword : IsKeywordText "SELECT" := by decide
  -- capitals leave the first word as it is
  have hcapitals : (upper.apply query).toList = 'S' :: ("ELECT".toList ++ cs.flatMap upper.of) :=
    toList_apply hselect fun c hc => isAscii_of_isWordChar (hkeyword.word c hc)
  have htrim : trimStart (upper.apply query) = upper.apply query := by
    unfold trimStart
    rw [hcapitals, List.dropWhile_cons_of_neg (by simp [hS]), ← hcapitals, String.ofList_toList]
  have hstarts : startsWith (upper.apply query) "SELECT" = true := by
    unfold startsWith
    rw [List.isPrefixOf_iff_prefix, hcapitals]
    exact List.prefix_append "SELECT".toList _
  rw [queryErrors_eq_nil_iff, and_iff_right hblank, trim_of_ends hbegin hS hend hd]
  unfold Unblocked
  rw [String.ofList_toList, testsBlocked_eq_false_iff]
  constructor
  · exact fun h => ⟨h.unblocked, h.noComment, h.statements⟩
  · rintro ⟨hunblocked, hcomment, hstatements⟩
    exact ⟨hunblocked, hcomment, hstatements, .inl (htrim.symm ▸ hstarts)⟩

/-! ## The queries that are built -/

/-- The beginning of every built query. -/
def selectFrom (dataset : String) : List Char :=
  "SELECT * FROM".toList ++ ' ' :: (safeDatasetName dataset).toList

theorem semicolon_notMem_selectFrom (dataset : String) : ';' ∉ selectFrom dataset := by
  unfold selectFrom
  rw [List.mem_append, List.mem_cons]
  rintro (hselect | hblank | hname)
  · exact absurd hselect (by decide)
  · exact absurd hblank (by decide)
  · exact absurd (safeDatasetName_word dataset ';' hname) (by decide)

theorem unblocked_selectFrom :
    Unblocked (selectFrom dataset) ↔
      ∀ keyword ∈ blockedKeywords, dataset.toList.map Char.toUpper ≠ keyword.toList := by
  have hselect : Unblocked "SELECT * FROM".toList := by decide +kernel
  unfold selectFrom
  rw [unblocked_append_cons (by decide), and_iff_right hselect,
    unblocked_word (safeDatasetName_word dataset)]
  exact forall₂_congr fun keyword hkeyword => (map_toUpper_safeDatasetName hkeyword).not

theorem toList_query {parts : QueryParts} (hsummary : parts.summary ≠ some "") :
    parts.query.toList = match parts.service, parts.summary with
      | some _, _    => selectFrom parts.dataset ++ ' ' :: "WHERE service = $1".toList
      | none, some s =>
          selectFrom parts.dataset ++ ' ' :: ("/*".toList ++ ' ' :: (cleaned s ++ [' ', '*', '/']))
      | none, none   => selectFrom parts.dataset := by
  have hselect : ("SELECT * FROM " ++ safeDatasetName parts.dataset).toList =
      selectFrom parts.dataset := by
    rw [String.toList_append]
    rfl
  unfold QueryParts.query buildDbReadQuery
  dsimp only
  cases parts.service with
  | some service =>
      rw [String.toList_append, hselect]
      rfl
  | none =>
      cases hs : parts.summary with
      | none => exact hselect
      | some s =>
          have hne : s ≠ "" := fun h => hsummary (h ▸ hs)
          dsimp only
          rw [if_neg hne, String.toList_append, String.toList_append, String.toList_append, hselect,
            @String.toList_ofList (dropCommentEnds s.toList), List.append_assoc, List.append_assoc]
          rfl

theorem not_isWhiteSpace_of_isWordChar (h : isWordChar c = true) :
    isWhiteSpace c = false := by
  rw [isWordChar_iff] at h
  unfold isWhiteSpace
  simp only [Bool.or_eq_false_iff, Bool.and_eq_false_iff, decide_eq_false_iff_not, beq_eq_false_iff_ne]
  omega

theorem selectFrom_ends (h : dataset ≠ "") :
    ∃ ds d, selectFrom dataset = ds ++ [d] ∧ isWhiteSpace d = false := by
  have hne : (safeDatasetName dataset).toList ≠ [] := by
    rw [ne_eq, String.toList_eq_nil_iff]
    exact safeDatasetName_ne_empty h
  obtain ⟨ds, d, hname⟩ := (List.eq_nil_or_concat' _).resolve_left hne
  have hword : isWordChar d = true := safeDatasetName_word dataset d (by simp [hname])
  refine ⟨"SELECT * FROM".toList ++ ' ' :: ds, d, ?_, not_isWhiteSpace_of_isWordChar hword⟩
  unfold selectFrom
  rw [hname, List.append_assoc, List.cons_append]

theorem query_ends (hdataset : parts.dataset ≠ "") (hsummary : parts.summary ≠ some "") :
    (∃ cs, parts.query.toList = "SELECT".toList ++ cs) ∧
      ∃ ds d, parts.query.toList = ds ++ [d] ∧ isWhiteSpace d = false := by
  have hbegin (tail : List Char) : ∃ cs, selectFrom parts.dataset ++ tail = "SELECT".toList ++ cs :=
    ⟨" * FROM ".toList ++ (safeDatasetName parts.dataset).toList ++ tail, rfl⟩
  rw [toList_query hsummary]
  split
  · refine ⟨hbegin _, selectFrom parts.dataset ++ " WHERE service = $".toList, '1', ?_, by decide⟩
    rw [List.append_assoc]
    rfl
  · rename_i s _ _
    refine ⟨hbegin _, selectFrom parts.dataset ++ (" /* ".toList ++ cleaned s ++ [' ', '*']), '/', ?_,
      by decide⟩
    simp
  · obtain ⟨cs, hcs⟩ := hbegin []
    rw [List.append_nil] at hcs
    exact ⟨⟨cs, hcs⟩, selectFrom_ends hdataset⟩

/-- **A built query passes exactly when the dataset is no keyword, and the summary, where it is in it, has
none and lets the comment end its lines.** -/
theorem unblocked_query_iff (hsummary : parts.summary ≠ some "") :
    Unblocked parts.query.toList ↔
      (∀ keyword ∈ blockedKeywords, parts.dataset.toList.map Char.toUpper ≠ keyword.toList) ∧
        (parts.service = none → ∀ s, parts.summary = some s →
          Unblocked (cleaned s ++ [' ', '*', '/'])) := by
  have hfront := semicolon_notMem_selectFrom parts.dataset
  have hwhere : Unblocked "WHERE service = $1".toList := by decide +kernel
  have hmark : Unblocked "/*".toList := by decide +kernel
  rw [toList_query hsummary, ← unblocked_selectFrom]
  split
  · rename_i hservice
    rw [unblocked_append_cons hfront, hservice]
    exact and_congr_right fun _ => iff_of_true hwhere nofun
  · rename_i s hservice hs
    rw [unblocked_append_cons hfront, unblocked_append_cons (by decide), and_iff_right hmark, hservice,
      hs]
    simp
  · rename_i hservice hs
    rw [hs]
    simp

/-! ## One `SELECT`

The comment is to end at its own end, and not before. -/

theorem word_append_inj {w v xs ys : List Char} (hw : ∀ c ∈ w, isWordChar c = true)
    (hv : ∀ c ∈ v, isWordChar c = true) (h : w ++ ' ' :: xs = v ++ ' ' :: ys) : w = v ∧ xs = ys := by
  have hsame : w = v := by
    rw [← @takeWhile_word _ isWordChar w (' ' :: xs) hw (by rfl), h, takeWhile_word hv (by rfl)]
  subst hsame
  exact ⟨rfl, (List.cons.inj (List.append_cancel_left h)).2⟩

/-- What follows the name of a query that is built with a comment. -/
theorem comment_of_query (hsummary : parts.summary ≠ some "") (hservice : parts.service = none)
    (hs : parts.summary = some s) {name comment : String}
    (hname : ∀ c ∈ name.toList, isWordChar c = true)
    (h : parts.query = "SELECT * FROM " ++ name ++ (" /*" ++ comment)) :
    comment.toList = ' ' :: (cleaned s ++ [' ', '*', '/']) := by
  have hgiven : parts.query.toList =
      "SELECT * FROM".toList ++ ' ' :: (name.toList ++ ' ' :: ("/*".toList ++ comment.toList)) := by
    rw [h, String.toList_append, String.toList_append, String.toList_append, List.append_assoc]
    rfl
  have hbuilt := toList_query hsummary
  rw [hservice, hs] at hbuilt
  dsimp only at hbuilt
  unfold selectFrom at hbuilt
  rw [hgiven, List.append_assoc, List.append_cancel_left_eq, List.cons_append, List.cons_inj_right]
    at hbuilt
  obtain ⟨-, hrest⟩ := word_append_inj hname (safeDatasetName_word _) hbuilt
  exact List.append_cancel_left hrest

/-- The query that is built with a comment is one `SELECT` where the summary stays in it. -/
theorem selectsOne_comment {nests : Bool} (hdataset : parts.dataset ≠ "")
    (hsummary : parts.summary ≠ some "") (hservice : parts.service = none)
    (hs : parts.summary = some s) (hopen : StaysOpen nests (cleaned s)) :
    SelectsOne nests parts parts.query (safeDatasetName parts.dataset)
      (" /*" ++ (" " ++ String.ofList (cleaned s) ++ " */")) := by
  have hcomment : (" " ++ String.ofList (cleaned s) ++ " */").toList =
      ' ' :: (cleaned s ++ [' ', '*', '/']) := by
    rw [String.toList_append, String.toList_append, @String.toList_ofList (cleaned s)]
    rfl
  refine ⟨String.toList_inj.mp ?_, safeDatasetName_ne_empty hdataset, safeDatasetName_word _, ?_⟩
  · rw [toList_query hsummary, hservice, hs, String.toList_append, String.toList_append,
      String.toList_append, hcomment]
    unfold selectFrom
    simp
  · rw [hservice, hs]
    refine ⟨_, rfl, ?_, ?_⟩
    · rw [hcomment]
      exact ⟨[' '], [' ', '*', '/'], by simp⟩
    · rw [hcomment]
      exact commentEnd_iff_staysOpen.mpr hopen

/-- The query is one `SELECT` exactly when the summary stays in its comment. -/
theorem selectsOne_iff {nests : Bool} {parts : QueryParts} (hdataset : parts.dataset ≠ "")
    (hsummary : parts.summary ≠ some "") :
    (∃ name rest, SelectsOne nests parts parts.query name rest) ↔
      (parts.service = none → ∀ s, parts.summary = some s → StaysOpen nests (cleaned s)) := by
  constructor
  · -- whatever name is given, what follows it is the comment that was built
    rintro ⟨name, rest, hselect, -, hname, hrest⟩ hservice s hs
    rw [hservice, hs] at hrest
    obtain ⟨comment, rfl, -, hend⟩ := hrest
    rw [comment_of_query hsummary hservice hs hname hselect] at hend
    exact commentEnd_iff_staysOpen.mp hend
  · intro h
    have hne := safeDatasetName_ne_empty hdataset
    have hword := safeDatasetName_word parts.dataset
    cases hservice : parts.service with
    | some service =>
        refine ⟨safeDatasetName parts.dataset, " WHERE service = $1", ?_, hne, hword, ?_⟩
        · unfold QueryParts.query buildDbReadQuery
          rw [hservice]
        · rw [hservice]
    | none =>
        cases hs : parts.summary with
        | none =>
            refine ⟨safeDatasetName parts.dataset, "", ?_, hne, hword, ?_⟩
            · unfold QueryParts.query buildDbReadQuery
              rw [hservice, hs, String.append_empty]
            · rw [hservice, hs]
        | some s => exact ⟨_, _, selectsOne_comment hdataset hsummary hservice hs (h hservice s hs)⟩

/-! ## Envelopes -/

theorem not_isBlank_of_nonBlank {o : JsObject} {key s : String} (h : nonBlank o key = some s) :
    isBlank s = false := by
  unfold nonBlank at h
  split at h
  · split at h
    · cases h
    · rename_i hblank
      obtain rfl := Option.some.inj h
      simpa using hblank
  · cases h

theorem dataset_ne_empty (envelope : TaskEnvelope) : (queryParts envelope).dataset ≠ "" := by
  unfold queryParts
  dsimp only
  cases hdataset : nonBlank (envelope.constraints.domain.getD []) "dataset" with
  | none => exact (by decide : "records" ≠ "")
  | some s =>
      rintro rfl
      cases not_isBlank_of_nonBlank hdataset

theorem summary_ne_empty (envelope : TaskEnvelope) : (queryParts envelope).summary ≠ some "" := by
  unfold queryParts parseIntentPayload
  dsimp only
  split
  · simp
  · rename_i hblank
    split
    · simp
    · intro h
      exact hblank (trim_eq_empty_iff.mp (Option.some.inj h))

/-- **For every envelope of a database read without a query of its own, what is built is one `SELECT` that
passes exactly when its dataset is no keyword, and its summary, where it is written, is harmless.** -/
theorem buildsWell_iff (nests : Bool) (upper : UpperCase) (adapter : DbReadAdapter)
    (envelope : TaskEnvelope) (capability : String)
    (hcapability : startsWith capability "db.read." = true) (hquery : GivesNoQuery envelope) :
    BuildsWell nests upper adapter envelope capability ↔ Buildable nests (queryParts envelope) := by
  have hdataset := dataset_ne_empty envelope
  have hsummary := summary_ne_empty envelope
  have hget := get_query hcapability hquery
  obtain ⟨⟨cs, hbegin⟩, ds, d, hend, hd⟩ := query_ends hdataset hsummary
  have hselects := @selectsOne_iff nests _ hdataset hsummary
  have hpasses := unblocked_query_iff hsummary
  constructor
  · rintro ⟨⟨query, name, rest, hquery, hselect⟩, haccepted⟩
    obtain rfl := JsValue.str.inj (hget.symm.trans hquery)
    rw [query_errors_iff, hget, queryErrors_select_iff hbegin hend hd, hpasses] at haccepted
    refine ⟨haccepted.1, fun hservice s hs => ?_⟩
    obtain ⟨hwords, hdashes, hlines⟩ := unblocked_summary_iff.mp (haccepted.2 hservice s hs)
    exact ⟨hselects.mp ⟨name, rest, hselect⟩ hservice s hs, hwords, hdashes, hlines⟩
  · rintro ⟨hkeyword, hharmless⟩
    obtain ⟨name, rest, hselect⟩ := hselects.mpr fun hservice s hs => (hharmless hservice s hs).staysOpen
    refine ⟨⟨_, name, rest, hget, hselect⟩, ?_⟩
    rw [query_errors_iff, hget, queryErrors_select_iff hbegin hend hd, hpasses]
    refine ⟨hkeyword, fun hservice s hs => unblocked_summary_iff.mpr ?_⟩
    have hsafe := hharmless hservice s hs
    exact ⟨hsafe.words, hsafe.dashes, hsafe.lines⟩

/-- A request to read, in words. -/
def readEnvelope (intent : String) : TaskEnvelope where
  taskId              := "task_1"
  orderId             := none
  parentTaskId        := none
  contextId           := none
  requesterIdentity   := { type := .user, id := "engineer_1", tenantId := none }
  targetAgent         := "dbread-agent-v1"
  intent              := intent
  constraints         := { common := none, domain := none }
  riskClass           := .medium
  deadline            := none
  delegationToken     := "placeholder"
  requestedOutputMode := .summary
  metadata            := none
  idempotencyToken    := none
  extensions          := none

theorem buildsWell_iff_sample :
    BuildsWell true asciiCapitals (new id none {}) (readEnvelope "Read staging incident details")
        "db.read.query" ↔
      Buildable true (queryParts (readEnvelope "Read staging incident details")) :=
  buildsWell_iff true asciiCapitals (new id none {}) (readEnvelope "Read staging incident details")
    "db.read.query" (by decide) (.inl rfl)

/-- Without its `*/` the summary `**//` is the end of a comment. -/
theorem buildsWell_fails :
    ¬ ∀ (nests : Bool) (upper : UpperCase) (adapter : DbReadAdapter) (envelope : TaskEnvelope)
      (capability : String), startsWith capability "db.read." = true → GivesNoQuery envelope →
        BuildsWell nests upper adapter envelope capability := by
  intro h
  have hcapability : startsWith "db.read.query" "db.read." = true := by decide
  have hquery : GivesNoQuery (readEnvelope "**//") := .inl rfl
  obtain ⟨query, name, rest, hget, hselect⟩ := (h false asciiCapitals (new id none {})
    (readEnvelope "**//") "db.read.query" hcapability hquery).select
  obtain rfl := JsValue.str.inj ((get_query hcapability hquery).symm.trans hget)
  have hsummary : (queryParts (readEnvelope "**//")).summary = some "**//" := by decide +kernel
  have hstays := (selectsOne_iff (dataset_ne_empty _) (summary_ne_empty _)).mp ⟨name, rest, hselect⟩
    rfl "**//" hsummary
  exact staysOpen_flat_iff.mp hstays (by decide)

end MapProtocol
