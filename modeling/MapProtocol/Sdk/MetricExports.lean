import MapProtocol.Sdk.Metrics
import Mathlib.Data.String.Basic

/-!
# The export of metrics

Where the keys can be read, the series are kept apart, and each is exported under its name with its
labels and what comes of its values (`metrics_faithful`). Where they cannot, series run together, and
labels are cut or lost (`metrics_unfaithful`).
-/

namespace MapProtocol.Sdk.TypeScript

open Js QuotedPairs Transition

namespace PrometheusMetricsCollector

/-! ## What should be exported -/

/-- A line of a series: what follows its name, a label that the line adds, and the value. -/
structure Sample where
  suffix : String
  extra  : Option (String × String) := none
  value  : String

/-- The lines before the samples of a series. -/
def header (metricPrefix name : String) : MetricType → List String
  | .counter =>
      ["# TYPE " ++ metricPrefix ++ "_" ++ name ++ " counter",
        "# HELP " ++ metricPrefix ++ "_" ++ name ++ " counter metric"]
  | .gauge =>
      ["# TYPE " ++ metricPrefix ++ "_" ++ name ++ " gauge",
        "# HELP " ++ metricPrefix ++ "_" ++ name ++ " gauge metric"]
  | .histogram => ["# TYPE " ++ metricPrefix ++ "_" ++ name ++ " histogram"]
  | .summary   => ["# TYPE " ++ metricPrefix ++ "_" ++ name ++ " summary"]

/-- The sum and the count of a histogram or of a summary. -/
def totals (values : List Number) : List Sample :=
  [{ suffix := "_sum", value := (sum values).text },
    { suffix := "_count", value := toString values.length }]

/-- What comes of the values given to a series of a type: the sum of a counter, the last of a gauge,
how many of a histogram are in each bucket, and the quantiles of a summary. -/
def samples (host : MetricsHost) : MetricType → List Number → List Sample
  | .counter, values   =>
      [{ suffix := "", value := (values.tail.foldl Number.add (values.headD (.finite 0))).text }]
  | .gauge, values     => [{ suffix := "", value := (values.getLastD (.finite 0)).text }]
  | .histogram, values =>
      (buckets.map fun le => ⟨"_bucket", some ("le", le.text), toString (values.countP (·.le le))⟩) ++
        ⟨"_bucket", some ("le", "+Inf"), toString values.length⟩ :: totals values
  | .summary, values   =>
      let sorted := sortNumbers host values
      (quantiles.map fun q => ⟨"_quantile", some ("quantile", (Number.finite q).text),
          (sorted[quantileIndex sorted.length q]?.map Number.text).getD "undefined"⟩) ++
        totals values

/-- Labels that are shown exactly: those of a series, the defaults where it has none, and what the
line adds, each once. -/
structure LabelsShown (defaultLabels labels : Labels) (extra : Option (String × String))
    (shown : List (String × String)) : Prop where
  nodup : (shown.map Prod.fst).Nodup
  exact : ∀ k v, (k, v) ∈ shown ↔
    extra = some (k, v) ∨ (labels.get k).or (defaultLabels.get k) = some v

/-- A line that shows a sample of a series: its name, then its labels, which are read back from the
text, and its value. -/
def SampleShown (c : PrometheusMetricsCollector) (op : Operation) (sample : Sample) (line : String) :
    Prop :=
  ∃ rest shown, line = c.metricPrefix ++ "_" ++ op.name ++ sample.suffix ++ rest ∧
    readLabels rest = some (shown, " " ++ sample.value) ∧
    LabelsShown c.defaultLabels op.labels sample.extra shown

def SeriesShown (host : MetricsHost) (c : PrometheusMetricsCollector) (ops : List Operation)
    (op : Operation) (lines : List String) : Prop :=
  ∃ sampleLines, lines = header c.metricPrefix op.name op.type ++ sampleLines ∧
    List.Forall₂ (SampleShown c op) (samples host op.type (given ops op)) sampleLines

/-- The first operation on each series, in the order of the export. -/
def seriesOf (ops : List Operation) : List Operation :=
  [MetricType.counter, .gauge, .histogram, .summary].flatMap (firsts ops)

/-- **What is wanted of a run**: two operations of a type share a key exactly if they are on the same
series, and the export shows each series. -/
structure Faithful (host : MetricsHost) (options : MetricsCollectorOptions) (ops : List Operation) :
    Prop where
  apart    : KeysApart host ops
  exported : ∃ blocks : List (List String),
    (run (perform host) (new options) ops).exportText host =
      String.intercalate "\n" blocks.flatten ∧
    List.Forall₂ (SeriesShown host (new options) ops) (seriesOf ops) blocks

/-! ## When it is -/

/-- The label that the lines of a type add. -/
def addedLabel : MetricType → Option String
  | .histogram => some "le"
  | .summary   => some "quantile"
  | _          => none

/-- An operation on a series that is exported as it is. -/
structure Operation.Exact (defaultLabels : Labels) (op : Operation) : Prop where
  readable : KeyReadable op.name op.labels
  defaults : ∀ e ∈ defaultLabels.entries, op.labels.get e.1 = none → Unquoted (chars e)
  free     : ∀ k, addedLabel op.type = some k → op.labels.get k = none ∧ defaultLabels.get k = none

structure ExactOperations (host : MetricsHost) (options : MetricsCollectorOptions)
    (ops : List Operation) : Prop where
  exact : ∀ op ∈ ops, op.Exact (new options).defaultLabels
  ties  : ∀ a ∈ ops, ∀ b ∈ ops, sameSeries a b = true →
    TiesAlike host.collation a.labels b.labels

variable {host : MetricsHost} {options : MetricsCollectorOptions} {ops : List Operation}
  {c : PrometheusMetricsCollector} {op : Operation}

theorem keysApart_of_exact (h : ExactOperations host options ops) : KeysApart host ops := by
  intro a ha b hb htype
  have hiff := makeKey_eq_iff host.collation (h.exact a ha).readable (h.exact b hb).readable
  constructor
  · intro hkey
    obtain ⟨hname, hlabels, -⟩ := hiff.mp hkey
    exact decide_eq_true ⟨htype, hname, hlabels⟩
  · intro hsame
    obtain ⟨-, hname, hlabels⟩ := of_decide_eq_true hsame
    exact hiff.mpr ⟨hname, hlabels, h.ties a ha b hb hsame⟩

/-! ## The lines of the export -/

/-- The labels of a line, with the one that it adds. -/
def addLabel (finalLabels : Labels) : Option (String × String) → Labels
  | some (k, v) => finalLabels.set k v
  | none        => finalLabels

def sampleLine (c : PrometheusMetricsCollector) (name : String) (finalLabels : Labels)
    (sample : Sample) : String :=
  c.metricPrefix ++ "_" ++ name ++ sample.suffix ++
    formatLabels (addLabel finalLabels sample.extra) ++ " " ++ sample.value

/-- What is written of the samples of a series that is kept under a key. -/
def writtenLines (c : PrometheusMetricsCollector) (type : MetricType) (key : String)
    (samples : List Sample) : List String :=
  header c.metricPrefix (parseKey key).1 type ++
    samples.map (sampleLine c (parseKey key).1 (mergeLabels c.defaultLabels (parseKey key).2))

theorem exportCounters_eq (c : PrometheusMetricsCollector) :
    c.exportCounters = c.counters.entries.flatMap
      fun e => writtenLines c .counter e.1 [{ suffix := "", value := e.2.value.text }] := by
  unfold exportCounters writtenLines
  refine congrArg (List.flatMap · _) (funext fun e => ?_)
  simp [header, sampleLine, addLabel]

theorem exportGauges_eq (c : PrometheusMetricsCollector) :
    c.exportGauges = c.gauges.entries.flatMap
      fun e => writtenLines c .gauge e.1 [{ suffix := "", value := e.2.value.text }] := by
  unfold exportGauges writtenLines
  refine congrArg (List.flatMap · _) (funext fun e => ?_)
  simp [header, sampleLine, addLabel]

theorem exportHistograms_eq (host : MetricsHost) (c : PrometheusMetricsCollector) :
    c.exportHistograms = c.histograms.entries.flatMap
      fun e => writtenLines c .histogram e.1 (samples host .histogram e.2.values) := by
  unfold exportHistograms writtenLines
  refine congrArg (List.flatMap · _) (funext fun e => ?_)
  simp [header, samples, totals, sampleLine, addLabel, List.countP_eq_length_filter]

theorem exportSummaries_eq (host : MetricsHost) (c : PrometheusMetricsCollector) :
    c.exportSummaries host = c.summaries.entries.flatMap
      fun e => writtenLines c .summary e.1 (samples host .summary e.2.values) := by
  unfold exportSummaries writtenLines
  refine congrArg (List.flatMap · _) (funext fun e => ?_)
  simp [header, samples, totals, sampleLine, addLabel]

def seriesLines (host : MetricsHost) (c : PrometheusMetricsCollector) (ops : List Operation)
    (op : Operation) : List String :=
  writtenLines c op.type (op.key host) (samples host op.type (given ops op))

theorem seriesLines_same {c c' : PrometheusMetricsCollector} (h : SameOptions c c') :
    seriesLines host c' ops = seriesLines host c ops := by
  funext op
  unfold seriesLines writtenLines sampleLine
  rw [h.metricPrefix, h.defaultLabels]

/-- What is written for a map is written for each of its series. -/
theorem Updated.lines {ν : Type} {map : PrometheusMetricsCollector → OrderedMap String ν}
    {type : MetricType} {update : Option ν → Operation → ν} (h : Updated host map type update)
    (options : MetricsCollectorOptions) (hempty : map (new options) = .empty)
    (hapart : KeysApart host ops) (c : PrometheusMetricsCollector) (written : ν → List Sample)
    (hwritten : ∀ g : Group Operation,
      written (g.total update) = samples host type (g.members.map Operation.value)) :
    ((map (Transition.run (perform host) (new options) ops)).entries.flatMap
      fun e => writtenLines c type e.1 (written e.2)) =
      (firsts ops type).flatMap (seriesLines host c ops) := by
  rw [h.entries hempty hapart, firsts, List.flatMap_map, List.flatMap_map]
  refine List.flatMap_congr fun g hg => ?_
  rw [hwritten, given_group hg]
  unfold seriesLines
  rw [(first_group hg).2]

/-- **The export is the lines of each series**, if the keys tell them apart. -/
theorem exportText_eq (hapart : KeysApart host ops) :
    (run (perform host) (new options) ops).exportText host = String.intercalate "\n"
      ((seriesOf ops).map (seriesLines host (new options) ops)).flatten := by
  generalize hc : run (perform host) (new options) ops = c
  have hcounters := updated_counters.lines options rfl hapart c
    (fun v => [{ suffix := "", value := v.value.text }]) ?_
  have hgauges := updated_gauges.lines options rfl hapart c
    (fun v => [{ suffix := "", value := v.value.text }]) ?_
  have hhistograms := updated_histograms.lines options rfl hapart c
    (fun v => samples host .histogram v.values) ?_
  have hsummaries := updated_summaries.lines options rfl hapart c
    (fun v => samples host .summary v.values) ?_
  · rw [hc] at hcounters hgauges hhistograms hsummaries
    -- no operation changes the options that the lines are written with
    have hsame : SameOptions (new options) c := hc ▸ sameOptions_run (new options) ops
    unfold exportText
    rw [exportCounters_eq, exportGauges_eq, exportHistograms_eq host, exportSummaries_eq,
      hcounters, hgauges, hhistograms, hsummaries, seriesLines_same hsame, ← List.flatMap_def,
      seriesOf]
    simp
  · intro g
    rw [total_updateValues]
  · intro g
    rw [total_updateValues]
  · intro g
    have hlast := total_updateGauge g
    show [Sample.mk "" none _] = [Sample.mk "" none _]
    rw [List.getLastD_eq_getLast?, ← hlast]
    rfl
  · intro g
    show [Sample.mk "" none _] = [Sample.mk "" none _]
    rw [total_updateCounter]
    rfl

/-! ## What the lines show -/

theorem labelsShown_merge (defaultLabels labels : Labels) {read : Labels}
    (hread : read.entries.Perm labels.entries) {extra : Option (String × String)}
    (hfree : ∀ k v, extra = some (k, v) → labels.get k = none ∧ defaultLabels.get k = none) :
    LabelsShown defaultLabels labels extra
      (objectEntries (addLabel (mergeLabels defaultLabels read) extra)) := by
  have hmerge : ∀ k, (mergeLabels defaultLabels read).get k =
      (labels.get k).or (defaultLabels.get k) := by
    intro k
    rw [get_mergeLabels, OrderedMap.perm_iff_get.mp hread k]
  refine ⟨nodup_objectEntries _, fun k v => ?_⟩
  rw [(objectEntries_perm _).mem_iff, ← OrderedMap.get_eq_some]
  cases extra with
  | none => simp [addLabel, hmerge]
  | some e =>
      obtain ⟨name, value⟩ := e
      obtain ⟨hlabel, hdefault⟩ := hfree name value rfl
      rw [addLabel, OrderedMap.get_set, hmerge]
      by_cases hname : name = k
      · subst hname
        simp [hlabel, hdefault]
      · simp [hname]

theorem unquoted_shown {shown : List (String × String)} {extra : Option (String × String)}
    (h : op.Exact c.defaultLabels) (hshown : LabelsShown c.defaultLabels op.labels extra shown)
    (hextra : ∀ e, extra = some e → Unquoted (chars e)) : ∀ e ∈ shown, Unquoted (chars e) := by
  rintro ⟨k, v⟩ he
  rcases (hshown.exact k v).mp he with hadded | hmerged
  · exact hextra _ hadded
  · cases hlabel : op.labels.get k with
    | some w =>
        rw [hlabel, Option.some_or] at hmerged
        have hmem := OrderedMap.get_eq_some.mp (hlabel.trans hmerged)
        have hreadable := ((if_neg (List.ne_nil_of_mem hmem)).mp h.readable).2.2 _ hmem
        refine ⟨fun hquote => ?_, hreadable.unquoted⟩
        exact absurd (hreadable.word _ hquote) (by decide)
    | none =>
        rw [hlabel, Option.none_or] at hmerged
        exact h.defaults (k, v) (OrderedMap.get_eq_some.mp hmerged) hlabel

theorem unquoted_chars {k v : String} (hk : '"' ∉ k.toList) (hv : '"' ∉ v.toList) :
    Unquoted (chars (k, v)) := ⟨hk, hv⟩

/-- What the lines of a type add is the label of that type, without quotes. -/
theorem extra_samples {type : MetricType} {values : List Number} {sample : Sample}
    (h : sample ∈ samples host type values) {k v : String} (hextra : sample.extra = some (k, v)) :
    addedLabel type = some k ∧ Unquoted (chars (k, v)) := by
  have htotals : sample ∉ totals values := by
    intro hmem
    simp only [totals, List.mem_cons, List.not_mem_nil, or_false] at hmem
    rcases hmem with rfl | rfl <;> cases hextra
  cases type with
  | counter =>
      rw [List.mem_singleton.mp h] at hextra
      cases hextra
  | gauge =>
      rw [List.mem_singleton.mp h] at hextra
      cases hextra
  | histogram =>
      rcases List.mem_append.mp h with hmem | hmem
      · obtain ⟨le, -, rfl⟩ := List.mem_map.mp hmem
        cases hextra
        exact ⟨rfl, unquoted_chars (by decide) le.quote_notMem_text⟩
      · rcases List.mem_cons.mp hmem with rfl | hmem
        · cases hextra
          exact ⟨rfl, unquoted_chars (by decide) (by decide)⟩
        · exact absurd hmem htotals
  | summary =>
      rcases List.mem_append.mp h with hmem | hmem
      · obtain ⟨q, -, rfl⟩ := List.mem_map.mp hmem
        cases hextra
        exact ⟨rfl, unquoted_chars (by decide) (Number.quote_notMem_text _)⟩
      · exact absurd hmem htotals

/-- **A line shows its sample.** -/
theorem sampleShown_line (h : op.Exact c.defaultLabels) {read : Labels}
    (hread : read.entries.Perm op.labels.entries) {values : List Number} {sample : Sample}
    (hsample : sample ∈ samples host op.type values) :
    SampleShown c op sample (sampleLine c op.name (mergeLabels c.defaultLabels read) sample) := by
  have hshown := labelsShown_merge c.defaultLabels op.labels hread fun k v hextra =>
    h.free k (extra_samples hsample hextra).1
  have hunquoted := unquoted_shown h hshown fun e hextra => (extra_samples hsample hextra).2
  refine ⟨formatLabels (addLabel (mergeLabels c.defaultLabels read) sample.extra) ++
    (" " ++ sample.value), _, ?_, ?_, hshown⟩
  · unfold sampleLine
    rw [String.append_assoc, String.append_assoc, String.append_assoc]
  · refine readLabels_formatLabels ?_ ?_
    · exact fun e he => hunquoted e ((objectEntries_perm _).symm.subset he)
    · simp

theorem seriesShown_lines (h : op.Exact c.defaultLabels) :
    SeriesShown host c ops op (seriesLines host c ops op) := by
  obtain ⟨hname, hread⟩ :=
    (parseKey_makeKey_iff host.collation op.name op.labels).mpr h.readable
  unfold seriesLines writtenLines Operation.key
  rw [hname]
  refine ⟨_, rfl, List.forall₂_map_right_iff.mpr (List.forall₂_same.mpr fun sample hsample => ?_)⟩
  exact sampleShown_line h hread hsample

theorem mem_of_mem_seriesOf (h : op ∈ seriesOf ops) : op ∈ ops := by
  obtain ⟨type, -, hop⟩ := List.mem_flatMap.mp h
  obtain ⟨g, hg, rfl⟩ := List.mem_map.mp hop
  exact (first_group hg).1

/-- **The series are kept apart and exported as they are**, whatever the operations on them, if their
keys can be read, what is exported has no quotes, and no label is one that the export adds. -/
theorem metrics_faithful (host : MetricsHost) (options : MetricsCollectorOptions)
    (ops : List Operation) (h : ExactOperations host options ops) : Faithful host options ops where
  apart    := keysApart_of_exact h
  exported := by
    refine ⟨(seriesOf ops).map (seriesLines host (new options) ops), ?_, ?_⟩
    · exact exportText_eq (keysApart_of_exact h)
    · refine List.forall₂_map_right_iff.mpr (List.forall₂_same.mpr fun op hop => ?_)
      exact seriesShown_lines (h.exact op (mem_of_mem_seriesOf hop))

/-- Texts compared by their characters. -/
def compareChars (a b : String) : Int := if a = b then 0 else if a < b then -1 else 1

theorem compareChars_le {a b : String} : compareChars a b ≤ 0 ↔ a ≤ b := by
  unfold compareChars
  rcases lt_trichotomy a b with h | rfl | h
  · rw [if_neg h.ne, if_pos h]
    exact iff_of_true (by decide) h.le
  · rw [if_pos rfl]
    exact iff_of_true (by decide) le_rfl
  · rw [if_neg h.ne', if_neg h.asymm]
    exact iff_of_false (by decide) (not_le.mpr h)

def sampleHost : MetricsHost where
  collation :=
    { localeCompare := compareChars
      total := by
        intro a b
        rw [compareChars_le, compareChars_le]
        exact le_total a b
      trans := by
        intro a b c hab hbc
        rw [compareChars_le] at hab hbc ⊢
        exact hab.trans hbc }
  arrange := id

/-- Requests that are counted, and how long they took. -/
def sampleOperations : List Operation :=
  [⟨.counter, "requests", .finite 1, ⟨[("method", "GET"), ("status", "200")], by decide⟩⟩,
    ⟨.histogram, "latency", .finite (1 / 4), ⟨[("method", "GET")], by decide⟩⟩,
    ⟨.counter, "requests", .finite 2, ⟨[("status", "200"), ("method", "GET")], by decide⟩⟩]

theorem sample_faithful :
    Faithful sampleHost { defaultLabels := some ⟨[("env", "prod")], by decide⟩ } sampleOperations := by
  refine metrics_faithful _ _ _ ⟨?_, fun a _ b _ _ => tiesAlike_of_antisymm ?_ _ _⟩
  · intro op hop
    have hdefaults : ∀ e ∈ [("env", "prod")], op.labels.get e.1 = none → Unquoted (chars e) :=
      fun e he _ => List.mem_singleton.mp he ▸ by decide
    simp only [sampleOperations, List.mem_cons, List.not_mem_nil, or_false] at hop
    rcases hop with rfl | rfl | rfl
    · refine ⟨by decide, hdefaults, ?_⟩
      intro k hk
      cases hk
    · refine ⟨by decide, hdefaults, ?_⟩
      intro k hk
      cases hk
      exact ⟨rfl, rfl⟩
    · refine ⟨by decide, hdefaults, ?_⟩
      intro k hk
      cases hk
  · intro a b hab hba
    exact le_antisymm (compareChars_le.mp hab) (compareChars_le.mp hba)

/-- A quote in a value makes the series of other labels of it, and one series of two. -/
theorem metrics_unfaithful :
    ¬ Faithful sampleHost {} [⟨.counter, "m", .finite 1, ⟨[("a", "1\",b=\"2")], by decide⟩⟩,
      ⟨.counter, "m", .finite 1, ⟨[("a", "1"), ("b", "2")], by decide⟩⟩] := by
  intro h
  have hsame := h.apart _ (List.mem_cons_self ..) _ (List.mem_cons_of_mem _ (List.mem_cons_self ..))
    rfl
  have hkeys : makeKey sampleHost.collation "m" ⟨[("a", "1\",b=\"2")], by decide⟩ =
      makeKey sampleHost.collation "m" ⟨[("a", "1"), ("b", "2")], by decide⟩ := by
    have hsorted : ∀ es : List (String × String), es.Pairwise (fun a b =>
        decide (sampleHost.collation.localeCompare a.1 b.1 ≤ 0) = true) →
        sortEntries sampleHost.collation es = es := fun es h => List.mergeSort_of_pairwise h
    apply String.toList_inj.mp
    rw [toList_makeKey, toList_makeKey, objectEntries_eq (by decide), objectEntries_eq (by decide),
      hsorted _ (by decide), hsorted _ (by decide)]
    decide
  exact absurd (hsame.mp hkeys) (by decide)

end PrometheusMetricsCollector

end MapProtocol.Sdk.TypeScript
