import MapProtocol.Js.Arithmetic
import MapProtocol.Lib.Grouping
import MapProtocol.Lib.Transition
import MapProtocol.Sdk.MetricLabels

/-!
# Metrics

`PrometheusMetricsCollector` keeps counters, gauges, histograms and summaries, each series under a key
made of its name and its labels, and exports them as text. If the keys tell the series apart, each map
holds what comes of the operations on each of its series (`Updated.entries`).
-/

namespace MapProtocol.Sdk.TypeScript

open Js QuotedPairs Transition

/-- What the collector takes from outside. -/
structure MetricsHost where
  collation : Collation
  /-- What `sort((a, b) => a - b)` makes of numbers of which one is `NaN`. -/
  arrange   : List Number → List Number

inductive MetricType where
  | counter
  | gauge
  | histogram
  | summary
  deriving DecidableEq, Repr

/-- A counter or a gauge. -/
structure MetricValue where
  value  : Number
  labels : Labels

/-- A histogram or a summary. -/
structure MetricValues where
  values : List Number
  labels : Labels

structure MetricsCollectorOptions where
  defaultLabels : Option Labels := none
  /-- `prefix`. -/
  metricPrefix  : Option String := none

structure PrometheusMetricsCollector where
  /-- `prefix`. -/
  metricPrefix  : String
  defaultLabels : Labels
  counters      : OrderedMap String MetricValue
  gauges        : OrderedMap String MetricValue
  histograms    : OrderedMap String MetricValues
  summaries     : OrderedMap String MetricValues

namespace PrometheusMetricsCollector

def new (options : MetricsCollectorOptions) : PrometheusMetricsCollector where
  metricPrefix  := options.metricPrefix.getD "map"
  defaultLabels := options.defaultLabels.getD .empty
  counters      := .empty
  gauges        := .empty
  histograms    := .empty
  summaries     := .empty

section

variable (host : MetricsHost) (c : PrometheusMetricsCollector)

/-! ## Operations -/

def counterIncrement (name : String) (value : Number := .finite 1) (labels : Labels := .empty) :
    PrometheusMetricsCollector :=
  let key := makeKey host.collation name labels
  match c.counters.get key with
  | some current =>
      let current := { current with value := current.value.add value }
      { c with counters := c.counters.set key current }
  | none => { c with counters := c.counters.set key { value, labels } }

def gaugeSet (name : String) (value : Number) (labels : Labels := .empty) :
    PrometheusMetricsCollector :=
  let key := makeKey host.collation name labels
  { c with gauges := c.gauges.set key { value, labels } }

def histogramObserve (name : String) (value : Number) (labels : Labels := .empty) :
    PrometheusMetricsCollector :=
  let key := makeKey host.collation name labels
  match c.histograms.get key with
  | some current =>
      let current := { current with values := current.values ++ [value] }
      { c with histograms := c.histograms.set key current }
  | none => { c with histograms := c.histograms.set key { values := [value], labels } }

def summaryObserve (name : String) (value : Number) (labels : Labels := .empty) :
    PrometheusMetricsCollector :=
  let key := makeKey host.collation name labels
  match c.summaries.get key with
  | some current =>
      let current := { current with values := current.values ++ [value] }
      { c with summaries := c.summaries.set key current }
  | none => { c with summaries := c.summaries.set key { values := [value], labels } }

/-! ## Export -/

def buckets : List Number :=
  [5 / 1000, 1 / 100, 25 / 1000, 5 / 100, 1 / 10, 25 / 100, 5 / 10, 1, 25 / 10, 5, 10].map
    fun le => .finite (toDouble le)

def quantiles : List Rat := [5 / 10, 9 / 10, 95 / 100, 99 / 100].map toDouble

/-- `[...values].sort((a, b) => a - b)`. -/
def sortNumbers (values : List Number) : List Number :=
  if .nan ∈ values then host.arrange values else values.mergeSort Number.le

/-- `Math.max(0, Math.ceil(n * q) - 1)`. -/
def quantileIndex (n : Nat) (q : Rat) : Nat := (⌈toDouble (n * q)⌉ - 1).toNat

def exportCounters : List String :=
  c.counters.entries.flatMap fun (key, data) =>
    let (name, metricLabels) := parseKey key
    let finalLabels := mergeLabels c.defaultLabels metricLabels
    ["# TYPE " ++ c.metricPrefix ++ "_" ++ name ++ " counter",
      "# HELP " ++ c.metricPrefix ++ "_" ++ name ++ " counter metric",
      c.metricPrefix ++ "_" ++ name ++ formatLabels finalLabels ++ " " ++ data.value.text]

def exportGauges : List String :=
  c.gauges.entries.flatMap fun (key, data) =>
    let (name, metricLabels) := parseKey key
    let finalLabels := mergeLabels c.defaultLabels metricLabels
    ["# TYPE " ++ c.metricPrefix ++ "_" ++ name ++ " gauge",
      "# HELP " ++ c.metricPrefix ++ "_" ++ name ++ " gauge metric",
      c.metricPrefix ++ "_" ++ name ++ formatLabels finalLabels ++ " " ++ data.value.text]

def exportHistograms : List String :=
  c.histograms.entries.flatMap fun (key, data) =>
    let (name, metricLabels) := parseKey key
    let finalLabels := mergeLabels c.defaultLabels metricLabels
    let values := data.values
    let count := values.length
    ["# TYPE " ++ c.metricPrefix ++ "_" ++ name ++ " histogram"] ++
      (buckets.map fun le =>
        let bucketCount := (values.filter fun v => v.le le).length
        c.metricPrefix ++ "_" ++ name ++ "_bucket" ++ formatLabels (finalLabels.set "le" le.text) ++
          " " ++ toString bucketCount) ++
      [c.metricPrefix ++ "_" ++ name ++ "_bucket" ++ formatLabels (finalLabels.set "le" "+Inf") ++
          " " ++ toString count,
        c.metricPrefix ++ "_" ++ name ++ "_sum" ++ formatLabels finalLabels ++ " " ++
          (sum values).text,
        c.metricPrefix ++ "_" ++ name ++ "_count" ++ formatLabels finalLabels ++ " " ++
          toString count]

def exportSummaries : List String :=
  c.summaries.entries.flatMap fun (key, data) =>
    let (name, metricLabels) := parseKey key
    let finalLabels := mergeLabels c.defaultLabels metricLabels
    let values := data.values
    let count := values.length
    let sorted := sortNumbers host values
    ["# TYPE " ++ c.metricPrefix ++ "_" ++ name ++ " summary"] ++
      (quantiles.map fun q =>
        let value := (sorted[quantileIndex sorted.length q]?.map Number.text).getD "undefined"
        c.metricPrefix ++ "_" ++ name ++ "_quantile" ++
          formatLabels (finalLabels.set "quantile" (Number.finite q).text) ++ " " ++ value) ++
      [c.metricPrefix ++ "_" ++ name ++ "_sum" ++ formatLabels finalLabels ++ " " ++
          (sum values).text,
        c.metricPrefix ++ "_" ++ name ++ "_count" ++ formatLabels finalLabels ++ " " ++
          toString count]

/-- `export`. -/
def exportText : String :=
  String.intercalate "\n"
    (c.exportCounters ++ c.exportGauges ++ c.exportHistograms ++ c.exportSummaries host)

end

structure Operation where
  type   : MetricType
  name   : String
  value  : Number
  labels : Labels

def perform (host : MetricsHost) (c : PrometheusMetricsCollector) (op : Operation) :
    PrometheusMetricsCollector :=
  match op.type with
  | .counter   => c.counterIncrement host op.name op.value op.labels
  | .gauge     => c.gaugeSet host op.name op.value op.labels
  | .histogram => c.histogramObserve host op.name op.value op.labels
  | .summary   => c.summaryObserve host op.name op.value op.labels

/-! ## What the maps hold -/

def updateCounter : Option MetricValue → Operation → MetricValue
  | some current, op => { current with value := current.value.add op.value }
  | none, op         => { value := op.value, labels := op.labels }

def updateGauge : Option MetricValue → Operation → MetricValue
  | _, op => { value := op.value, labels := op.labels }

/-- What an operation makes of a histogram or of a summary. -/
def updateValues : Option MetricValues → Operation → MetricValues
  | some current, op => { current with values := current.values ++ [op.value] }
  | none, op         => { values := [op.value], labels := op.labels }

variable {host : MetricsHost} {options : MetricsCollectorOptions} {ops : List Operation}

def Operation.key (host : MetricsHost) (op : Operation) : String :=
  makeKey host.collation op.name op.labels

section

variable {ν : Type}

def updateAt (host : MetricsHost) (update : Option ν → Operation → ν) (m : OrderedMap String ν)
    (op : Operation) : OrderedMap String ν :=
  m.set (op.key host) (update (m.get (op.key host)) op)

def Updated (host : MetricsHost) (map : PrometheusMetricsCollector → OrderedMap String ν)
    (type : MetricType) (update : Option ν → Operation → ν) : Prop :=
  ∀ c op, map (perform host c op) =
    if op.type = type then updateAt host update (map c) op else map c

theorem Updated.run {map : PrometheusMetricsCollector → OrderedMap String ν} {type : MetricType}
    {update : Option ν → Operation → ν} (h : Updated host map type update) (ops : List Operation)
    (c : PrometheusMetricsCollector) :
    map (run (perform host) c ops) =
      (ops.filter (·.type = type)).foldl (updateAt host update) (map c) := by
  induction ops generalizing c with
  | nil => rfl
  | cons op ops ih =>
      rw [run_cons, ih, h c op]
      by_cases htype : op.type = type
      · rw [if_pos htype, List.filter_cons_of_pos (by simpa using htype), List.foldl_cons]
      · rw [if_neg htype, List.filter_cons_of_neg (by simpa using htype)]

end

/-- **What an operation does**: it updates its series in the map of its type. -/
theorem perform_eq (c : PrometheusMetricsCollector) (op : Operation) :
    perform host c op = match op.type with
      | .counter   => { c with counters := updateAt host updateCounter c.counters op }
      | .gauge     => { c with gauges := updateAt host updateGauge c.gauges op }
      | .histogram => { c with histograms := updateAt host updateValues c.histograms op }
      | .summary   => { c with summaries := updateAt host updateValues c.summaries op } := by
  unfold perform
  cases op.type with
  | counter =>
      unfold counterIncrement updateAt Operation.key
      dsimp only
      cases c.counters.get (makeKey host.collation op.name op.labels) <;> rfl
  | gauge => rfl
  | histogram =>
      unfold histogramObserve updateAt Operation.key
      dsimp only
      cases c.histograms.get (makeKey host.collation op.name op.labels) <;> rfl
  | summary =>
      unfold summaryObserve updateAt Operation.key
      dsimp only
      cases c.summaries.get (makeKey host.collation op.name op.labels) <;> rfl

theorem updated_counters : Updated host counters .counter updateCounter := by
  intro c op
  rw [perform_eq]
  cases op.type <;> rfl

theorem updated_gauges : Updated host gauges .gauge updateGauge := by
  intro c op
  rw [perform_eq]
  cases op.type <;> rfl

theorem updated_histograms : Updated host histograms .histogram updateValues := by
  intro c op
  rw [perform_eq]
  cases op.type <;> rfl

theorem updated_summaries : Updated host summaries .summary updateValues := by
  intro c op
  rw [perform_eq]
  cases op.type <;> rfl

structure SameOptions (c c' : PrometheusMetricsCollector) : Prop where
  metricPrefix  : c'.metricPrefix = c.metricPrefix
  defaultLabels : c'.defaultLabels = c.defaultLabels

theorem sameOptions_run (c : PrometheusMetricsCollector) (ops : List Operation) :
    SameOptions c (run (perform host) c ops) := by
  refine run_preserves (I := SameOptions c) ?_ ops ⟨rfl, rfl⟩
  intro c' op h
  rw [perform_eq]
  cases op.type <;> exact ⟨h.metricPrefix, h.defaultLabels⟩

/-! ## Series -/

def sameSeries (a b : Operation) : Bool :=
  decide (a.type = b.type ∧ a.name = b.name ∧ a.labels.entries.Perm b.labels.entries)

def firsts (ops : List Operation) (type : MetricType) : List Operation :=
  (grouped sameSeries (ops.filter (·.type = type))).map Group.first

/-- The values that the operations on a series give. -/
def given (ops : List Operation) (op : Operation) : List Number :=
  (ops.filter (sameSeries op)).map Operation.value

/-- The keys tell the series apart. -/
def KeysApart (host : MetricsHost) (ops : List Operation) : Prop :=
  ∀ a ∈ ops, ∀ b ∈ ops, a.type = b.type → (a.key host = b.key host ↔ sameSeries a b = true)

theorem sameSeries_refl (a : Operation) : sameSeries a a = true :=
  decide_eq_true ⟨rfl, rfl, List.Perm.refl _⟩

theorem sameSeries_symm (a b : Operation) (h : sameSeries a b = true) : sameSeries b a = true := by
  obtain ⟨htype, hname, hlabels⟩ := of_decide_eq_true h
  exact decide_eq_true ⟨htype.symm, hname.symm, hlabels.symm⟩

theorem sameSeries_trans (a b c : Operation) (h : sameSeries a b = true)
    (h' : sameSeries b c = true) : sameSeries a c = true := by
  obtain ⟨htype, hname, hlabels⟩ := of_decide_eq_true h
  obtain ⟨htype', hname', hlabels'⟩ := of_decide_eq_true h'
  exact decide_eq_true ⟨htype.trans htype', hname.trans hname', hlabels.trans hlabels'⟩

section

variable {type : MetricType} {g : Group Operation}

theorem members_group (h : g ∈ grouped sameSeries (ops.filter (·.type = type))) :
    g.members = (ops.filter (·.type = type)).filter (sameSeries g.first) :=
  members_of_mem_grouped sameSeries_refl sameSeries_symm sameSeries_trans h

theorem first_group (h : g ∈ grouped sameSeries (ops.filter (·.type = type))) :
    g.first ∈ ops ∧ g.first.type = type := by
  have hmem : g.first ∈ g.members := List.mem_cons_self ..
  rw [members_group h] at hmem
  obtain ⟨hops, htype⟩ := List.mem_filter.mp (List.mem_of_mem_filter hmem)
  exact ⟨hops, of_decide_eq_true htype⟩

theorem given_group (h : g ∈ grouped sameSeries (ops.filter (·.type = type))) :
    g.members.map Operation.value = given ops g.first := by
  rw [members_group h, given, List.filter_filter]
  refine congrArg _ (List.filter_congr fun op _ => ?_)
  -- the operations on a series are of one type
  unfold sameSeries
  rw [(first_group h).2]
  by_cases hop : op.type = type
  · simp [hop]
  · simp [hop, Ne.symm hop]

end

/-- **A map holds what comes of the operations on each series**, under the keys of the first. -/
theorem Updated.entries {ν : Type} {map : PrometheusMetricsCollector → OrderedMap String ν}
    {type : MetricType} {update : Option ν → Operation → ν} (h : Updated host map type update)
    (hempty : map (new options) = .empty) (hapart : KeysApart host ops) :
    (map (Transition.run (perform host) (new options) ops)).entries =
      (grouped sameSeries (ops.filter (·.type = type))).map
        fun g => (g.first.key host, g.total update) := by
  rw [h.run, hempty]
  refine entries_gather fun a ha b hb => ?_
  obtain ⟨ha, hatype⟩ := List.mem_filter.mp ha
  obtain ⟨hb, hbtype⟩ := List.mem_filter.mp hb
  exact hapart a ha b hb ((of_decide_eq_true hatype).trans (of_decide_eq_true hbtype).symm)

/-! ## What comes of a series -/

theorem total_updateCounter (g : Group Operation) :
    (g.total updateCounter).value =
      (g.later.map Operation.value).foldl Number.add g.first.value := by
  have hrun : ∀ (ops : List Operation) (current : MetricValue),
      (ops.foldl (fun v op => updateCounter (some v) op) current).value =
        (ops.map Operation.value).foldl Number.add current.value := by
    intro ops
    induction ops with
    | nil => exact fun _ => rfl
    | cons op ops ih => exact fun current => ih _
  exact hrun g.later _

theorem total_updateGauge (g : Group Operation) :
    some (g.total updateGauge).value = (g.members.map Operation.value).getLast? := by
  have hrun : ∀ (ops : List Operation) (current : MetricValue),
      some (ops.foldl (fun v op => updateGauge (some v) op) current).value =
        (current.value :: ops.map Operation.value).getLast? := by
    intro ops
    induction ops with
    | nil => exact fun _ => rfl
    | cons op ops ih =>
        intro current
        rw [List.map_cons, List.getLast?_cons_cons]
        exact ih _
  exact hrun g.later _

theorem total_updateValues (g : Group Operation) :
    (g.total updateValues).values = g.members.map Operation.value := by
  have hrun : ∀ (ops : List Operation) (current : MetricValues),
      (ops.foldl (fun v op => updateValues (some v) op) current).values =
        current.values ++ ops.map Operation.value := by
    intro ops
    induction ops with
    | nil => exact fun current => (List.append_nil _).symm
    | cons op ops ih =>
        intro current
        rw [List.foldl_cons, ih, List.map_cons]
        exact List.append_assoc _ _ _
  exact hrun g.later _

end PrometheusMetricsCollector

end MapProtocol.Sdk.TypeScript
