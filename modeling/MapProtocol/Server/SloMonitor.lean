import MapProtocol.Js.Json
import MapProtocol.Lib.Quantile
import MapProtocol.Server.Alerts
import Mathlib.Algebra.BigOperators.Group.List.Basic
import Mathlib.Tactic.Linarith

/-!
# The service level objectives

`SLOMonitor` counts what is recorded for each objective and derives its error budget on demand. An
objective on latency is judged by the 95th percentile of its last samples. The objectives on rates
share one formula, which takes the target for the rate of what goes well: the objective on dead
letters, whose target is a rate of failures, is critical too late (`status_follows_iff`).
-/

namespace MapProtocol

open Js

structure SLO where
  name     : String
  target   : Rat
  window   : String
  critical : Rat
  deriving DecidableEq, Repr

inductive BudgetStatus where
  | ok
  | warning
  | critical
  deriving DecidableEq, Repr

def BudgetStatus.text : BudgetStatus → String
  | .ok       => "ok"
  | .warning  => "warning"
  | .critical => "critical"

structure ErrorBudget where
  name      : String
  remaining : Rat
  total     : Rat
  percent   : Rat
  status    : BudgetStatus
  deriving DecidableEq, Repr

structure SLOTracker where
  slo            : SLO
  totalRequests  : Nat
  failures       : Rat
  latencySamples : List Rat
  deriving DecidableEq, Repr

/-- `this.slos`. -/
abbrev SLOMonitor := OrderedMap String SLOTracker

/-! ## Recording -/

/-- What `splice` leaves of the samples. -/
def lastSamples (samples : List Rat) : List Rat := samples.drop (samples.length - 10000)

def isLatency (name : String) : Bool := includes name "latency"

namespace SLOTracker

def record (name : String) (value : Rat) (tracker : SLOTracker) : SLOTracker :=
  if isLatency name then
    { tracker with latencySamples := lastSamples (tracker.latencySamples ++ [value]) }
  else
    { tracker with
      totalRequests := tracker.totalRequests + 1
      failures := if 0 < value then tracker.failures + value else tracker.failures }

/-! ## Budgets -/

def computeRateBudget (tracker : SLOTracker) : ErrorBudget :=
  let totalBudget := (1 - tracker.slo.target) * (max tracker.totalRequests 1 : Nat)
  let remaining := totalBudget - tracker.failures
  let percent := if 0 < totalBudget then remaining / totalBudget * 100 else 100
  { name      := tracker.slo.name
    remaining := remaining
    total     := totalBudget
    percent   := percent
    status    := if remaining < 0 then .critical else if percent < 50 then .warning else .ok }

/-- The place of the 95th percentile among `n` samples in order. -/
def p95Index (n : Nat) : Nat := min (n - 1) (⌈(95 / 100 : Rat) * n⌉ - 1).toNat

def computeLatencyBudget (tracker : SLOTracker) : ErrorBudget :=
  let sorted := ascending tracker.latencySamples
  match sorted[p95Index sorted.length]? with
  | none     => ⟨tracker.slo.name, 1, 1, 100, .ok⟩
  | some p95 =>
      let totalBudget := tracker.slo.target
      let remaining := tracker.slo.target - p95
      let percent := max 0 (remaining / totalBudget * 100)
      { name      := tracker.slo.name
        remaining := remaining
        total     := totalBudget
        percent   := percent
        status    :=
          if tracker.slo.critical < p95 then .critical else if percent < 50 then .warning else .ok }

def errorBudget (name : String) (tracker : SLOTracker) : ErrorBudget :=
  if isLatency name then tracker.computeLatencyBudget else tracker.computeRateBudget

end SLOTracker

/-! ## Alerts -/

structure SLOAlert where
  id                     : String
  code                   : String
  severity               : AlertSeverity
  message                : String
  recommendedAction      : String
  sloName                : String
  budgetRemainingPercent : Rat
  deriving DecidableEq, Repr

/-- `n.toFixed(1)`. -/
def toFixed1 (n : Rat) : String :=
  let magnitude := if n < 0 then -n else n
  if 10 ^ 21 ≤ magnitude then numberToString n
  else
    let scaled := (magnitude * 10 + 1 / 2).floor.toNat
    (if n < 0 then "-" else "") ++ toString (scaled / 10) ++ "." ++ toString (scaled % 10)

/-- `name.replace(/\./g, "_")`. -/
def underscored (name : String) : String :=
  String.ofList (name.toList.map fun c => if c = '.' then '_' else c)

/-- The alert for a budget that is not `ok`. -/
def sloAlert (name : String) (budget : ErrorBudget) : Option SLOAlert :=
  let alert (severity : AlertSeverity) (recommendedAction : String) : SLOAlert :=
    { id                     := "alert:slo:" ++ underscored name
      code                   := "slo_budget_" ++ budget.status.text
      severity               := severity
      message                := "SLO \"" ++ name ++ "\" error budget is at " ++ toFixed1 budget.percent ++
        "% (" ++ budget.status.text ++ ")."
      recommendedAction      := recommendedAction
      sloName                := name
      budgetRemainingPercent := budget.percent }
  match budget.status with
  | .ok       => none
  | .critical => some (alert .critical ("Investigate immediately: " ++ name ++
      " SLO is in breach. Review recent failures and latency issues."))
  | .warning  => some (alert .warning ("Monitor closely: " ++ name ++
      " error budget is running low. Consider slowing feature velocity."))

theorem id_of_sloAlert {name : String} {budget : ErrorBudget} {alert : SLOAlert}
    (h : sloAlert name budget = some alert) : alert.id = "alert:slo:" ++ underscored name := by
  unfold sloAlert at h
  cases hstatus : budget.status <;> rw [hstatus] at h <;> cases h <;> rfl

namespace SLOMonitor

def fresh : SLOMonitor :=
  ((OrderedMap.empty.set "dispatch.success_rate"
    ⟨⟨"dispatch.success_rate", 999 / 1000, "30d", 99 / 100⟩, 0, 0, []⟩).set "dispatch.latency_p95_ms"
    ⟨⟨"dispatch.latency_p95_ms", 500, "30d", 1000⟩, 0, 0, []⟩).set "async_queue.dead_letter_rate"
    ⟨⟨"async_queue.dead_letter_rate", 1 / 100, "30d", 5 / 100⟩, 0, 0, []⟩

def recordMetric (name : String) (value : Rat) (monitor : SLOMonitor) : SLOMonitor :=
  match monitor.get name with
  | none         => monitor
  | some tracker => monitor.set name (tracker.record name value)

def getErrorBudget (name : String) (monitor : SLOMonitor) : Option ErrorBudget :=
  (monitor.get name).map (SLOTracker.errorBudget name)

def checkAlerts (monitor : SLOMonitor) : List SLOAlert :=
  monitor.entries.filterMap fun e => (monitor.getErrorBudget e.1).bind (sloAlert e.1)

/-- The monitor after the metrics of a history have been recorded. -/
def after (history : List (String × Rat)) : SLOMonitor :=
  history.foldl (fun monitor metric => monitor.recordMetric metric.1 metric.2) fresh

end SLOMonitor

/-! ## What a history says -/

/-- The values recorded for an objective, in order. -/
def recorded (history : List (String × Rat)) (name : String) : List Rat :=
  history.filterMap fun metric => if metric.1 = name then some metric.2 else none

/-- The failures recorded for an objective on a rate. -/
def failuresOf (history : List (String × Rat)) (name : String) : Rat :=
  ((recorded history name).filter fun value => 0 < value).sum

def requestsOf (history : List (String × Rat)) (name : String) : Nat := (recorded history name).length

/-- Failures over requests. -/
def observedRate (history : List (String × Rat)) (name : String) : Rat :=
  failuresOf history name / requestsOf history name

/-- The latency samples that are retained. -/
def retained (history : List (String × Rat)) (name : String) : List Rat :=
  lastSamples (recorded history name)

theorem recorded_append (history : List (String × Rat)) (name : String) (metric : String × Rat) :
    recorded (history ++ [metric]) name =
      recorded history name ++ if metric.1 = name then [metric.2] else [] := by
  unfold recorded
  rw [List.filterMap_append]
  congr 1
  by_cases h : metric.1 = name <;> simp [h]

theorem lastSamples_append (samples : List Rat) (value : Rat) :
    lastSamples (lastSamples samples ++ [value]) = lastSamples (samples ++ [value]) := by
  unfold lastSamples
  generalize 10000 = size
  have hdrop : samples.drop (samples.length - size) ++ [value] =
      (samples ++ [value]).drop (samples.length - size) :=
    (List.drop_append_of_le_length (Nat.sub_le _ _)).symm
  have hplace : samples.length - size + ((samples ++ [value]).length - (samples.length - size) - size) =
      (samples ++ [value]).length - size := by
    rw [List.length_append, List.length_singleton]
    omega
  rw [hdrop, List.drop_drop, List.length_drop, hplace]

@[simp] theorem lastSamples_nil : lastSamples [] = [] := List.drop_nil

/-- The tracker of an objective once a history has been recorded. -/
def trackerAfter (history : List (String × Rat)) (name : String) (slo : SLO) : SLOTracker :=
  if isLatency name then ⟨slo, 0, 0, retained history name⟩
  else ⟨slo, requestsOf history name, failuresOf history name, []⟩

theorem record_trackerAfter (history : List (String × Rat)) (name : String) (slo : SLO) (value : Rat) :
    (trackerAfter history name slo).record name value =
      trackerAfter (history ++ [(name, value)]) name slo := by
  have hrecorded := recorded_append history name (name, value)
  rw [if_pos rfl] at hrecorded
  unfold SLOTracker.record trackerAfter retained requestsOf failuresOf
  rw [hrecorded]
  by_cases hlatency : isLatency name
  · simp [hlatency, lastSamples_append]
  · by_cases hvalue : 0 < value
    · simp [hlatency, hvalue]
    · simp [hlatency, hvalue]

theorem trackerAfter_of_ne (history : List (String × Rat)) {name other : String} (slo : SLO)
    (value : Rat) (h : other ≠ name) :
    trackerAfter (history ++ [(other, value)]) name slo = trackerAfter history name slo := by
  have hrecorded := recorded_append history name (other, value)
  rw [if_neg h, List.append_nil] at hrecorded
  unfold trackerAfter retained requestsOf failuresOf
  rw [hrecorded]

namespace SLOMonitor

/-- **The trackers follow the history**: an objective that is tracked at the start is tracked with what
has been recorded for it. -/
theorem get_after (history : List (String × Rat)) {name : String} {slo : SLO}
    (h : fresh.get name = some ⟨slo, 0, 0, []⟩) :
    (after history).get name = some (trackerAfter history name slo) := by
  induction history using List.reverseRecOn with
  | nil =>
      show fresh.get name = _
      rw [h]
      simp [trackerAfter, retained, requestsOf, failuresOf, recorded]
  | append_singleton history metric ih =>
      obtain ⟨other, value⟩ := metric
      have hstep : after (history ++ [(other, value)]) = (after history).recordMetric other value := by
        simp [after]
      rw [hstep]
      unfold recordMetric
      by_cases hname : other = name
      · subst hname
        rw [ih]
        exact (OrderedMap.get_set_self _ _ _).trans (congrArg some (record_trackerAfter _ _ _ _))
      · rw [trackerAfter_of_ne history slo value hname]
        split
        · exact ih
        · rw [OrderedMap.get_set_ne _ hname]
          exact ih

theorem keys_after (history : List (String × Rat)) :
    (after history).entries.map Prod.fst = fresh.entries.map Prod.fst := by
  induction history using List.reverseRecOn with
  | nil => rfl
  | append_singleton history metric ih =>
      have hstep : after (history ++ [metric]) = (after history).recordMetric metric.1 metric.2 := by
        simp [after]
      rw [hstep]
      unfold recordMetric
      split
      · exact ih
      · rename_i tracker htracker
        have hkey : metric.1 ∈ (after history).entries.map Prod.fst :=
          OrderedMap.isSome_get_iff.mp (by rw [htracker]; rfl)
        exact (OrderedMap.keys_setEntries _ _ _).trans ((if_pos hkey).trans ih)

theorem getErrorBudget_after (history : List (String × Rat)) {name : String} {slo : SLO}
    (h : fresh.get name = some ⟨slo, 0, 0, []⟩) :
    (after history).getErrorBudget name = some ((trackerAfter history name slo).errorBudget name) := by
  rw [getErrorBudget, get_after history h]
  rfl

end SLOMonitor

/-! ## What a budget says -/

namespace SLOTracker

theorem status_computeRateBudget (tracker : SLOTracker) (h : tracker.slo.target < 1) :
    tracker.computeRateBudget.status =
      let total := (1 - tracker.slo.target) * (max tracker.totalRequests 1 : Nat)
      if total < tracker.failures then .critical
      else if total / 2 < tracker.failures then .warning else .ok := by
  have htotal : 0 < (1 - tracker.slo.target) * (max tracker.totalRequests 1 : Nat) := by
    have hmax : (0 : Rat) < (max tracker.totalRequests 1 : Nat) := by
      exact_mod_cast Nat.lt_of_lt_of_le Nat.zero_lt_one (Nat.le_max_right _ _)
    exact mul_pos (by linarith) hmax
  unfold computeRateBudget
  simp only [if_pos htotal]
  generalize (1 - tracker.slo.target) * (max tracker.totalRequests 1 : Nat) = total at htotal
  have hcritical : total - tracker.failures < 0 ↔ total < tracker.failures := sub_neg
  have hwarning : (total - tracker.failures) / total * 100 < 50 ↔ total / 2 < tracker.failures := by
    rw [div_mul_eq_mul_div, div_lt_iff₀ htotal]
    constructor <;> intro h <;> linarith
  simp only [hcritical, hwarning]

/-- What at least 95% of the samples do not exceed. -/
def CoversP95 (samples : List Rat) (x : Rat) : Prop :=
  x ∈ samples ∧ 95 / 100 * (samples.length : Rat) ≤ samples.countP (· ≤ x)

/-- The percentile that an objective on latency is judged by. -/
theorem computeLatencyBudget_of_samples (tracker : SLOTracker) (h : 0 < tracker.slo.target)
    (hsamples : tracker.latencySamples ≠ []) :
    ∃ p95, IsLeast {x | CoversP95 tracker.latencySamples x} p95 ∧
      tracker.computeLatencyBudget.remaining = tracker.slo.target - p95 ∧
      tracker.computeLatencyBudget.status =
        if tracker.slo.critical < p95 then .critical
        else if tracker.slo.target / 2 < p95 then .warning else .ok := by
  have hlength : 0 < tracker.latencySamples.length := List.length_pos_iff.mpr hsamples
  have hpos : (0 : Rat) < 95 / 100 * (tracker.latencySamples.length : Rat) := by positivity
  -- the index is below the length, so `Math.min` changes nothing
  have hplace : p95Index tracker.latencySamples.length =
      (⌈95 / 100 * (tracker.latencySamples.length : Rat)⌉ - 1).toNat := by
    have hlast : (⌈95 / 100 * (tracker.latencySamples.length : Rat)⌉ - 1).toNat <
        tracker.latencySamples.length := by
      rw [ceil_pred_lt_iff hpos]
      have : (0 : Rat) ≤ tracker.latencySamples.length := by positivity
      linarith
    unfold p95Index
    omega
  have hrange : p95Index tracker.latencySamples.length < (ascending tracker.latencySamples).length := by
    rw [length_ascending]
    unfold p95Index
    omega
  have hget := List.getElem?_eq_getElem hrange
  generalize (ascending tracker.latencySamples)[p95Index tracker.latencySamples.length] = p95 at hget
  have hleast := isLeast_of_getElem?_ascending hget
  rw [hplace] at hleast
  simp only [ceil_pred_lt_iff hpos] at hleast
  refine ⟨p95, hleast, ?_⟩
  unfold computeLatencyBudget
  simp only [length_ascending, hget]
  -- less than half of the budget is left
  have hwarning : max 0 ((tracker.slo.target - p95) / tracker.slo.target * 100) < 50 ↔
      tracker.slo.target / 2 < p95 := by
    rw [max_lt_iff, and_iff_right (by norm_num), div_mul_eq_mul_div, div_lt_iff₀ h]
    constructor <;> intro h <;> linarith
  simp only [hwarning, and_self]

theorem computeLatencyBudget_of_nil (tracker : SLOTracker) (h : tracker.latencySamples = []) :
    tracker.computeLatencyBudget = ⟨tracker.slo.name, 1, 1, 100, .ok⟩ := by
  unfold computeLatencyBudget
  rw [h]
  simp [ascending]

end SLOTracker

/-! ## Statuses over a history -/

theorem lt_failuresOf_iff (history : List (String × Rat)) (name : String) (share : Rat) :
    share * (max (requestsOf history name) 1 : Nat) < failuresOf history name ↔
      share < observedRate history name := by
  unfold observedRate
  rcases Nat.eq_zero_or_pos (requestsOf history name) with hzero | hpos
  · have hnone : failuresOf history name = 0 := by
      unfold failuresOf
      rw [List.length_eq_zero_iff.mp hzero]
      rfl
    simp [hzero, hnone]
  · rw [Nat.max_eq_left hpos, lt_div_iff₀ (by exact_mod_cast hpos)]

/-- A budget is critical past the threshold, and `ok` where there is enough of it left. -/
def Judged (budget : ErrorBudget) (past enough : Prop) : Prop :=
  (past → budget.status = .critical) ∧ (enough → budget.status = .ok)

/-- The statuses after a history are those that the objectives are meant to have. Half of the budget
for dead letters is left by the budget of a rate of failures, or by that of a rate of successes. -/
structure StatusFollows (history : List (String × Rat)) : Prop where
  success     : ∃ budget,
    (SLOMonitor.after history).getErrorBudget "dispatch.success_rate" = some budget ∧
    Judged budget (1 - observedRate history "dispatch.success_rate" < 99 / 100)
      (999 / 1000 ≤ 1 - observedRate history "dispatch.success_rate" ∧
        failuresOf history "dispatch.success_rate" ≤
          (1 - 999 / 1000) * requestsOf history "dispatch.success_rate" / 2)
  latency     : ∃ budget,
    (SLOMonitor.after history).getErrorBudget "dispatch.latency_p95_ms" = some budget ∧
    (retained history "dispatch.latency_p95_ms" = [] → budget.status = .ok) ∧
    (retained history "dispatch.latency_p95_ms" ≠ [] → ∃ p95,
      IsLeast {x | SLOTracker.CoversP95 (retained history "dispatch.latency_p95_ms") x} p95 ∧
      budget.remaining = 500 - p95 ∧ Judged budget (1000 < p95) (p95 ≤ 500 ∧ 500 / 2 ≤ 500 - p95))
  deadLetters : ∃ budget,
    (SLOMonitor.after history).getErrorBudget "async_queue.dead_letter_rate" = some budget ∧
    Judged budget (5 / 100 < observedRate history "async_queue.dead_letter_rate")
      (observedRate history "async_queue.dead_letter_rate" ≤ 1 / 100 ∧
        (failuresOf history "async_queue.dead_letter_rate" ≤
            1 / 100 * requestsOf history "async_queue.dead_letter_rate" / 2 ∨
          failuresOf history "async_queue.dead_letter_rate" ≤
            (1 - 1 / 100) * requestsOf history "async_queue.dead_letter_rate" / 2))

/-- The status of an objective on a rate after a history. -/
theorem status_rate (history : List (String × Rat)) {name : String} {slo : SLO}
    (hname : isLatency name = false) (htarget : slo.target < 1) :
    ((trackerAfter history name slo).errorBudget name).status =
      if 1 - slo.target < observedRate history name then .critical
      else if (1 - slo.target) * (max (requestsOf history name) 1 : Nat) / 2 < failuresOf history name then
        .warning
      else .ok := by
  have htracker : trackerAfter history name slo =
      ⟨slo, requestsOf history name, failuresOf history name, []⟩ := by
    simp [trackerAfter, hname]
  rw [htracker, SLOTracker.errorBudget, if_neg (by simp [hname]),
    SLOTracker.status_computeRateBudget _ htarget]
  simp only [lt_failuresOf_iff]

theorem half_budget_le (history : List (String × Rat)) (name : String) {share target : Rat}
    (hshare : share ≤ 1 - target) (htarget : target < 1)
    (h : failuresOf history name ≤ share * requestsOf history name / 2) :
    ¬ (1 - target) * (max (requestsOf history name) 1 : Nat) / 2 < failuresOf history name := by
  have hmax : (requestsOf history name : Rat) ≤ (max (requestsOf history name) 1 : Nat) := by
    exact_mod_cast Nat.le_max_left _ _
  have hrequests : (0 : Rat) ≤ requestsOf history name := Nat.cast_nonneg _
  have hscaled : share * requestsOf history name ≤ (1 - target) * (max (requestsOf history name) 1 : Nat) :=
    (mul_le_mul_of_nonneg_right hshare hrequests).trans
      (mul_le_mul_of_nonneg_left hmax (by linarith))
  rw [not_lt]
  linarith

theorem success_follows (history : List (String × Rat)) : ∃ budget,
    (SLOMonitor.after history).getErrorBudget "dispatch.success_rate" = some budget ∧
    Judged budget (1 - observedRate history "dispatch.success_rate" < 99 / 100)
      (999 / 1000 ≤ 1 - observedRate history "dispatch.success_rate" ∧
        failuresOf history "dispatch.success_rate" ≤
          (1 - 999 / 1000) * requestsOf history "dispatch.success_rate" / 2) := by
  refine ⟨_, SLOMonitor.getErrorBudget_after history rfl, ?_⟩
  unfold Judged
  rw [status_rate history (by decide) (by norm_num)]
  constructor
  · intro hpast
    rw [if_pos (by linarith)]
  · rintro ⟨hmeets, hhalf⟩
    rw [if_neg (by linarith), if_neg (half_budget_le history _ le_rfl (by norm_num) hhalf)]

theorem latency_follows (history : List (String × Rat)) : ∃ budget,
    (SLOMonitor.after history).getErrorBudget "dispatch.latency_p95_ms" = some budget ∧
    (retained history "dispatch.latency_p95_ms" = [] → budget.status = .ok) ∧
    (retained history "dispatch.latency_p95_ms" ≠ [] → ∃ p95,
      IsLeast {x | SLOTracker.CoversP95 (retained history "dispatch.latency_p95_ms") x} p95 ∧
      budget.remaining = 500 - p95 ∧
      Judged budget (1000 < p95) (p95 ≤ 500 ∧ 500 / 2 ≤ 500 - p95)) := by
  refine ⟨_, SLOMonitor.getErrorBudget_after history rfl, ?_⟩
  have hlatency : isLatency "dispatch.latency_p95_ms" = true := by decide
  rw [SLOTracker.errorBudget, if_pos hlatency]
  rw [trackerAfter, if_pos hlatency]
  generalize retained history "dispatch.latency_p95_ms" = samples
  generalize htracker : SLOTracker.mk ⟨"dispatch.latency_p95_ms", 500, "30d", 1000⟩ 0 0 samples = tracker
  have hsamples : tracker.latencySamples = samples := by rw [← htracker]
  have htarget : tracker.slo.target = 500 := by rw [← htracker]
  have hcritical : tracker.slo.critical = 1000 := by rw [← htracker]
  rw [← hsamples]
  constructor
  · intro hnone
    rw [SLOTracker.computeLatencyBudget_of_nil tracker hnone]
  · intro hsome
    obtain ⟨p95, hleast, hremaining, hstatus⟩ :=
      SLOTracker.computeLatencyBudget_of_samples tracker (by rw [htarget]; norm_num) hsome
    rw [htarget] at hremaining hstatus
    rw [hcritical] at hstatus
    refine ⟨p95, hleast, hremaining, ?_⟩
    unfold Judged
    rw [hstatus]
    constructor
    · intro hpast
      exact if_pos hpast
    · rintro ⟨_, hhalf⟩
      rw [if_neg (by linarith), if_neg (by linarith)]

/-- **When the statuses follow**: the objectives on successes and on latency always do; the one on dead
letters does but for a rate past its threshold and up to 99%. -/
theorem status_follows_iff (history : List (String × Rat)) :
    StatusFollows history ↔
      ¬ (5 / 100 < observedRate history "async_queue.dead_letter_rate" ∧
        observedRate history "async_queue.dead_letter_rate" ≤ 99 / 100) := by
  have hbudget := @SLOMonitor.getErrorBudget_after history "async_queue.dead_letter_rate" _ rfl
  have hstatus := @status_rate history "async_queue.dead_letter_rate"
    ⟨"async_queue.dead_letter_rate", 1 / 100, "30d", 5 / 100⟩ (by decide) (by norm_num)
  constructor
  · rintro h ⟨hpast, hlate⟩
    obtain ⟨budget, hget, hcritical, _⟩ := h.deadLetters
    obtain rfl := Option.some.inj (hbudget.symm.trans hget)
    have hstays := hcritical hpast
    rw [hstatus, if_neg (by norm_num; exact hlate)] at hstays
    split at hstays <;> cases hstays
  · intro h
    refine ⟨success_follows history, latency_follows history, _, hbudget, ?_⟩
    unfold Judged
    rw [hstatus]
    constructor
    · intro hpast
      rw [if_pos]
      by_contra hlate
      exact h ⟨hpast, by norm_num at hlate; exact hlate⟩
    · rintro ⟨hmeets, hhalf⟩
      have hless : ¬ (1 - 1 / 100 : Rat) < observedRate history "async_queue.dead_letter_rate" := by
        rw [not_lt]
        linarith
      rw [if_neg hless, if_neg]
      rcases hhalf with hhalf | hhalf
      · exact half_budget_le history _ (by norm_num) (by norm_num) hhalf
      · exact half_budget_le history _ le_rfl (by norm_num) hhalf

/-- A fifth of the queue is dead letters, four times the threshold, and no alert is due. -/
theorem dead_letters_unnoticed : ¬ StatusFollows [("async_queue.dead_letter_rate", 1 / 5)] := by
  intro h
  obtain ⟨budget, hget, hcritical, _⟩ := h.deadLetters
  have hpast : 5 / 100 < observedRate [("async_queue.dead_letter_rate", 1 / 5)]
      "async_queue.dead_letter_rate" := by decide +kernel
  have hbudget : (SLOMonitor.after [("async_queue.dead_letter_rate", 1 / 5)]).getErrorBudget
      "async_queue.dead_letter_rate" =
      some ⟨"async_queue.dead_letter_rate", 79 / 100, 99 / 100, 7900 / 99, .ok⟩ := by decide +kernel
  obtain rfl := Option.some.inj (hbudget.symm.trans hget)
  exact absurd (hcritical hpast) (by decide)

end MapProtocol
