import MapProtocol.Server.Alerts
import MapProtocol.Server.SigningAnomalies
import MapProtocol.Server.SloMonitor

/-!
# The scopes of the alerts

`getActiveAlerts` is asked for the alerts of the whole server or for those of a tenant. The records of
all scopes share one map; an alert's id is that of its cause with the scope behind it, which is the
name of the tenant or the word `global`. A tenant called `global` shares the records of the server;
all others are kept apart (`scopes_separate`).
-/

namespace MapProtocol

open Js

/-! ## Candidates -/

/-- What the service is configured with, and what its callbacks return in a call. -/
structure AlertDeps where
  deadLetterCount                : Nat
  oldestDeadLetterAgeMs          : Option Rat
  failureRateWindow              : Rat
  listDeadLettersByTenant        : String → List String
  listReceiptsByTenant           : Option String → List ExecutionReceipt
  listRegistryDescriptors        : List Wire.Record
  getAuditCheckpoints            : List AuditCheckpoint
  collectSigningAnomalies        : SigningKeyUsage → SigningAnomalies
  healthMaxDeadLetters           : Option Rat
  healthMaxOldestDeadLetterAgeMs : Option Rat
  metricsFailureRateThreshold    : Option Rat
  getSLOAlerts                   : List AlertCandidate

/-- The tenant that is asked for; an empty id counts as none. -/
def scopeOf (tenantId : Option String) : Option String := tenantId.filter fun t => t ≠ ""

/-- What stands for the scope in an id. -/
def scopeName : Option String → String
  | none   => "global"
  | some t => t

def scopeSuffix (tenantId : Option String) : String := ":" ++ scopeName (scopeOf tenantId)

/-- `value > threshold`, where there is a threshold. -/
def exceeds (threshold : Option Rat) (value : Rat) : Bool := threshold.any fun t => decide (t < value)

/-- A candidate of the scope for one of the causes that the service knows itself. -/
def signalCandidate (tenantId : Option String) (source : AlertSource) (cause code : String)
    (severity : AlertSeverity) (message recommendedAction : String) : AlertCandidate where
  id                     := cause ++ scopeSuffix tenantId
  source                 := source
  code                   := code
  severity               := severity
  message                := message
  recommendedAction      := recommendedAction
  tenantId               := scopeOf tenantId
  sloName                := none
  budgetRemainingPercent := none

/-- A candidate that the service levels give, as one of the scope. -/
def scopedCandidate (tenantId : Option String) (alert : AlertCandidate) : AlertCandidate :=
  { alert with
    id := alert.id ++ scopeSuffix tenantId
    tenantId := (scopeOf tenantId).orElse fun _ => alert.tenantId }

def AlertDeps.computeAlertCandidates (deps : AlertDeps) (tenantId : Option String) :
    List AlertCandidate :=
  let deadLetterCount := match scopeOf tenantId with
    | some t => (deps.listDeadLettersByTenant t).length
    | none   => deps.deadLetterCount
  let signingAnomalies := deps.collectSigningAnomalies (collectSigningKeyUsage
    { descriptors := deps.listRegistryDescriptors
      receipts    := deps.listReceiptsByTenant (scopeOf tenantId)
      checkpoints := deps.getAuditCheckpoints })
  let severityIf (exceeded : Bool) : AlertSeverity := if exceeded then .critical else .warning
  (if exceeds deps.healthMaxDeadLetters deadLetterCount then
    [signalCandidate tenantId .queue "alert:queue:dead_letter_count_exceeded"
      "dead_letter_count_exceeded" .warning "Dead-letter count exceeded configured threshold."
      "Inspect dead letters and remediate recurring execution failures."] else []) ++
  (if deps.oldestDeadLetterAgeMs.any (exceeds deps.healthMaxOldestDeadLetterAgeMs) then
    [signalCandidate tenantId .queue "alert:queue:oldest_dead_letter_age_exceeded"
      "oldest_dead_letter_age_exceeded" .warning
      "Oldest dead-letter age exceeded configured threshold."
      "Investigate stalled failures and clear or replay dead-letter tasks."] else []) ++
  (if exceeds deps.metricsFailureRateThreshold deps.failureRateWindow then
    [signalCandidate tenantId .requests "alert:requests:failure_rate_exceeded"
      "request_failure_rate_exceeded" .warning
      "Request failure rate exceeded configured threshold."
      "Check recent errors and mitigate root causes before traffic impact grows."] else []) ++
  (if signingAnomalies.unknownKeyUsageDetected then
    [signalCandidate tenantId .signing "alert:signing:unknown_key_usage" "unknown_key_usage_detected"
      (severityIf signingAnomalies.unknownKeyRatioExceeded) "Unknown signing key usage was detected."
      signingAnomalies.recommendedAction] else []) ++
  (if signingAnomalies.retiringKeyUsageDetected then
    [signalCandidate tenantId .signing "alert:signing:retiring_key_usage"
      "retiring_key_usage_detected" (severityIf signingAnomalies.retiringKeyRatioExceeded)
      "Retiring signing key usage was detected." signingAnomalies.recommendedAction] else []) ++
  deps.getSLOAlerts.map (scopedCandidate tenantId)

/-- What the server gives for `getSLOAlerts`. -/
def SLOAlert.toCandidate (alert : SLOAlert) : AlertCandidate where
  id                     := alert.id
  source                 := .slo
  code                   := alert.code
  severity               := alert.severity
  message                := alert.message
  recommendedAction      := alert.recommendedAction
  tenantId               := none
  sloName                := some alert.sloName
  budgetRemainingPercent := some alert.budgetRemainingPercent

/-! ## Calls -/

inductive AlertCall where
  | getActiveAlerts (deps : AlertDeps) (tenantId : Option String) (now : Nat)
  | acknowledgeAlert (id actor : String) (now : Nat)
  | suppressAlert (id : String) (durationMs : Int) (actor : Option String) (now : Nat)

namespace AlertService

variable (parseDate : String → Option Int)

def step (state : AlertState) : AlertCall → AlertState
  | .getActiveAlerts deps tenantId now =>
      (state.getActiveAlerts parseDate (deps.computeAlertCandidates tenantId) tenantId now).1
  | .acknowledgeAlert id actor now          => state.acknowledgeAlert id actor now
  | .suppressAlert id durationMs actor now  => state.suppressAlert id durationMs actor now

def answer (scope : Option String) (state : AlertState) : AlertCall → Option (List AlertRecord)
  | .getActiveAlerts deps tenantId now =>
      if scopeOf tenantId = scope then
        some (state.getActiveAlerts parseDate (deps.computeAlertCandidates tenantId) tenantId now).2
      else none
  | _ => none

/-- The alerts that the calls return for a scope, answer by answer. -/
def answers (scope : Option String) (state : AlertState) : List AlertCall → List (List AlertRecord)
  | []            => []
  | call :: calls =>
      (answer parseDate scope state call).toList ++ answers scope (step parseDate state call) calls

/-- Is the call one of the scope? One that names an alert is, where the alert has been returned for
the scope. -/
def concerns (scope : Option String) (returned : List String) : AlertCall → Bool
  | .getActiveAlerts _ tenantId _ => scopeOf tenantId = scope
  | .acknowledgeAlert id _ _      => id ∈ returned
  | .suppressAlert id _ _ _       => id ∈ returned

def returnedIds (scope : Option String) (state : AlertState) (call : AlertCall) : List String :=
  (answer parseDate scope state call).elim [] fun alerts => alerts.map fun alert => alert.id

/-- The calls of a scope among the calls made. -/
def callsOf (scope : Option String) (returned : List String) (state : AlertState) :
    List AlertCall → List AlertCall
  | []            => []
  | call :: calls =>
      let rest := callsOf scope (returned ++ returnedIds parseDate scope state call)
        (step parseDate state call) calls
      if concerns scope returned call then call :: rest else rest

end AlertService

/-! ## Names

The scope of an alert can be read off its id. -/

/-- What follows the `n`th colon. -/
def afterColons : Nat → List Char → List Char
  | 0, cs          => cs
  | _ + 1, []      => []
  | n + 1, c :: cs => if c = ':' then afterColons n cs else afterColons (n + 1) cs

theorem afterColons_append (base rest : List Char) :
    afterColons (base.count ':' + 1) (base ++ ':' :: rest) = rest := by
  induction base with
  | nil => simp [afterColons]
  | cons c base ih =>
      by_cases hc : c = ':'
      · rw [List.cons_append, List.count_cons, if_pos (beq_iff_eq.mpr hc), afterColons, if_pos hc, ih]
      · rw [List.cons_append, List.count_cons, if_neg (mt beq_iff_eq.mp hc), afterColons, if_neg hc]
        exact ih

/-- The id is one of the scope: behind its third colon stands the name of it. No tenant is called
`global`. -/
def NamedFor (scope : Option String) (id : String) : Prop :=
  scope ≠ some "global" ∧ afterColons 3 id.toList = (scopeName scope).toList

theorem NamedFor.unique {scope other : Option String} {id : String} (h : NamedFor scope id)
    (h' : NamedFor other id) : scope = other := by
  have hname : scopeName scope = scopeName other := String.toList_inj.mp (h.2.symm.trans h'.2)
  cases scope with
  | none =>
      cases other with
      | none   => rfl
      | some t => exact absurd (congrArg some hname.symm) h'.1
  | some t =>
      cases other with
      | none    => exact absurd (congrArg some hname) h.1
      | some t' => exact congrArg some hname

theorem namedFor_append {tenantId : Option String} {cause : String}
    (hscope : tenantId ≠ some "global") (hcause : cause.toList.count ':' = 2) :
    NamedFor (scopeOf tenantId) (cause ++ scopeSuffix tenantId) := by
  constructor
  · intro h
    obtain ⟨heq, _⟩ := Option.filter_eq_some_iff.mp h
    exact hscope heq
  · have hchars : (cause ++ scopeSuffix tenantId).toList =
        cause.toList ++ ':' :: (scopeName (scopeOf tenantId)).toList := by
      simp [scopeSuffix]
    have hafter := afterColons_append cause.toList (scopeName (scopeOf tenantId)).toList
    rw [hcause] at hafter
    rw [hchars, hafter]

/-- No tenant is called `global`, and the service levels name their alerts with two colons and give
them no tenant. -/
def AlertCall.Separable : AlertCall → Prop
  | .getActiveAlerts deps tenantId _ =>
      tenantId ≠ some "global" ∧
        ∀ alert ∈ deps.getSLOAlerts, alert.tenantId = none ∧ alert.id.toList.count ':' = 2
  | _ => True

theorem toCandidate_separable (history : List (String × Rat)) :
    ∀ alert ∈ (SLOMonitor.after history).checkAlerts.map SLOAlert.toCandidate,
      alert.tenantId = none ∧ alert.id.toList.count ':' = 2 := by
  have hnames : ∀ name ∈ SLOMonitor.fresh.entries.map Prod.fst,
      ("alert:slo:" ++ underscored name).toList.count ':' = 2 := by decide
  intro alert halert
  obtain ⟨sloAlert, hslo, rfl⟩ := List.mem_map.mp halert
  obtain ⟨entry, hentry, hbudget⟩ := List.mem_filterMap.mp hslo
  obtain ⟨budget, _, halert⟩ := Option.bind_eq_some_iff.mp hbudget
  have hname : entry.1 ∈ SLOMonitor.fresh.entries.map Prod.fst :=
    SLOMonitor.keys_after history ▸ List.mem_map_of_mem hentry
  refine ⟨rfl, ?_⟩
  show sloAlert.id.toList.count ':' = 2
  rw [id_of_sloAlert halert]
  exact hnames _ hname

theorem computeAlertCandidates_named {deps : AlertDeps} {tenantId : Option String} {now : Nat}
    (h : (AlertCall.getActiveAlerts deps tenantId now).Separable) :
    ∀ candidate ∈ deps.computeAlertCandidates tenantId,
      candidate.tenantId = scopeOf tenantId ∧ NamedFor (scopeOf tenantId) candidate.id := by
  intro candidate hmem
  have hsignal : ∀ (exceeded : Bool) (source : AlertSource) (cause code : String)
      (severity : AlertSeverity) (message recommendedAction : String),
      cause.toList.count ':' = 2 →
      candidate ∈ (if exceeded then
        [signalCandidate tenantId source cause code severity message recommendedAction] else []) →
      candidate.tenantId = scopeOf tenantId ∧ NamedFor (scopeOf tenantId) candidate.id := by
    intro exceeded source cause code severity message recommendedAction hcause hmem
    cases exceeded with
    | false => cases hmem
    | true  =>
        obtain rfl := List.mem_singleton.mp hmem
        exact ⟨rfl, namedFor_append h.1 hcause⟩
  unfold AlertDeps.computeAlertCandidates at hmem
  simp only [List.mem_append] at hmem
  rcases hmem with ((((hmem | hmem) | hmem) | hmem) | hmem) | hmem
  · exact hsignal _ _ _ _ _ _ _ (by decide) hmem
  · exact hsignal _ _ _ _ _ _ _ (by decide) hmem
  · exact hsignal _ _ _ _ _ _ _ (by decide) hmem
  · exact hsignal _ _ _ _ _ _ _ (by decide) hmem
  · exact hsignal _ _ _ _ _ _ _ (by decide) hmem
  · obtain ⟨alert, halert, rfl⟩ := List.mem_map.mp hmem
    obtain ⟨htenant, hcolons⟩ := h.2 alert halert
    refine ⟨?_, namedFor_append h.1 hcolons⟩
    show (scopeOf tenantId).orElse (fun _ => alert.tenantId) = _
    rw [htenant]
    cases scopeOf tenantId <;> rfl

/-! ## Records of one scope -/

namespace AlertState

/-- Every record stands under its id, and is one of the scope that the id is of. -/
def Kept (state : AlertState) : Prop :=
  ∀ id alert, state.get id = some alert → alert.id = id ∧ NamedFor alert.tenantId id

def restrict (scope : Option String) (state : AlertState) : AlertState :=
  state.filter fun alert => alert.tenantId = scope

variable {state : AlertState} {scope other : Option String} {id : String} {alert : AlertRecord}

theorem Kept.tenantId_eq (h : Kept state) (hid : NamedFor other id)
    (hget : state.get id = some alert) : alert.tenantId = other := (h id alert hget).2.unique hid

theorem Kept.set (h : Kept state) (hid : alert.id = id) (hname : NamedFor alert.tenantId id) :
    Kept (state.set id alert) := by
  intro a u hu
  rw [OrderedMap.get_set] at hu
  split at hu
  · rename_i heq
    obtain rfl := Option.some.inj hu
    exact ⟨hid.trans heq, heq ▸ hname⟩
  · exact h a u hu

theorem Kept.get_restrict (h : Kept state) (hid : NamedFor scope id) :
    (restrict scope state).get id = state.get id := by
  rw [restrict, OrderedMap.get_filter]
  cases hget : state.get id with
  | none   => rfl
  | some u => exact Option.filter_some_pos (decide_eq_true (h.tenantId_eq hid hget))

/-- A record written is written to its scope, and to no other. -/
theorem Kept.restrict_set (h : Kept state) (hname : NamedFor alert.tenantId id) :
    restrict scope (state.set id alert) =
      if alert.tenantId = scope then (restrict scope state).set id alert else restrict scope state := by
  split
  · rename_i hscope
    refine OrderedMap.filter_set_of_pos (decide_eq_true hscope) fun u hu => ?_
    exact decide_eq_true ((h.tenantId_eq hname hu).trans hscope)
  · rename_i hscope
    refine OrderedMap.filter_set_of_neg (decide_eq_false hscope) fun u hu => ?_
    exact decide_eq_false fun hu' => hscope ((h.tenantId_eq hname hu).symm.trans hu')

/-! ## One round of each loop

Either loop of a reading rewrites one record at a time, in place. -/

/-- The record that a candidate makes of the one there is. -/
def recordSeen (nowIso : String) (candidate : AlertCandidate) : Option AlertRecord → AlertRecord
  | none          => ⟨candidate, nowIso, nowIso, none, none, none, none⟩
  | some existing =>
      { existing with toAlertCandidate := existing.overlay candidate, lastSeen := nowIso }

theorem seen_eq (nowIso : String) (state : AlertState) (candidate : AlertCandidate) :
    seen nowIso state candidate =
      state.set candidate.id (recordSeen nowIso candidate (state.get candidate.id)) := by
  unfold seen
  cases state.get candidate.id <;> rfl

theorem id_recordSeen (nowIso : String) (candidate : AlertCandidate) (existing : Option AlertRecord) :
    (recordSeen nowIso candidate existing).id = candidate.id := by
  cases existing <;> rfl

theorem Kept.tenantId_recordSeen (h : Kept state) (nowIso : String) {candidate : AlertCandidate}
    (hname : NamedFor candidate.tenantId candidate.id) :
    (recordSeen nowIso candidate (state.get candidate.id)).tenantId = candidate.tenantId := by
  cases hget : state.get candidate.id with
  | none          => rfl
  | some existing =>
      show candidate.tenantId.orElse (fun _ => existing.tenantId) = candidate.tenantId
      rw [h.tenantId_eq hname hget]
      cases candidate.tenantId <;> rfl

/-- A candidate is written to the records of its scope, and to no other. -/
theorem Kept.seen {nowIso : String} {candidate : AlertCandidate} (h : Kept state)
    (hname : NamedFor candidate.tenantId candidate.id) :
    Kept (seen nowIso state candidate) ∧
      restrict scope (AlertState.seen nowIso state candidate) =
        if candidate.tenantId = scope then AlertState.seen nowIso (restrict scope state) candidate
        else restrict scope state := by
  have htenant := h.tenantId_recordSeen nowIso hname
  have hname' := htenant.symm ▸ hname
  rw [seen_eq, seen_eq]
  refine ⟨h.set (id_recordSeen ..) hname', ?_⟩
  rw [h.restrict_set hname', htenant]
  split
  · rename_i hscope
    rw [h.get_restrict (hscope ▸ hname)]
  · rfl

theorem isSameScope_iff (tenantId : Option String) (existing : AlertRecord) :
    isSameScope tenantId existing = true ↔ existing.tenantId = scopeOf tenantId := by
  unfold isSameScope scopeOf
  cases tenantId.filter fun t => decide (t ≠ "") with
  | none   => simp
  | some t => simp

/-- The loop over the candidates of a scope. -/
theorem Kept.foldl_seen {nowIso : String} {candidates : List AlertCandidate} (h : Kept state)
    (hnames : ∀ c ∈ candidates, c.tenantId = other ∧ NamedFor other c.id) :
    Kept (candidates.foldl (AlertState.seen nowIso) state) ∧
      restrict scope (candidates.foldl (AlertState.seen nowIso) state) =
        if other = scope then candidates.foldl (AlertState.seen nowIso) (restrict scope state)
        else restrict scope state := by
  induction candidates generalizing state with
  | nil => exact ⟨h, (ite_self _).symm⟩
  | cons c candidates ih =>
      obtain ⟨⟨hlabel, hname⟩, hrest⟩ := List.forall_mem_cons.mp hnames
      obtain ⟨hkept, hseen⟩ := @Kept.seen state scope nowIso c h (hlabel ▸ hname)
      obtain ⟨hkept', hfold⟩ := ih hkept hrest
      rw [hlabel] at hseen
      refine ⟨hkept', ?_⟩
      rw [List.foldl_cons, List.foldl_cons, hfold, hseen]
      split <;> rfl

/-- A record is marked among those of the scope asked for, or not at all. -/
theorem Kept.marked {tenantId : Option String} {activeIds : List String} {nowIso : String}
    {e : String × AlertRecord} (h : Kept state) (hid : e.2.id = e.1)
    (hname : NamedFor e.2.tenantId e.1) :
    Kept (marked tenantId activeIds nowIso state e) ∧
      restrict scope (AlertState.marked tenantId activeIds nowIso state e) =
        if scopeOf tenantId = scope ∧ e.2.tenantId = scope then
          AlertState.marked tenantId activeIds nowIso (restrict scope state) e
        else restrict scope state := by
  unfold AlertState.marked
  by_cases hmark : isSameScope tenantId e.2 = true ∧ e.1 ∉ activeIds
  · have hlabel := (isSameScope_iff tenantId e.2).mp hmark.1
    have hset := @Kept.restrict_set state scope e.1 { e.2 with lastSeen := nowIso } h hname
    simp only [if_pos hmark]
    refine ⟨h.set hid hname, hset.trans ?_⟩
    simp only [hlabel, and_self]
  · simp only [if_neg hmark, ite_self]
    exact ⟨h, trivial⟩

/-- The loop over the records. -/
theorem Kept.foldl_marked {tenantId : Option String} {activeIds : List String} {nowIso : String}
    {entries : List (String × AlertRecord)} (h : Kept state)
    (hentries : ∀ e ∈ entries, e.2.id = e.1 ∧ NamedFor e.2.tenantId e.1) :
    Kept (entries.foldl (AlertState.marked tenantId activeIds nowIso) state) ∧
      restrict scope (entries.foldl (AlertState.marked tenantId activeIds nowIso) state) =
        if scopeOf tenantId = scope then
          (entries.filter fun e => e.2.tenantId = scope).foldl
            (AlertState.marked tenantId activeIds nowIso) (restrict scope state)
        else restrict scope state := by
  induction entries generalizing state with
  | nil => exact ⟨h, (ite_self _).symm⟩
  | cons e entries ih =>
      obtain ⟨⟨hid, hname⟩, hrest⟩ := List.forall_mem_cons.mp hentries
      obtain ⟨hkept, hmarked⟩ := @Kept.marked state scope tenantId activeIds nowIso e h hid hname
      obtain ⟨hkept', hfold⟩ := ih hkept hrest
      refine ⟨hkept', ?_⟩
      rw [List.foldl_cons, hfold, hmarked, List.filter_cons]
      by_cases hscope : scopeOf tenantId = scope
      · rw [if_pos hscope, if_pos hscope]
        by_cases hlabel : e.2.tenantId = scope
        · rw [if_pos ⟨hscope, hlabel⟩, if_pos (decide_eq_true hlabel), List.foldl_cons]
        · rw [if_neg fun hboth => hlabel hboth.2, if_neg (by simpa using hlabel)]
      · rw [if_neg hscope, if_neg hscope, if_neg fun hboth => hscope hboth.1]

/-! ## Readings

A reading is its two loops, and each keeps the scopes apart. -/

section Reading

variable {parseDate : String → Option Int} {candidates : List AlertCandidate}
  {tenantId : Option String} {now : Nat}

/-- **A reading** keeps the records apart: it does to those of its own scope what it would do to them
alone, and nothing to those of another. -/
theorem Kept.refresh {nowIso : String} (h : Kept state)
    (hnames : ∀ c ∈ candidates, c.tenantId = scopeOf tenantId ∧ NamedFor (scopeOf tenantId) c.id) :
    Kept (refresh candidates tenantId nowIso state) ∧
      restrict scope (AlertState.refresh candidates tenantId nowIso state) =
        if scopeOf tenantId = scope then
          AlertState.refresh candidates tenantId nowIso (restrict scope state)
        else restrict scope state := by
  obtain ⟨hseen, hfold⟩ := @Kept.foldl_seen state scope (scopeOf tenantId) nowIso candidates h hnames
  have hentries : ∀ e ∈ (candidates.foldl (AlertState.seen nowIso) state).entries,
      e.2.id = e.1 ∧ NamedFor e.2.tenantId e.1 :=
    fun e he => hseen e.1 e.2 (OrderedMap.get_eq_some.mpr he)
  obtain ⟨hkept, hmarked⟩ :=
    @Kept.foldl_marked _ scope tenantId (candidates.map (·.id)) nowIso _ hseen hentries
  refine ⟨hkept, hmarked.trans ?_⟩
  rw [hfold]
  by_cases hscope : scopeOf tenantId = scope
  · simp only [if_pos hscope] at hfold ⊢
    have hrecords : (candidates.foldl (AlertState.seen nowIso) state).entries.filter
        (fun e => e.2.tenantId = scope) =
          (candidates.foldl (AlertState.seen nowIso) (restrict scope state)).entries :=
      congrArg OrderedMap.entries hfold
    rw [hrecords]
    rfl
  · simp only [if_neg hscope]

theorem Kept.active_restrict (h : Kept state) (hnames : ∀ c ∈ candidates, NamedFor scope c.id) :
    active parseDate candidates now (restrict scope state) = active parseDate candidates now state := by
  unfold active restrict
  rw [OrderedMap.values_filter, List.filter_filter]
  congr 1
  refine List.filter_congr fun alert halert => ?_
  by_cases hactive : alert.id ∈ candidates.map (·.id)
  · obtain ⟨c, hc, hid⟩ := List.mem_map.mp hactive
    obtain ⟨key, hget⟩ := OrderedMap.mem_values.mp halert
    obtain ⟨hkey, hname⟩ := h key alert hget
    have hlabel : alert.tenantId = scope := (hkey ▸ hname).unique (hid ▸ hnames c hc)
    rw [decide_eq_true hlabel, Bool.and_true]
  · rw [decide_eq_false hactive, Bool.false_and, Bool.false_and]

/-- A reading gives a scope what it would give the records of the scope alone. -/
theorem Kept.getActiveAlerts (h : Kept state)
    (hnames : ∀ c ∈ candidates, c.tenantId = scopeOf tenantId ∧ NamedFor (scopeOf tenantId) c.id) :
    (restrict (scopeOf tenantId) state).getActiveAlerts parseDate candidates tenantId now =
      (restrict (scopeOf tenantId) (state.getActiveAlerts parseDate candidates tenantId now).1,
        (state.getActiveAlerts parseDate candidates tenantId now).2) := by
  obtain ⟨hkept, hrefresh⟩ := @Kept.refresh state (scopeOf tenantId) candidates tenantId
    (toISOString now) h hnames
  rw [if_pos rfl] at hrefresh
  unfold AlertState.getActiveAlerts
  simp only [← hrefresh]
  rw [hkept.active_restrict fun c hc => (hnames c hc).2]

theorem Kept.tenantId_of_active (h : Kept state) (hnames : ∀ c ∈ candidates, NamedFor scope c.id)
    (halert : alert ∈ active parseDate candidates now state) :
    alert.tenantId = scope ∧ (restrict scope state).get alert.id = some alert := by
  rw [← h.active_restrict hnames] at halert
  have hvalue := List.mem_of_mem_filter (List.mem_mergeSort.mp halert)
  obtain ⟨key, hget⟩ := OrderedMap.mem_values.mp hvalue
  have hget' := hget
  rw [restrict, OrderedMap.get_filter, Option.filter_eq_some_iff] at hget'
  obtain ⟨hstate, hlabel⟩ := hget'
  refine ⟨of_decide_eq_true hlabel, ?_⟩
  rw [(h key alert hstate).1]
  exact hget

/-- What a reading stores was stored, or is one of its candidates and not suppressed. -/
def SeenOrStored (candidates : List AlertCandidate) (before after : AlertState) : Prop :=
  ∀ id alert, after.get id = some alert →
    (before.get id).isSome = true ∨ id ∈ candidates.map (·.id) ∧ alert.suppressedUntil = none

theorem seenOrStored_refresh (nowIso : String) :
    SeenOrStored candidates state (AlertState.refresh candidates tenantId nowIso state) := by
  have hstart : SeenOrStored candidates state state := by
    intro id alert hget
    exact .inl (by rw [hget]; rfl)
  have hseen : SeenOrStored candidates state (candidates.foldl (AlertState.seen nowIso) state) := by
    refine List.foldlRecOn _ _ hstart fun st hst c hc id alert hget => ?_
    rw [seen_eq, OrderedMap.get_set] at hget
    split at hget
    · rename_i heq
      obtain rfl := Option.some.inj hget
      have hid : id ∈ candidates.map (·.id) := List.mem_map.mpr ⟨c, hc, heq⟩
      cases hold : st.get c.id with
      | none          => exact .inr ⟨hid, rfl⟩
      | some existing => exact (hst id existing (heq ▸ hold)).imp_right fun hnew => ⟨hid, hnew.2⟩
    · exact hst id alert hget
  refine List.foldlRecOn _ _ hseen fun st hst e he id alert hget => ?_
  unfold AlertState.marked at hget
  split at hget
  · rw [OrderedMap.get_set] at hget
    split at hget
    · rename_i heq
      obtain rfl := Option.some.inj hget
      exact heq ▸ hseen e.1 e.2 (OrderedMap.get_eq_some.mpr he)
    · exact hst id alert hget
  · exact hst id alert hget

theorem isSome_set {map : AlertState} {key : String} {value : AlertRecord}
    (h : (map.get id).isSome = true) : ((map.set key value).get id).isSome = true := by
  rw [OrderedMap.get_set]
  split
  · rfl
  · exact h

theorem isSome_refresh (nowIso : String) (h : (state.get id).isSome = true) :
    ((AlertState.refresh candidates tenantId nowIso state).get id).isSome = true := by
  have hseen : ((candidates.foldl (AlertState.seen nowIso) state).get id).isSome = true := by
    refine List.foldlRecOn (motive := fun st : AlertState => (st.get id).isSome = true) _ _ h ?_
    intro st hst c _
    rw [seen_eq]
    exact isSome_set hst
  refine List.foldlRecOn (motive := fun st : AlertState => (st.get id).isSome = true) _ _ hseen ?_
  intro st hst e _
  unfold AlertState.marked
  split
  · exact isSome_set hst
  · exact hst

/-- What a reading stores anew it returns. -/
theorem Kept.mem_active_of_new (h : Kept state)
    (hnames : ∀ c ∈ candidates, c.tenantId = scopeOf tenantId ∧ NamedFor (scopeOf tenantId) c.id)
    (hget : (state.getActiveAlerts parseDate candidates tenantId now).1.get id = some alert)
    (hnew : state.get id = none) :
    alert ∈ (state.getActiveAlerts parseDate candidates tenantId now).2 := by
  obtain ⟨hkept, _⟩ := @Kept.refresh state none candidates tenantId (toISOString now) h hnames
  rcases seenOrStored_refresh (toISOString now) id alert hget with hold | ⟨hid, hshown⟩
  · rw [hnew] at hold
    cases hold
  · refine List.mem_mergeSort.mpr (List.mem_filter.mpr ⟨OrderedMap.mem_values.mpr ⟨id, hget⟩, ?_⟩)
    rw [(hkept id alert hget).1, hshown]
    simpa using hid

end Reading

end AlertState

/-! ## Runs

Calls about one scope leave the records of another alone where the names tell them apart. -/

namespace AlertService

open AlertState

variable {parseDate : String → Option Int} {state : AlertState} {scope : Option String}

/-- A change of one record, where there is one, stays within the scope of the record. -/
theorem restrict_change (h : Kept state) (change : AlertRecord → AlertRecord)
    (hchange : ∀ r, (change r).id = r.id ∧ (change r).tenantId = r.tenantId) (id : String) :
    let apply (s : AlertState) : AlertState := match s.get id with
      | none          => s
      | some existing => s.set id (change existing)
    Kept (apply state) ∧
      (((restrict scope state).get id).isSome = true →
        restrict scope (apply state) = apply (restrict scope state)) ∧
      (((restrict scope state).get id).isSome = false →
        restrict scope (apply state) = restrict scope state) := by
  intro apply
  show Kept (match state.get id with | none => state | some existing => state.set id (change existing)) ∧ _
  cases hget : state.get id with
  | none =>
      have hnone : (restrict scope state).get id = none := by
        rw [restrict, OrderedMap.get_filter, hget]
        rfl
      refine ⟨h, fun hsome => ?_, fun _ => ?_⟩
      · rw [hnone] at hsome
        cases hsome
      · simp only [apply, hget]
  | some existing =>
      obtain ⟨hid, hname⟩ := h id existing hget
      have hid' : (change existing).id = id := (hchange existing).1.trans hid
      have hname' : NamedFor (change existing).tenantId id := (hchange existing).2.symm ▸ hname
      have hset := @Kept.restrict_set state scope id (change existing) h hname'
      have hfilter : (restrict scope state).get id =
          if existing.tenantId = scope then some existing else none := by
        rw [restrict, OrderedMap.get_filter, hget]
        by_cases hscope : existing.tenantId = scope <;> simp [hscope]
      rw [(hchange existing).2] at hset
      refine ⟨h.set hid' hname', fun hsome => ?_, fun hnone => ?_⟩
      · by_cases hscope : existing.tenantId = scope
        · rw [if_pos hscope] at hset hfilter
          simp only [apply, hget, hfilter, hset]
        · rw [hfilter, if_neg hscope] at hsome
          cases hsome
      · by_cases hscope : existing.tenantId = scope
        · rw [hfilter, if_pos hscope] at hnone
          cases hnone
        · rw [if_neg hscope] at hset
          simp only [apply, hget, hset]

def acknowledged (actor : String) (now : Nat) (r : AlertRecord) : AlertRecord :=
  { r with acknowledgedAt := some (toISOString now), acknowledgedBy := some actor }

def suppressed (durationMs : Int) (actor : Option String) (now : Nat) (r : AlertRecord) : AlertRecord :=
  { r with
    suppressedUntil := some (toISOString (now + durationMs.toNat))
    suppressedBy := (actor.filter fun a => a ≠ "").orElse fun _ => r.suppressedBy }

theorem kept_step {call : AlertCall} (h : Kept state) (hcall : call.Separable) :
    Kept (step parseDate state call) := by
  cases call with
  | getActiveAlerts deps tenantId now =>
      exact (@Kept.refresh state none _ tenantId (toISOString now) h
        (computeAlertCandidates_named hcall)).1
  | acknowledgeAlert id actor now =>
      exact (@restrict_change state none h
        (acknowledged actor now) (fun _ => ⟨rfl, rfl⟩) id).1
  | suppressAlert id durationMs actor now =>
      exact (@restrict_change state none h
        (suppressed durationMs actor now) (fun _ => ⟨rfl, rfl⟩) id).1

/-- What a scope's calls have returned is what it has records of. -/
def Returned (scope : Option String) (returned : List String) (state : AlertState) : Prop :=
  ∀ id, id ∈ returned ↔ ((restrict scope state).get id).isSome = true

theorem Returned.iff_of_restrict {returned : List String} {after : AlertState}
    (h : Returned scope returned state) (hsame : restrict scope after = restrict scope state) :
    Returned scope returned after := by
  intro id
  rw [hsame]
  exact h id

/-- **A call of another scope** leaves the records of the scope and returns nothing for it. -/
theorem step_of_not_concerns {returned : List String} {call : AlertCall} (h : Kept state)
    (hcall : call.Separable) (hreturned : Returned scope returned state)
    (hother : concerns scope returned call = false) :
    restrict scope (step parseDate state call) = restrict scope state ∧
      answer parseDate scope state call = none := by
  cases call with
  | getActiveAlerts deps tenantId now =>
      have hscope : scopeOf tenantId ≠ scope := of_decide_eq_false hother
      have hrefresh := (@Kept.refresh state scope _ tenantId (toISOString now) h
        (computeAlertCandidates_named hcall)).2
      rw [if_neg hscope] at hrefresh
      exact ⟨hrefresh, if_neg hscope⟩
  | acknowledgeAlert id actor now =>
      obtain ⟨_, _, hsame⟩ := @restrict_change state scope h
        (acknowledged actor now) (fun _ => ⟨rfl, rfl⟩) id
      refine ⟨hsame ?_, rfl⟩
      exact Bool.eq_false_iff.mpr fun hsome => of_decide_eq_false hother ((hreturned id).mpr hsome)
  | suppressAlert id durationMs actor now =>
      obtain ⟨_, _, hsame⟩ := @restrict_change state scope h
        (suppressed durationMs actor now) (fun _ => ⟨rfl, rfl⟩) id
      refine ⟨hsame ?_, rfl⟩
      exact Bool.eq_false_iff.mpr fun hsome => of_decide_eq_false hother ((hreturned id).mpr hsome)

/-- **A call of the scope** does to the records of the scope what it would do to them alone. -/
theorem step_of_concerns {returned : List String} {call : AlertCall} (h : Kept state)
    (hcall : call.Separable) (hreturned : Returned scope returned state)
    (hown : concerns scope returned call = true) :
    restrict scope (step parseDate state call) = step parseDate (restrict scope state) call ∧
      answer parseDate scope (restrict scope state) call = answer parseDate scope state call := by
  cases call with
  | getActiveAlerts deps tenantId now =>
      obtain rfl : scopeOf tenantId = scope := of_decide_eq_true hown
      have hnames := computeAlertCandidates_named hcall
      have hreading := @Kept.getActiveAlerts state parseDate _ tenantId now h hnames
      refine ⟨(congrArg Prod.fst hreading).symm, ?_⟩
      exact congrArg (fun reading => if scopeOf tenantId = scopeOf tenantId then some reading.2 else none)
        hreading
  | acknowledgeAlert id actor now =>
      obtain ⟨_, hsame, _⟩ := @restrict_change state scope h
        (acknowledged actor now) (fun _ => ⟨rfl, rfl⟩) id
      exact ⟨hsame ((hreturned id).mp (of_decide_eq_true hown)), rfl⟩
  | suppressAlert id durationMs actor now =>
      obtain ⟨_, hsame, _⟩ := @restrict_change state scope h
        (suppressed durationMs actor now) (fun _ => ⟨rfl, rfl⟩) id
      exact ⟨hsame ((hreturned id).mp (of_decide_eq_true hown)), rfl⟩

theorem get_restrict_iff (h : Kept state) {id : String} {alert : AlertRecord}
    (hget : state.get id = some alert) :
    ((restrict scope state).get id).isSome = true ↔ NamedFor scope id := by
  obtain ⟨_, hname⟩ := h id alert hget
  constructor
  · intro hsome
    obtain ⟨u, hu⟩ := Option.isSome_iff_exists.mp hsome
    rw [restrict, OrderedMap.get_filter, Option.filter_eq_some_iff] at hu
    exact of_decide_eq_true hu.2 ▸ (h id u hu.1).2
  · intro hid
    rw [h.get_restrict hid, hget]
    rfl

/-- Looking at a record keeps what there is of it. -/
theorem isSome_change (state : AlertState) (change : AlertRecord → AlertRecord) (id other : String) :
    ((match state.get id with
      | none          => state
      | some existing => state.set id (change existing) : AlertState).get other).isSome =
      (state.get other).isSome := by
  cases hget : state.get id with
  | none          => rfl
  | some existing =>
      show ((state.set id (change existing)).get other).isSome = _
      rw [OrderedMap.get_set]
      split
      · rename_i heq
        rw [← heq, hget]
        rfl
      · rfl

/-- The ids returned are kept up with the records. -/
theorem Returned.step {returned : List String} {call : AlertCall} (h : Kept state)
    (hcall : call.Separable) (hreturned : Returned scope returned state) :
    Returned scope (returned ++ returnedIds parseDate scope state call)
      (step parseDate state call) := by
  by_cases hown : concerns scope returned call = true
  · cases call with
    | getActiveAlerts deps tenantId now =>
        obtain rfl : scopeOf tenantId = scope := of_decide_eq_true hown
        have hnames := computeAlertCandidates_named hcall
        have hkept := (@Kept.refresh state none _ tenantId (toISOString now) h hnames).1
        have hids : returnedIds parseDate (scopeOf tenantId) state (.getActiveAlerts deps tenantId now) =
            (state.getActiveAlerts parseDate (deps.computeAlertCandidates tenantId) tenantId now).2.map
              fun alert => alert.id := by
          simp [returnedIds, answer]
        intro id
        rw [List.mem_append, hreturned id, hids]
        constructor
        · rintro (hold | hnew)
          -- a reading keeps every record, and what it returns beyond them it has just stored
          · obtain ⟨alert, halert⟩ := Option.isSome_iff_exists.mp hold
            rw [restrict, OrderedMap.get_filter, Option.filter_eq_some_iff] at halert
            have hname := (get_restrict_iff h halert.1).mp hold
            obtain ⟨alert', halert'⟩ := Option.isSome_iff_exists.mp
              (@isSome_refresh state id (deps.computeAlertCandidates tenantId) tenantId
                (toISOString now) (by rw [halert.1]; rfl))
            exact (get_restrict_iff hkept halert').mpr hname
          · obtain ⟨alert, halert, rfl⟩ := List.mem_map.mp hnew
            have hget := (hkept.tenantId_of_active (fun c hc => (hnames c hc).2) halert).2
            exact Option.isSome_iff_exists.mpr ⟨alert, hget⟩
        · intro hsome
          obtain ⟨alert, halert⟩ := Option.isSome_iff_exists.mp hsome
          rw [restrict, OrderedMap.get_filter, Option.filter_eq_some_iff] at halert
          cases hold : state.get id with
          | none        =>
              refine .inr (List.mem_map.mpr ⟨alert, h.mem_active_of_new hnames halert.1 hold, ?_⟩)
              exact (hkept id alert halert.1).1
          | some before =>
              exact .inl ((get_restrict_iff h hold).mpr ((get_restrict_iff hkept halert.1).mp hsome))
    | acknowledgeAlert id actor now =>
        intro other
        rw [show returnedIds parseDate scope state (.acknowledgeAlert id actor now) = [] from rfl,
          List.append_nil, hreturned other, (step_of_concerns h hcall hreturned hown).1]
        exact (Bool.eq_iff_iff.mp (isSome_change _ _ id other)).symm
    | suppressAlert id durationMs actor now =>
        intro other
        rw [show returnedIds parseDate scope state (.suppressAlert id durationMs actor now) = [] from rfl,
          List.append_nil, hreturned other, (step_of_concerns h hcall hreturned hown).1]
        exact (Bool.eq_iff_iff.mp (isSome_change _ _ id other)).symm
  · obtain ⟨hsame, hnone⟩ :=
      @step_of_not_concerns parseDate state scope returned call h hcall hreturned (by simpa using hown)
    rw [returnedIds, hnone]
    show Returned scope (returned ++ []) _
    rw [List.append_nil]
    exact hreturned.iff_of_restrict hsame

theorem answers_cons (call : AlertCall) (calls : List AlertCall) :
    answers parseDate scope state (call :: calls) =
      (answer parseDate scope state call).toList ++
        answers parseDate scope (step parseDate state call) calls := rfl

/-- The answers to a scope are those that its calls get from its records alone. -/
theorem answers_eq_answers_callsOf {returned : List String} {calls : List AlertCall} (h : Kept state)
    (hcalls : ∀ call ∈ calls, call.Separable) (hreturned : Returned scope returned state) :
    answers parseDate scope state calls =
      answers parseDate scope (restrict scope state)
        (callsOf parseDate scope returned state calls) := by
  induction calls generalizing state returned with
  | nil => rfl
  | cons call calls ih =>
      obtain ⟨hcall, hrest⟩ := List.forall_mem_cons.mp hcalls
      have hkept : Kept (step parseDate state call) := kept_step h hcall
      have hnext := @Returned.step parseDate state scope returned call h hcall hreturned
      rw [answers_cons, ih hkept hrest hnext, callsOf]
      by_cases hown : concerns scope returned call = true
      · obtain ⟨hstep, hanswer⟩ :=
          @step_of_concerns parseDate state scope returned call h hcall hreturned hown
        rw [if_pos hown, answers_cons, hanswer, ← hstep]
      · obtain ⟨hsame, hnone⟩ :=
          @step_of_not_concerns parseDate state scope returned call h hcall hreturned
            (by simpa using hown)
        rw [if_neg hown, hnone, hsame]
        rfl

/-- The alerts answered to a scope carry its label. -/
theorem tenantId_of_answers {calls : List AlertCall} (h : Kept state)
    (hcalls : ∀ call ∈ calls, call.Separable) {alerts : List AlertRecord} {alert : AlertRecord}
    (halerts : alerts ∈ answers parseDate scope state calls) (halert : alert ∈ alerts) :
    alert.tenantId = scope := by
  induction calls generalizing state with
  | nil => cases halerts
  | cons call calls ih =>
      obtain ⟨hcall, hrest⟩ := List.forall_mem_cons.mp hcalls
      have hkept : Kept (step parseDate state call) := kept_step h hcall
      rw [answers_cons, List.mem_append] at halerts
      rcases halerts with hnow | hlater
      · cases call with
        | getActiveAlerts deps tenantId now =>
            have hnames := computeAlertCandidates_named hcall
            rw [answer] at hnow
            by_cases hscope : scopeOf tenantId = scope
            · rw [if_pos hscope] at hnow
              obtain rfl := List.mem_singleton.mp hnow
              exact (hkept.tenantId_of_active (fun c hc => hscope ▸ (hnames c hc).2) halert).1
            · rw [if_neg hscope] at hnow
              cases hnow
        | acknowledgeAlert id actor now => cases hnow
        | suppressAlert id durationMs actor now => cases hnow
      · exact ih hkept hrest hlater

theorem kept_empty : Kept OrderedMap.empty := fun _ _ h => by cases h

theorem returned_empty : Returned scope [] OrderedMap.empty := fun id => by
  show id ∈ [] ↔ (none : Option AlertRecord).isSome = true
  simp

/-- What one scope sees depends on its own calls only, and carries its own label. -/
def ScopeSeparate (parseDate : String → Option Int) (scope : Option String) (calls : List AlertCall) :
    Prop :=
  answers parseDate scope OrderedMap.empty calls =
    answers parseDate scope OrderedMap.empty
      (callsOf parseDate scope [] OrderedMap.empty calls) ∧
  ∀ alerts ∈ answers parseDate scope OrderedMap.empty calls, ∀ alert ∈ alerts, alert.tenantId = scope

/-- **The scopes are separate** in every run that asks for no tenant called `global`: each scope is
answered as if the calls of the others had not been made. -/
theorem scopes_separate (parseDate : String → Option Int) (scope : Option String)
    (calls : List AlertCall) (hcalls : ∀ call ∈ calls, call.Separable) :
    ScopeSeparate parseDate scope calls :=
  ⟨answers_eq_answers_callsOf kept_empty hcalls returned_empty,
    fun _ halerts _ halert => tenantId_of_answers kept_empty hcalls halerts halert⟩

/-- A server with more dead letters than it is to have, and nothing else to report. -/
def deadLetterDeps : AlertDeps where
  deadLetterCount := 3
  oldestDeadLetterAgeMs := none
  failureRateWindow := 0
  listDeadLettersByTenant _ := ["task_1", "task_2"]
  listReceiptsByTenant _ := []
  listRegistryDescriptors := []
  getAuditCheckpoints := []
  collectSigningAnomalies usage :=
    (SigningAnomalyDetector.mk (1 / 5) 0).collectSigningAnomalies [] usage []
  healthMaxDeadLetters := some 1
  healthMaxOldestDeadLetterAgeMs := none
  metricsFailureRateThreshold := none
  getSLOAlerts := []

/-- The same server, with a monitor that has a metric of them. -/
def monitoredDeps : AlertDeps :=
  { deadLetterDeps with getSLOAlerts :=
    (SLOMonitor.after [("async_queue.dead_letter_rate", 1)]).checkAlerts.map SLOAlert.toCandidate }

/-- A tenant reads its alerts, the alert on dead letters is suppressed for an hour, and then the alerts of
the server are read. -/
def suppressedFor (deps : AlertDeps) (tenantId : String) : List AlertCall :=
  [.getActiveAlerts deps (some tenantId) 0,
    .suppressAlert ("alert:queue:dead_letter_count_exceeded:" ++ tenantId) 3600000 none 0,
    .getActiveAlerts deps none 1]

/-- `Date.parse`, on the text that the suppression writes. -/
def parseHour (text : String) : Option Int :=
  if text = "1970-01-01T01:00:00.000Z" then some 3600000 else none

theorem tenant_apart : ScopeSeparate parseHour none (suppressedFor monitoredDeps "tenant_A") :=
  scopes_separate parseHour none _ (by
    intro call hcall
    simp only [suppressedFor, List.mem_cons, List.not_mem_nil, or_false] at hcall
    rcases hcall with rfl | rfl | rfl
    · exact ⟨by decide, toCandidate_separable _⟩
    · trivial
    · exact ⟨by decide, toCandidate_separable _⟩)

/-- A tenant called `global` hides the alert of the server. -/
theorem global_tenant_hides_alert :
    ¬ ScopeSeparate parseHour none (suppressedFor deadLetterDeps "global") := by
  intro h
  have hlengths := congrArg (List.map List.length) h.1
  exact absurd hlengths (by decide +kernel)

end AlertService

end MapProtocol
