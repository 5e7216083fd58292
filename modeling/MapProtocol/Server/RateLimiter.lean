import MapProtocol.Lib.OrderedMap
import MapProtocol.Lib.SlidingWindow
import MapProtocol.Lib.Transition

/-!
# The rate limiter

`checkMutationRateLimit` takes a slot of the global window, then one of the tenant's. The two windows
are those of `SlidingWindow`, and no window ever admits more than its limit. The order of the two is
seen from outside: a call that its tenant's limit refuses has taken its global slot already. So is the
boundary of the window: the hint of when to retry is one millisecond short.
-/

namespace MapProtocol

open SlidingWindow Transition

structure RateLimiterOptions where
  rateLimitStatePath            : Option String
  rateLimitWindowMs             : Int
  rateLimitMaxRequests          : Option Nat
  rateLimitMaxRequestsPerTenant : Option Nat

structure RateLimiter where
  globalRateLimitEvents : List Int
  tenantRateLimitEvents : OrderedMap String (List Int)

inductive RateLimitScope where
  | global
  | tenant
  deriving DecidableEq, Repr

structure RateLimitVerdict where
  allowed      : Bool
  scope        : Option RateLimitScope
  retryAfterMs : Option Int
  deriving DecidableEq, Repr

/-- A call of `checkMutationRateLimit`, at the time that `Date.now()` tells. -/
structure MutationCall where
  now      : Int
  tenantId : Option String

/-- The outcome of `consumeRateLimitSlot`, the events it leaves, and whether it persists the state. -/
structure RateLimitSlot where
  allowed      : Bool
  retryAfterMs : Int
  events       : List Int
  persists     : Bool

namespace RateLimiterOptions

variable (opts : RateLimiterOptions)

/-- What `persistRateLimitState` does to the state that it writes. -/
def persistRateLimitState (now : Int) (s : RateLimiter) : RateLimiter :=
  match opts.rateLimitStatePath.filter fun path => path ≠ "" with
  | none   => s
  | some _ =>
      { globalRateLimitEvents := prune opts.rateLimitWindowMs now s.globalRateLimitEvents
        tenantRateLimitEvents :=
          s.tenantRateLimitEvents.mapValues (prune opts.rateLimitWindowMs now) }

def consumeRateLimitSlot (now : Int) (events : List Int) : Option Nat → RateLimitSlot
  | none       => ⟨true, 0, events, false⟩
  | some limit =>
      let kept := prune opts.rateLimitWindowMs now events
      if limit ≤ kept.length then
        ⟨false, retryAfter opts.rateLimitWindowMs now kept, kept,
          decide (kept.length < events.length)⟩
      else ⟨true, 0, kept ++ [now], true⟩

def persistIf (persists : Bool) (now : Int) (s : RateLimiter) : RateLimiter :=
  if persists then opts.persistRateLimitState now s else s

/-- The second half of `checkMutationRateLimit`. -/
def checkTenantLimit (s : RateLimiter) (call : MutationCall) : RateLimitVerdict × RateLimiter :=
  match call.tenantId.filter fun tenantId => tenantId ≠ "", opts.rateLimitMaxRequestsPerTenant with
  | some tenantId, some limit =>
      let events := (s.tenantRateLimitEvents.get tenantId).getD []
      let tenantLimit := opts.consumeRateLimitSlot call.now events (some limit)
      let s := opts.persistIf tenantLimit.persists call.now s
      let s := { s with
        tenantRateLimitEvents := s.tenantRateLimitEvents.set tenantId tenantLimit.events }
      (if tenantLimit.allowed then ⟨true, none, none⟩
        else ⟨false, some .tenant, some tenantLimit.retryAfterMs⟩, s)
  | _, _ => (⟨true, none, none⟩, s)

def checkMutationRateLimit (s : RateLimiter) (call : MutationCall) :
    RateLimitVerdict × RateLimiter :=
  let globalLimit :=
    opts.consumeRateLimitSlot call.now s.globalRateLimitEvents opts.rateLimitMaxRequests
  let s := opts.persistIf globalLimit.persists call.now
    { s with globalRateLimitEvents := globalLimit.events }
  if !globalLimit.allowed then (⟨false, some .global, some globalLimit.retryAfterMs⟩, s)
  else opts.checkTenantLimit s call

/-- The calls with their verdicts, in order. -/
def history : RateLimiter → List MutationCall → List (MutationCall × RateLimitVerdict)
  | _, []            => []
  | s, call :: calls =>
      let (verdict, next) := opts.checkMutationRateLimit s call
      (call, verdict) :: history next calls

end RateLimiterOptions

def RateLimiter.tenantEvents (s : RateLimiter) (tenantId : String) : List Int :=
  (s.tenantRateLimitEvents.get tenantId).getD []

namespace RateLimiterOptions

variable {opts : RateLimiterOptions}
variable {now : Int} {n limit : Nat} {s : RateLimiter} {call : MutationCall}

/-! ## What a call does

The three outcomes of a call are told apart once, in `Checked`. -/

theorem prune_persistIf_global (persists : Bool) (now : Int) (s : RateLimiter) :
    prune opts.rateLimitWindowMs now (opts.persistIf persists now s).globalRateLimitEvents =
      prune opts.rateLimitWindowMs now s.globalRateLimitEvents := by
  unfold persistIf persistRateLimitState
  split
  · split
    · rfl
    · exact prune_idem _
  · rfl

theorem prune_persistIf_tenant (persists : Bool) (now : Int) (s : RateLimiter) (tenantId : String) :
    prune opts.rateLimitWindowMs now ((opts.persistIf persists now s).tenantEvents tenantId) =
      prune opts.rateLimitWindowMs now (s.tenantEvents tenantId) := by
  unfold persistIf persistRateLimitState
  split
  · split
    · rfl
    · unfold RateLimiter.tenantEvents
      rw [OrderedMap.get_mapValues]
      cases s.tenantRateLimitEvents.get tenantId with
      | none => rfl
      | some events => exact prune_idem _
  · rfl

theorem allowed_consumeRateLimitSlot (now : Int) (events : List Int) (limit : Option Nat) :
    (opts.consumeRateLimitSlot now events limit).allowed = true ↔
      ¬ Full opts.rateLimitWindowMs now limit events := by
  unfold consumeRateLimitSlot Full
  cases limit with
  | none => simp
  | some n =>
      dsimp only
      split <;> rename_i hn <;> simp [hn]

/-- A slot that is refused. -/
theorem consumeRateLimitSlot_of_full {events : List Int} {limit : Option Nat}
    (h : Full opts.rateLimitWindowMs now limit events) :
    (opts.consumeRateLimitSlot now events limit).allowed = false ∧
      (opts.consumeRateLimitSlot now events limit).events =
        prune opts.rateLimitWindowMs now events ∧
      (opts.consumeRateLimitSlot now events limit).retryAfterMs =
        retryAfter opts.rateLimitWindowMs now (prune opts.rateLimitWindowMs now events) := by
  obtain ⟨n, rfl, hn⟩ := h
  unfold consumeRateLimitSlot
  dsimp only
  rw [if_pos hn]
  exact ⟨rfl, rfl, rfl⟩

/-- A slot that is taken. -/
theorem consumeRateLimitSlot_of_room {events : List Int}
    (h : ¬ Full opts.rateLimitWindowMs now (some n) events) :
    (opts.consumeRateLimitSlot now events (some n)).allowed = true ∧
      (opts.consumeRateLimitSlot now events (some n)).events =
        prune opts.rateLimitWindowMs now events ++ [now] := by
  refine ⟨(allowed_consumeRateLimitSlot now events _).mpr h, ?_⟩
  have hn : ¬ n ≤ (prune opts.rateLimitWindowMs now events).length := fun hn => h ⟨n, rfl, hn⟩
  unfold consumeRateLimitSlot
  dsimp only
  rw [if_neg hn]

/-- What the windows hold at the time `now`, the same in both states. -/
structure SameWindows (opts : RateLimiterOptions) (now : Int) (s s' : RateLimiter) : Prop where
  global  : prune opts.rateLimitWindowMs now s'.globalRateLimitEvents =
    prune opts.rateLimitWindowMs now s.globalRateLimitEvents
  tenants : ∀ tenantId, prune opts.rateLimitWindowMs now (s'.tenantEvents tenantId) =
    prune opts.rateLimitWindowMs now (s.tenantEvents tenantId)

theorem sameWindows_persistIf (persists : Bool) (now : Int) (s : RateLimiter) :
    SameWindows opts now s (opts.persistIf persists now s) :=
  ⟨prune_persistIf_global persists now s, prune_persistIf_tenant persists now s⟩

theorem tenantEvents_set (s : RateLimiter) (tenantId t : String) (events : List Int) :
    ({ s with tenantRateLimitEvents := s.tenantRateLimitEvents.set tenantId events } :
      RateLimiter).tenantEvents t = if tenantId = t then events else s.tenantEvents t := by
  unfold RateLimiter.tenantEvents
  rw [OrderedMap.get_set]
  split <;> rfl

/-- A call that passes the global limit takes a slot of it, where there is one. -/
theorem check_of_globalRoom (hwidth : 0 ≤ opts.rateLimitWindowMs)
    (h : ¬ Full opts.rateLimitWindowMs call.now opts.rateLimitMaxRequests s.globalRateLimitEvents) :
    ∃ next,
    opts.checkMutationRateLimit s call = opts.checkTenantLimit next call ∧
      (prune opts.rateLimitWindowMs call.now next.globalRateLimitEvents =
        prune opts.rateLimitWindowMs call.now s.globalRateLimitEvents ++
          if opts.rateLimitMaxRequests.isSome then [call.now] else []) ∧
      ∀ t, prune opts.rateLimitWindowMs call.now (next.tenantEvents t) =
        prune opts.rateLimitWindowMs call.now (s.tenantEvents t) := by
  have hallowed := (allowed_consumeRateLimitSlot call.now s.globalRateLimitEvents _).mpr h
  have hevents : prune opts.rateLimitWindowMs call.now (opts.consumeRateLimitSlot call.now
      s.globalRateLimitEvents opts.rateLimitMaxRequests).events =
        prune opts.rateLimitWindowMs call.now s.globalRateLimitEvents ++
          if opts.rateLimitMaxRequests.isSome then [call.now] else [] := by
    cases hlimit : opts.rateLimitMaxRequests with
    | none => simp [consumeRateLimitSlot]
    | some n =>
        rw [hlimit] at h
        rw [(consumeRateLimitSlot_of_room h).2, prune_append_now hwidth, prune_idem]
        rfl
  unfold checkMutationRateLimit
  generalize opts.consumeRateLimitSlot call.now s.globalRateLimitEvents opts.rateLimitMaxRequests =
    slot at hallowed hevents
  have hsame := @sameWindows_persistIf opts slot.persists call.now
    { s with globalRateLimitEvents := slot.events }
  refine ⟨_, ?_, hsame.global.trans hevents, hsame.tenants⟩
  dsimp only
  rw [hallowed, if_neg (by simp)]

def Limits (opts : RateLimiterOptions) (call : MutationCall) (tenantId : String) (limit : Nat) :
    Prop :=
  call.tenantId = some tenantId ∧ tenantId ≠ "" ∧ opts.rateLimitMaxRequestsPerTenant = some limit

theorem checkTenantLimit_of_limits {tenantId : String} (h : opts.Limits call tenantId limit) :
    ∃ slot : RateLimitSlot,
    slot = opts.consumeRateLimitSlot call.now (s.tenantEvents tenantId) (some limit) ∧
      (opts.checkTenantLimit s call).1 =
        (if slot.allowed then ⟨true, none, none⟩
          else ⟨false, some .tenant, some slot.retryAfterMs⟩) ∧
      (prune opts.rateLimitWindowMs call.now
          (opts.checkTenantLimit s call).2.globalRateLimitEvents =
        prune opts.rateLimitWindowMs call.now s.globalRateLimitEvents) ∧
      (opts.checkTenantLimit s call).2.tenantEvents tenantId = slot.events ∧
      ∀ t, t ≠ tenantId →
        prune opts.rateLimitWindowMs call.now ((opts.checkTenantLimit s call).2.tenantEvents t) =
          prune opts.rateLimitWindowMs call.now (s.tenantEvents t) := by
  obtain ⟨htenant, hne, hlimit⟩ := h
  have hfilter : (call.tenantId.filter fun tenantId => tenantId ≠ "") = some tenantId := by
    rw [htenant]
    simp [hne]
  refine ⟨_, rfl, ?_⟩
  unfold checkTenantLimit
  rw [hfilter, hlimit]
  dsimp only
  rw [show (s.tenantRateLimitEvents.get tenantId).getD [] = s.tenantEvents tenantId from rfl]
  generalize opts.consumeRateLimitSlot call.now (s.tenantEvents tenantId) (some limit) = slot
  have hsame := @sameWindows_persistIf opts slot.persists call.now s
  generalize opts.persistIf slot.persists call.now s = next at hsame
  refine ⟨rfl, hsame.global, ?_, fun t ht => ?_⟩
  · rw [tenantEvents_set, if_pos rfl]
  · rw [tenantEvents_set, if_neg (Ne.symm ht)]
    exact hsame.tenants t

theorem checkTenantLimit_of_free (h : ∀ tenantId limit, ¬ opts.Limits call tenantId limit) :
    opts.checkTenantLimit s call = (⟨true, none, none⟩, s) := by
  unfold checkTenantLimit
  split
  · rename_i tenantId limit htenant hlimit
    obtain ⟨htenant, hne⟩ := Option.filter_eq_some_iff.mp htenant
    exact absurd ⟨htenant, by simpa using hne, hlimit⟩ (h tenantId limit)
  · rfl

theorem Limits.unique {call : MutationCall} {t t' : String} {n n' : Nat} (h : opts.Limits call t n)
    (h' : opts.Limits call t' n') : t' = t ∧ n' = n := by
  obtain ⟨htenant, -, hlimit⟩ := h
  obtain ⟨htenant', -, hlimit'⟩ := h'
  rw [htenant] at htenant'
  rw [hlimit] at hlimit'
  exact ⟨(Option.some.inj htenant').symm, (Option.some.inj hlimit').symm⟩

/-- **What a call does to the windows.** The global limit may refuse it; or that of its tenant, when
it has its global slot already; or it takes a slot of each window that limits it. -/
inductive Checked (opts : RateLimiterOptions) (s : RateLimiter) (call : MutationCall)
    (verdict : RateLimitVerdict) (next : RateLimiter) : Prop
  | globalFull
      (hfull : Full opts.rateLimitWindowMs call.now opts.rateLimitMaxRequests
        s.globalRateLimitEvents)
      (hverdict : verdict = ⟨false, some .global, some (retryAfter opts.rateLimitWindowMs call.now
        (prune opts.rateLimitWindowMs call.now s.globalRateLimitEvents))⟩)
      (hsame : SameWindows opts call.now s next)
  | tenantFull (t : String) (n : Nat)
      (hroom : ¬ Full opts.rateLimitWindowMs call.now opts.rateLimitMaxRequests
        s.globalRateLimitEvents)
      (hlimits : opts.Limits call t n)
      (hfull : Full opts.rateLimitWindowMs call.now (some n) (s.tenantEvents t))
      (hverdict : verdict = ⟨false, some .tenant, some (retryAfter opts.rateLimitWindowMs call.now
        (prune opts.rateLimitWindowMs call.now (s.tenantEvents t)))⟩)
      (hglobal : prune opts.rateLimitWindowMs call.now next.globalRateLimitEvents =
        prune opts.rateLimitWindowMs call.now s.globalRateLimitEvents ++
          if opts.rateLimitMaxRequests.isSome then [call.now] else [])
      (htenants : ∀ t, prune opts.rateLimitWindowMs call.now (next.tenantEvents t) =
        prune opts.rateLimitWindowMs call.now (s.tenantEvents t))
  | room
      (hroom : ¬ Full opts.rateLimitWindowMs call.now opts.rateLimitMaxRequests
        s.globalRateLimitEvents)
      (hall : ∀ t n, opts.Limits call t n →
        ¬ Full opts.rateLimitWindowMs call.now (some n) (s.tenantEvents t))
      (hverdict : verdict = ⟨true, none, none⟩)
      (hglobal : prune opts.rateLimitWindowMs call.now next.globalRateLimitEvents =
        prune opts.rateLimitWindowMs call.now s.globalRateLimitEvents ++
          if opts.rateLimitMaxRequests.isSome then [call.now] else [])
      (hlimited : ∀ t n, opts.Limits call t n →
        prune opts.rateLimitWindowMs call.now (next.tenantEvents t) =
          prune opts.rateLimitWindowMs call.now (s.tenantEvents t) ++ [call.now])
      (hfree : ∀ t, (∀ n, ¬ opts.Limits call t n) →
        prune opts.rateLimitWindowMs call.now (next.tenantEvents t) =
          prune opts.rateLimitWindowMs call.now (s.tenantEvents t))

theorem check_of_globalFull
    (h : Full opts.rateLimitWindowMs call.now opts.rateLimitMaxRequests s.globalRateLimitEvents) :
    Checked opts s call (opts.checkMutationRateLimit s call).1
      (opts.checkMutationRateLimit s call).2 := by
  obtain ⟨hrefused, hevents, hretry⟩ := consumeRateLimitSlot_of_full h
  have hsame := @sameWindows_persistIf opts
    (opts.consumeRateLimitSlot call.now s.globalRateLimitEvents opts.rateLimitMaxRequests).persists
    call.now { s with
      globalRateLimitEvents := prune opts.rateLimitWindowMs call.now s.globalRateLimitEvents }
  unfold checkMutationRateLimit
  dsimp only
  rw [hrefused, hevents, hretry, if_pos (by simp)]
  exact .globalFull h rfl ⟨hsame.global.trans (prune_idem _), hsame.tenants⟩

theorem check_cases (hwidth : 0 ≤ opts.rateLimitWindowMs) (s : RateLimiter) (call : MutationCall) :
    Checked opts s call (opts.checkMutationRateLimit s call).1
      (opts.checkMutationRateLimit s call).2 := by
  by_cases hroom : Full opts.rateLimitWindowMs call.now opts.rateLimitMaxRequests
      s.globalRateLimitEvents
  · exact check_of_globalFull hroom
  obtain ⟨next, hcheck, hglobal, htenants⟩ := check_of_globalRoom hwidth hroom
  rw [hcheck]
  by_cases hlimits : ∃ t n, opts.Limits call t n
  · obtain ⟨t, n, hlimits⟩ := hlimits
    -- the global slot has been taken, and the window of the tenant is as it was
    have hnext : Full opts.rateLimitWindowMs call.now (some n) (next.tenantEvents t) ↔
        Full opts.rateLimitWindowMs call.now (some n) (s.tenantEvents t) := by
      rw [← full_prune (Int.le_refl _), htenants, full_prune (Int.le_refl _)]
    obtain ⟨slot, hslot, hverdict, hkept, hevents, hothers⟩ :=
      checkTenantLimit_of_limits (s := next) hlimits
    by_cases hfull : Full opts.rateLimitWindowMs call.now (some n) (s.tenantEvents t)
    · obtain ⟨hrefused, hslotevents, hretry⟩ := consumeRateLimitSlot_of_full (hnext.mpr hfull)
      rw [← hslot] at hrefused hslotevents hretry
      refine .tenantFull t n hroom hlimits hfull ?_ (hkept.trans hglobal) fun t' => ?_
      · rw [hverdict, hrefused, hretry, htenants]
        rfl
      · by_cases ht : t' = t
        · rw [ht, hevents, hslotevents, prune_idem, htenants]
        · rw [hothers t' ht, htenants]
    · obtain ⟨hallowed, hslotevents⟩ := consumeRateLimitSlot_of_room fun h => hfull (hnext.mp h)
      rw [← hslot] at hallowed hslotevents
      refine .room hroom (fun t' n' h' => ?_) ?_ (hkept.trans hglobal) (fun t' n' h' => ?_)
        fun t' h' => ?_
      · obtain ⟨rfl, rfl⟩ := hlimits.unique h'
        exact hfull
      · rw [hverdict, hallowed]
        rfl
      · obtain ⟨rfl, -⟩ := hlimits.unique h'
        rw [hevents, hslotevents, prune_append_now hwidth, prune_idem, htenants]
      · rw [hothers t' fun ht => h' n (ht ▸ hlimits), htenants]
  · have hfree : ∀ t n, ¬ opts.Limits call t n := fun t n h => hlimits ⟨t, n, h⟩
    rw [checkTenantLimit_of_free hfree]
    exact .room hroom (fun t n h => absurd h (hfree t n)) rfl hglobal
      (fun t n h => absurd h (hfree t n)) fun t _ => htenants t

/-! ## No window admits more than its limit -/

/-- The times of the calls that were allowed, among those that `p` selects. -/
def admittedTimes (p : MutationCall → Bool) (history : List (MutationCall × RateLimitVerdict)) :
    List Int :=
  (history.filter fun e => e.2.allowed && p e.1).map fun e => e.1.now

theorem accounts_global (hwidth : 0 ≤ opts.rateLimitWindowMs)
    (hlimit : opts.rateLimitMaxRequests = some limit) {log : List Int}
    (h : Accounts opts.rateLimitWindowMs limit call.now s.globalRateLimitEvents log) :
    Accounts opts.rateLimitWindowMs limit call.now
      (opts.checkMutationRateLimit s call).2.globalRateLimitEvents
      (log ++ if (opts.checkMutationRateLimit s call).1.allowed then [call.now] else []) := by
  have hpruned := Accounts.prune_iff.mpr h
  rw [← Accounts.prune_iff]
  cases check_cases hwidth s call with
  | globalFull hfull hverdict hsame =>
      rw [hverdict, hsame.global]
      simpa using hpruned
  | tenantFull t n hroom hlimits hfull hverdict hglobal htenants =>
      rw [hverdict, hglobal, hlimit]
      simpa using hpruned.grow call.now
  | room hroom hall hverdict hglobal hlimited hfree =>
      rw [hverdict, hglobal, hlimit]
      rw [hlimit] at hroom
      exact hpruned.append_now (Nat.lt_of_not_le fun hn => hroom ⟨limit, rfl, hn⟩)

theorem accounts_tenant (hwidth : 0 ≤ opts.rateLimitWindowMs)
    (hlimit : opts.rateLimitMaxRequestsPerTenant = some limit) {tenantId : String}
    (hne : tenantId ≠ "") {log : List Int}
    (h : Accounts opts.rateLimitWindowMs limit call.now (s.tenantEvents tenantId) log) :
    Accounts opts.rateLimitWindowMs limit call.now
      ((opts.checkMutationRateLimit s call).2.tenantEvents tenantId)
      (log ++ if (opts.checkMutationRateLimit s call).1.allowed &&
        decide (call.tenantId = some tenantId) then [call.now] else []) := by
  have hpruned := Accounts.prune_iff.mpr h
  rw [← Accounts.prune_iff]
  cases check_cases hwidth s call with
  | globalFull hfull hverdict hsame =>
      rw [hverdict, hsame.tenants]
      simpa using hpruned
  | tenantFull t n hroom hlimits hfull hverdict hglobal htenants =>
      rw [hverdict, htenants]
      simpa using hpruned
  | room hroom hall hverdict hglobal hlimited hfree =>
      rw [hverdict]
      by_cases hcall : call.tenantId = some tenantId
      · have hlimits : opts.Limits call tenantId limit := ⟨hcall, hne, hlimit⟩
        rw [hlimited tenantId limit hlimits, if_pos (by simp [hcall])]
        exact hpruned.append_now
          (Nat.lt_of_not_le fun hn => hall _ _ hlimits ⟨limit, rfl, hn⟩)
      · rw [hfree tenantId fun n hlimits => hcall hlimits.1, if_neg (by simp [hcall])]
        simpa using hpruned

/-- A run keeps the accounts that each call keeps. -/
theorem accounts_run {limit : Nat} {events : RateLimiter → List Int} {p : MutationCall → Bool}
    (hstep : ∀ s call log,
      Accounts opts.rateLimitWindowMs limit call.now (events s) log →
        Accounts opts.rateLimitWindowMs limit call.now
          (events (opts.checkMutationRateLimit s call).2)
          (log ++ if (opts.checkMutationRateLimit s call).1.allowed && p call then [call.now]
            else []))
    {calls : List MutationCall} (hsorted : calls.Pairwise fun a b => a.now ≤ b.now) {now : Int}
    (hnow : ∀ call ∈ calls, now ≤ call.now) {s : RateLimiter} {log : List Int}
    (h : Accounts opts.rateLimitWindowMs limit now (events s) log) (start : Int) :
    ((log ++ admittedTimes p (opts.history s calls)).filter fun t =>
      decide (start ≤ t ∧ t ≤ start + opts.rateLimitWindowMs)).length ≤ limit := by
  induction calls generalizing s log now with
  | nil => simpa [history, admittedTimes] using h.bounded start
  | cons call calls ih =>
      obtain ⟨hfirst, hrest⟩ := List.pairwise_cons.mp hsorted
      have hnext := ih hrest hfirst (hstep s call log (h.later (hnow call List.mem_cons_self)))
      rw [List.append_assoc] at hnext
      unfold history
      dsimp only
      unfold admittedTimes at hnext ⊢
      rw [List.filter_cons]
      by_cases hallowed :
          ((opts.checkMutationRateLimit s call).1.allowed && p call) = true
      · rw [if_pos hallowed] at hnext
        rw [if_pos hallowed]
        exact hnext
      · rw [if_neg hallowed] at hnext
        rw [if_neg hallowed]
        exact hnext

/-! ## What a refused call is promised -/

variable (opts) in
/-- The call takes no global slot where the limit of its tenant refuses it, and a call that is refused
is not refused for the same reason when it is made again after `retryAfterMs`. -/
structure Fair (s : RateLimiter) (call : MutationCall) : Prop where
  slots : (opts.checkMutationRateLimit s call).1.scope = some .tenant →
    prune opts.rateLimitWindowMs call.now
      (opts.checkMutationRateLimit s call).2.globalRateLimitEvents =
        prune opts.rateLimitWindowMs call.now s.globalRateLimitEvents
  retry : ∀ scope r, (opts.checkMutationRateLimit s call).1.scope = some scope →
    (opts.checkMutationRateLimit s call).1.retryAfterMs = some r →
      (opts.checkMutationRateLimit (opts.checkMutationRateLimit s call).2
        { call with now := call.now + r }).1.scope ≠ some scope

variable (opts) in
/-- A limit that refuses the call has room one millisecond later, and the limit of a tenant refuses it
only where there is no global limit. -/
structure RefusesLate (s : RateLimiter) (call : MutationCall) : Prop where
  global : Full opts.rateLimitWindowMs call.now opts.rateLimitMaxRequests s.globalRateLimitEvents →
    ¬ Full opts.rateLimitWindowMs (call.now + 1) opts.rateLimitMaxRequests s.globalRateLimitEvents
  tenant : ¬ Full opts.rateLimitWindowMs call.now opts.rateLimitMaxRequests
      s.globalRateLimitEvents → ∀ t n, opts.Limits call t n →
    Full opts.rateLimitWindowMs call.now (some n) (s.tenantEvents t) →
      opts.rateLimitMaxRequests = none ∧
        ¬ Full opts.rateLimitWindowMs (call.now + 1) (some n) (s.tenantEvents t)

/-- What refuses a call. -/
theorem scope_check (hwidth : 0 ≤ opts.rateLimitWindowMs) (s : RateLimiter) (call : MutationCall) :
    ((opts.checkMutationRateLimit s call).1.scope = some .global ↔
      Full opts.rateLimitWindowMs call.now opts.rateLimitMaxRequests s.globalRateLimitEvents) ∧
    ((opts.checkMutationRateLimit s call).1.scope = some .tenant ↔
      ¬ Full opts.rateLimitWindowMs call.now opts.rateLimitMaxRequests s.globalRateLimitEvents ∧
        ∃ t n, opts.Limits call t n ∧
          Full opts.rateLimitWindowMs call.now (some n) (s.tenantEvents t)) := by
  cases check_cases hwidth s call with
  | globalFull hfull hverdict hsame =>
      rw [hverdict]
      simp [hfull]
  | tenantFull t n hroom hlimits hfull hverdict hglobal htenants =>
      rw [hverdict]
      exact ⟨⟨nofun, fun h => absurd h hroom⟩, fun _ => ⟨hroom, t, n, hlimits, hfull⟩, fun _ => rfl⟩
  | room hroom hall hverdict hglobal hlimited hfree =>
      rw [hverdict]
      simpa [hroom] using hall

theorem full_of_prune_eq {now later : Int} (h : now ≤ later) {limit : Option Nat}
    {times times' : List Int}
    (heq : prune opts.rateLimitWindowMs now times' = prune opts.rateLimitWindowMs now times) :
    Full opts.rateLimitWindowMs later limit times' ↔
      Full opts.rateLimitWindowMs later limit times := by
  rw [← full_prune h, heq, full_prune h]

theorem le_add_retryAfter (width : Int) (kept : List Int) :
    now ≤ now + retryAfter width now kept := by
  unfold retryAfter
  omega

theorem fair_of_globalFull (hwidth : 0 ≤ opts.rateLimitWindowMs) {s : RateLimiter}
    {call : MutationCall} (hfull : Full opts.rateLimitWindowMs call.now opts.rateLimitMaxRequests
      s.globalRateLimitEvents)
    (hverdict : (opts.checkMutationRateLimit s call).1 = ⟨false, some .global, some (retryAfter
      opts.rateLimitWindowMs call.now
        (prune opts.rateLimitWindowMs call.now s.globalRateLimitEvents))⟩)
    (hsame : SameWindows opts call.now s (opts.checkMutationRateLimit s call).2) :
    opts.Fair s call ↔ opts.RefusesLate s call := by
  have hagain := (scope_check hwidth (opts.checkMutationRateLimit s call).2 { call with
    now := call.now + retryAfter opts.rateLimitWindowMs call.now
      (prune opts.rateLimitWindowMs call.now s.globalRateLimitEvents) }).1
  dsimp only at hagain
  rw [full_of_prune_eq (le_add_retryAfter _ _) hsame.global, full_retryAfter] at hagain
  constructor
  · intro h
    refine ⟨fun _ hsoon => ?_, fun hroom => absurd hfull hroom⟩
    exact h.retry .global _ (by rw [hverdict]) (by rw [hverdict]) (hagain.mpr hsoon)
  · intro h
    refine ⟨fun hscope => ?_, fun scope r hscope hr => ?_⟩
    · rw [hverdict] at hscope
      cases hscope
    · rw [hverdict] at hscope hr
      cases hscope
      cases hr
      exact fun hscope => h.global hfull (hagain.mp hscope)

/-- A call that the limit of its tenant refuses. -/
theorem fair_of_tenantFull (hwidth : 0 ≤ opts.rateLimitWindowMs) {s : RateLimiter}
    {call : MutationCall} (hroom : ¬ Full opts.rateLimitWindowMs call.now opts.rateLimitMaxRequests
      s.globalRateLimitEvents) {t : String} {n : Nat} (hlimits : opts.Limits call t n)
    (hn : Full opts.rateLimitWindowMs call.now (some n) (s.tenantEvents t))
    (hverdict : (opts.checkMutationRateLimit s call).1 = ⟨false, some .tenant, some (retryAfter
      opts.rateLimitWindowMs call.now
        (prune opts.rateLimitWindowMs call.now (s.tenantEvents t)))⟩)
    (hglobal : prune opts.rateLimitWindowMs call.now
      (opts.checkMutationRateLimit s call).2.globalRateLimitEvents =
        prune opts.rateLimitWindowMs call.now s.globalRateLimitEvents ++
          if opts.rateLimitMaxRequests.isSome then [call.now] else [])
    (htenants : ∀ t, prune opts.rateLimitWindowMs call.now
      ((opts.checkMutationRateLimit s call).2.tenantEvents t) =
        prune opts.rateLimitWindowMs call.now (s.tenantEvents t)) :
    opts.Fair s call ↔ opts.RefusesLate s call := by
  -- the call has taken a global slot, unless there is no global limit
  have hslots : prune opts.rateLimitWindowMs call.now
      (opts.checkMutationRateLimit s call).2.globalRateLimitEvents =
        prune opts.rateLimitWindowMs call.now s.globalRateLimitEvents ↔
      opts.rateLimitMaxRequests = none := by
    rw [hglobal]
    cases opts.rateLimitMaxRequests <;> simp
  have hagain := (scope_check hwidth (opts.checkMutationRateLimit s call).2 { call with
    now := call.now + retryAfter opts.rateLimitWindowMs call.now
      (prune opts.rateLimitWindowMs call.now (s.tenantEvents t)) }).2
  dsimp only at hagain
  constructor
  · intro h
    have hnone : opts.rateLimitMaxRequests = none := hslots.mp (h.slots (by rw [hverdict]))
    refine ⟨fun hg => absurd hg hroom, fun _ t' n' hlimits' hn' => ⟨hnone, fun hsoon => ?_⟩⟩
    obtain ⟨rfl, rfl⟩ := hlimits.unique hlimits'
    refine h.retry .tenant _ (by rw [hverdict]) (by rw [hverdict]) (hagain.mpr ⟨?_, ?_⟩)
    · rw [hnone]
      rintro ⟨_, hsome, -⟩
      cases hsome
    · refine ⟨t', n', hlimits, ?_⟩
      rw [full_of_prune_eq (le_add_retryAfter _ _) (htenants t'), full_retryAfter]
      exact hsoon
  · intro h
    obtain ⟨hnone, hsoon⟩ := h.tenant hroom t n hlimits hn
    refine ⟨fun _ => hslots.mpr hnone, fun scope r hscope hr => ?_⟩
    rw [hverdict] at hscope hr
    cases hscope
    cases hr
    intro hscope
    obtain ⟨-, t', n', hlimits', hn'⟩ := hagain.mp hscope
    obtain ⟨rfl, rfl⟩ := @Limits.unique opts call t t' n n' hlimits hlimits'
    rw [full_of_prune_eq (le_add_retryAfter _ _) (htenants t'), full_retryAfter] at hn'
    exact hsoon hn'

/-- **The exact condition of one call.** -/
theorem fair_iff (hwidth : 0 ≤ opts.rateLimitWindowMs) :
    opts.Fair s call ↔ opts.RefusesLate s call := by
  cases check_cases hwidth s call with
  | globalFull hfull hverdict hsame => exact fair_of_globalFull hwidth hfull hverdict hsame
  | tenantFull t n hroom hlimits hfull hverdict hglobal htenants =>
      exact fair_of_tenantFull hwidth hroom hlimits hfull hverdict hglobal htenants
  | room hroom hall hverdict hglobal hlimited hfree =>
      constructor
      · exact fun _ => ⟨fun hg => absurd hg hroom,
          fun _ t n hlimits hn => absurd hn (hall t n hlimits)⟩
      · intro _
        refine ⟨fun hscope => ?_, fun scope r hscope => ?_⟩
        · rw [hverdict] at hscope
          cases hscope
        · rw [hverdict] at hscope
          cases hscope

variable (opts) in
/-- The state after a call. -/
def step (s : RateLimiter) (call : MutationCall) : RateLimiter :=
  (opts.checkMutationRateLimit s call).2

/-- **The rate limiter over a run.** No window admits more than its limit; and refused calls are kept
their promises in every state of the run exactly when each call meets the condition. -/
theorem rateLimits (opts : RateLimiterOptions) (hwidth : 0 ≤ opts.rateLimitWindowMs)
    (s : RateLimiter) (calls : List MutationCall)
    (hsorted : calls.Pairwise fun a b => a.now ≤ b.now) :
    (∀ limit start, opts.rateLimitMaxRequests = some limit →
      ((admittedTimes (fun _ => true) (opts.history s calls)).filter fun t =>
        decide (start ≤ t ∧ t ≤ start + opts.rateLimitWindowMs)).length ≤ limit) ∧
    (∀ limit start tenantId, opts.rateLimitMaxRequestsPerTenant = some limit → tenantId ≠ "" →
      ((admittedTimes (fun call => decide (call.tenantId = some tenantId))
        (opts.history s calls)).filter fun t =>
          decide (start ≤ t ∧ t ≤ start + opts.rateLimitWindowMs)).length ≤ limit) ∧
    ((∀ before call, before ++ [call] <+: calls → opts.Fair (run opts.step s before) call) ↔
      StepsMeet opts.step opts.RefusesLate s calls) := by
  have hstart : ∃ now, ∀ call ∈ calls, now ≤ call.now := by
    cases calls with
    | nil => exact ⟨0, fun _ h => nomatch h⟩
    | cons call calls =>
        refine ⟨call.now, fun c hc => ?_⟩
        rcases List.mem_cons.mp hc with rfl | hc
        · exact Int.le_refl _
        · exact (List.pairwise_cons.mp hsorted).1 c hc
  obtain ⟨now, hnow⟩ := hstart
  refine ⟨fun limit start hlimit => ?_, fun limit start tenantId hlimit hne => ?_, ?_⟩
  · have hstep : ∀ s call log,
        Accounts opts.rateLimitWindowMs limit call.now s.globalRateLimitEvents log →
          Accounts opts.rateLimitWindowMs limit call.now
            (opts.checkMutationRateLimit s call).2.globalRateLimitEvents
            (log ++ if (opts.checkMutationRateLimit s call).1.allowed && true then [call.now]
              else []) := by
      intro s call log h
      rw [Bool.and_true]
      exact accounts_global hwidth hlimit h
    exact @accounts_run opts limit (fun s => s.globalRateLimitEvents) (fun _ => true) hstep calls
      hsorted now hnow s [] (Accounts.nil _) start
  · exact @accounts_run opts limit (fun s => s.tenantEvents tenantId)
      (fun call => decide (call.tenantId = some tenantId))
      (fun _ _ _ h => accounts_tenant hwidth hlimit hne h) calls hsorted now hnow s []
      (Accounts.nil _) start
  · rw [stepsMeet_iff_forall]
    simp only [fair_iff hwidth]

/-- One global slot in a second, and one for each tenant. -/
def strictOptions : RateLimiterOptions := ⟨none, 1000, some 1, some 1⟩

def freshLimiter : RateLimiter := ⟨[], .empty⟩

/-- The second call comes at the last millisecond of the window of the first. -/
def lateCalls : List MutationCall := [⟨0, some "a"⟩, ⟨1000, some "b"⟩, ⟨1001, some "a"⟩]

theorem limits_strictOptions {t a : String} (hcall : call.tenantId = some a)
    (h : strictOptions.Limits call t n) : t = a ∧ n = 1 := by
  obtain ⟨htenant, -, hlimit⟩ := h
  rw [hcall] at htenant
  exact ⟨(Option.some.inj htenant).symm, (Option.some.inj hlimit).symm⟩

theorem rateLimits_late :
    ((admittedTimes (fun _ => true) (strictOptions.history freshLimiter lateCalls)).filter fun t =>
        decide (1 ≤ t ∧ t ≤ 1 + strictOptions.rateLimitWindowMs)).length ≤ 1 ∧
      ∀ before call, before ++ [call] <+: lateCalls →
        strictOptions.Fair (run strictOptions.step freshLimiter before) call := by
  obtain ⟨hglobal, -, hfair⟩ := rateLimits strictOptions (by decide) freshLimiter lateCalls
    (by decide)
  refine ⟨hglobal 1 1 rfl, hfair.mpr ⟨⟨?_, ?_⟩, ⟨?_, ?_⟩, ⟨?_, ?_⟩, trivial⟩⟩
  · decide
  · rintro - t n hlimits
    obtain ⟨rfl, rfl⟩ := limits_strictOptions rfl hlimits
    decide
  · decide
  · exact fun hroom => absurd (by decide) hroom
  · decide
  · rintro - t n hlimits
    obtain ⟨rfl, rfl⟩ := limits_strictOptions rfl hlimits
    decide

/-- Two global slots in a second, and one for each tenant. -/
def sharedOptions : RateLimiterOptions := ⟨none, 1000, some 2, some 1⟩

/-- The tenant `a` makes two calls, the second of which its own limit refuses. -/
def crowdedCalls : List MutationCall :=
  [⟨0, some "a"⟩, ⟨0, some "a"⟩, ⟨0, some "b"⟩, ⟨1000, some "b"⟩]

/-- After these no call of `b` is admitted, also when it waits as long as it is asked to. -/
theorem refused_takes_slot :
    (sharedOptions.history freshLimiter crowdedCalls).map Prod.snd =
      [⟨true, none, none⟩, ⟨false, some .tenant, some 1000⟩, ⟨false, some .global, some 1000⟩,
        ⟨false, some .global, some 1⟩] ∧
    ¬ ∀ before call, before ++ [call] <+: crowdedCalls →
      sharedOptions.Fair (run sharedOptions.step freshLimiter before) call := by
  refine ⟨by decide, fun h => ?_⟩
  have hfair := h [⟨0, some "a"⟩] ⟨0, some "a"⟩ ⟨_, rfl⟩
  exact absurd (hfair.slots (by decide)) (by decide)

end RateLimiterOptions

end MapProtocol
