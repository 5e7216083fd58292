import MapProtocol.Security.RequestSigning
import Mathlib.Tactic.Linarith

/-!
# Nonces over time

`verifyHttpRequestSignature` stores a nonce once the timestamp is found to be young, before it checks
the signature, and forgets it five minutes after that. So a call whose signature is bad stores its
nonce too, and a nonce can be used again where its request is young for longer than it is remembered:
where the timestamp lies in the future, or where the configured age is above five minutes
(`nonces_handled`).
-/

namespace MapProtocol

open Js

structure RequestCall where
  now       : Int
  input     : SignedRequestPayload
  signature : String
  nonce     : Option String

namespace RequestEnv

variable (env : RequestEnv)

def check (nonces : NonceCache) (call : RequestCall) : Except String Bool × NonceCache :=
  env.verifyHttpRequestSignature nonces call.now call.input call.signature call.nonce

/-- The cache once the calls have been made. -/
def noncesAfter (calls : List RequestCall) : NonceCache :=
  calls.foldl (fun nonces call => (env.check nonces call).2) OrderedMap.empty

/-- Is a request of that timestamp inside the age window? -/
def InWindow (now : Int) (timestamp : String) : Prop :=
  ∃ ms, env.parseDate timestamp = some ms ∧ ((now - ms).natAbs : Rat) ≤ env.getRequestMaxAgeMs

end RequestEnv

def Seen (nonces : NonceCache) (now : Int) (nonce : String) : Prop :=
  ∃ seen, nonces.get nonce = some seen ∧ now - seen ≤ NONCE_MAX_AGE_MS

/-- The cache without what is too old. -/
def pruned (nonces : NonceCache) (now : Int) : NonceCache :=
  nonces.filter fun seen => now - seen ≤ NONCE_MAX_AGE_MS

theorem get_pruned (nonces : NonceCache) (now : Int) (nonce : String) :
    (pruned nonces now).get nonce =
      (nonces.get nonce).filter fun seen => now - seen ≤ NONCE_MAX_AGE_MS :=
  OrderedMap.get_filter _ _ _

theorem verifyNonce_of_seen {nonces : NonceCache} {now : Int} {nonce : String}
    (h : Seen nonces now nonce) : verifyNonce nonces now nonce = (false, pruned nonces now) := by
  obtain ⟨seen, hget, hyoung⟩ := h
  have hkept : (pruned nonces now).get nonce = some seen := by
    rw [get_pruned, hget, Option.filter_some_pos (by simpa using hyoung)]
  unfold verifyNonce
  dsimp only
  rw [← pruned, hkept]

theorem verifyNonce_of_not_seen {nonces : NonceCache} {now : Int} {nonce : String}
    (h : ¬ Seen nonces now nonce) :
    verifyNonce nonces now nonce = (true, (pruned nonces now).set nonce now) := by
  have hkept : (pruned nonces now).get nonce = none := by
    rw [get_pruned]
    cases hget : nonces.get nonce with
    | none      => rfl
    | some seen =>
        exact Option.filter_some_neg (by simpa using fun hyoung => h ⟨seen, hget, hyoung⟩)
  unfold verifyNonce
  dsimp only
  rw [← pruned, hkept]

namespace RequestEnv

variable {env : RequestEnv} {nonces : NonceCache} {call : RequestCall}
variable {nonce : String} {taken now : Int}

/-! ## What a call does -/

theorem check_of_not_inWindow (h : ¬ env.InWindow call.now call.input.timestamp) :
    env.check nonces call = (.ok false, nonces) := by
  unfold check verifyHttpRequestSignature
  cases hdate : env.parseDate call.input.timestamp with
  | none    => rfl
  | some ms =>
      have hold : env.getRequestMaxAgeMs < (call.now - ms).natAbs := by
        rw [← not_le]
        exact fun hyoung => h ⟨ms, hdate, hyoung⟩
      simp only [if_pos hold]

theorem check_of_inWindow (h : env.InWindow call.now call.input.timestamp) :
    env.check nonces call =
      match call.nonce.filter fun n => n ≠ "" with
      | none       => (env.signatureVerifies call.input call.signature, nonces)
      | some nonce =>
          match verifyNonce nonces call.now nonce with
          | (false, kept) => (.ok false, kept)
          | (true, kept)  => (env.signatureVerifies call.input call.signature, kept) := by
  obtain ⟨ms, hdate, hyoung⟩ := h
  unfold check verifyHttpRequestSignature
  rw [hdate]
  exact (if_neg (not_lt.mpr hyoung)).trans rfl

theorem check_of_no_nonce (h : env.InWindow call.now call.input.timestamp)
    (hnonce : call.nonce.filter (fun n => n ≠ "") = none) :
    env.check nonces call = (env.signatureVerifies call.input call.signature, nonces) := by
  rw [check_of_inWindow h, hnonce]

theorem check_of_seen {nonce : String} (h : env.InWindow call.now call.input.timestamp)
    (hnonce : call.nonce.filter (fun n => n ≠ "") = some nonce) (hseen : Seen nonces call.now nonce) :
    env.check nonces call = (.ok false, pruned nonces call.now) := by
  rw [check_of_inWindow h, hnonce]
  simp only [verifyNonce_of_seen hseen]

theorem check_of_not_seen {nonce : String} (h : env.InWindow call.now call.input.timestamp)
    (hnonce : call.nonce.filter (fun n => n ≠ "") = some nonce) (hnew : ¬ Seen nonces call.now nonce) :
    env.check nonces call =
      (env.signatureVerifies call.input call.signature, (pruned nonces call.now).set nonce call.now) := by
  rw [check_of_inWindow h, hnonce]
  simp only [verifyNonce_of_not_seen hnew]

theorem inWindow_of_accepted (h : (env.check nonces call).1 = .ok true) :
    env.InWindow call.now call.input.timestamp := by
  by_contra hwindow
  rw [check_of_not_inWindow hwindow] at h
  cases h

theorem not_seen_of_accepted (h : (env.check nonces call).1 = .ok true)
    (hnonce : call.nonce.filter (fun n => n ≠ "") = some nonce) : ¬ Seen nonces call.now nonce := by
  intro hseen
  rw [check_of_seen (inWindow_of_accepted h) hnonce hseen] at h
  cases h

theorem signatureVerifies_of_accepted (h : (env.check nonces call).1 = .ok true) :
    env.signatureVerifies call.input call.signature = .ok true := by
  have hwindow := inWindow_of_accepted h
  cases hnonce : call.nonce.filter fun n => decide (n ≠ "") with
  | none       =>
      rw [check_of_no_nonce hwindow hnonce] at h
      exact h
  | some nonce =>
      rw [check_of_not_seen hwindow hnonce (not_seen_of_accepted h hnonce)] at h
      exact h

/-! ## What is to hold of a run -/

/-- The call is turned down for its timestamp or its signature: it is too old or too new, or has no
nonce that is remembered and a bad signature. -/
def Refused (env : RequestEnv) (nonces : NonceCache) (call : RequestCall) : Prop :=
  (env.check nonces call).1 = .ok false ∧
    (¬ env.InWindow call.now call.input.timestamp ∨
      env.signatureVerifies call.input call.signature = .ok false ∧
        ∀ nonce, call.nonce = some nonce → ¬ Seen nonces call.now nonce)

/-- What is refused leaves the cache, and no nonce is accepted again while the request that it came
with is young. -/
structure NoncesHandled (env : RequestEnv) (calls : List RequestCall) : Prop where
  untouched : ∀ before call rest, calls = before ++ call :: rest →
    env.Refused (env.noncesAfter before) call →
      env.noncesAfter (before ++ [call]) = env.noncesAfter before
  once      : ∀ before a between b rest nonce, calls = before ++ a :: between ++ b :: rest →
    a.nonce = some nonce → b.nonce = some nonce →
    (env.check (env.noncesAfter before) a).1 = .ok true →
    (env.check (env.noncesAfter (before ++ a :: between)) b).1 = .ok true →
      ¬ env.InWindow b.now a.input.timestamp

/-- The calls that go well: a young request with a new nonce is not badly signed; one that is well
signed has not the empty text for a nonce, and is not young for longer than its nonce is remembered. -/
structure Proper (env : RequestEnv) (nonces : NonceCache) (call : RequestCall) : Prop where
  genuine : env.InWindow call.now call.input.timestamp →
    ∀ nonce, call.nonce = some nonce → nonce ≠ "" → ¬ Seen nonces call.now nonce →
      env.signatureVerifies call.input call.signature ≠ .ok false
  named   : env.InWindow call.now call.input.timestamp →
    env.signatureVerifies call.input call.signature = .ok true → call.nonce ≠ some ""
  timely  : env.signatureVerifies call.input call.signature = .ok true → call.nonce.isSome = true →
    ∀ ms, env.parseDate call.input.timestamp = some ms →
      ((call.now - ms).natAbs : Rat) ≤ env.getRequestMaxAgeMs →
        (ms : Rat) + env.getRequestMaxAgeMs ≤ (call.now + NONCE_MAX_AGE_MS : Int)

/-! ## Refused calls -/

theorem noncesAfter_append (env : RequestEnv) (before : List RequestCall) (call : RequestCall) :
    env.noncesAfter (before ++ [call]) = (env.check (env.noncesAfter before) call).2 := by
  simp [noncesAfter]

theorem check_of_refused (hproper : env.Proper nonces call) (h : env.Refused nonces call) :
    (env.check nonces call).2 = nonces := by
  by_cases hwindow : env.InWindow call.now call.input.timestamp
  · obtain ⟨hbad, hnew⟩ := h.2.resolve_left (not_not.mpr hwindow)
    cases hnonce : call.nonce.filter fun n => decide (n ≠ "") with
    | none       => rw [check_of_no_nonce hwindow hnonce]
    | some nonce =>
        obtain ⟨hgiven, hnamed⟩ := Option.filter_eq_some_iff.mp hnonce
        exact absurd hbad
          (hproper.genuine hwindow nonce hgiven (of_decide_eq_true hnamed) (hnew nonce hgiven))
  · rw [check_of_not_inWindow hwindow]

/-! ## Nonces that have been accepted

A nonce is forgotten after five minutes at the earliest. -/

/-- A nonce taken at a time is in the cache since, or that is more than five minutes ago. -/
def Remembered (nonce : String) (taken : Int) (nonces : NonceCache) (now : Int) : Prop :=
  (∃ seen, nonces.get nonce = some seen ∧ taken ≤ seen) ∨ taken + NONCE_MAX_AGE_MS < now

theorem Remembered.pruned (h : Remembered nonce taken nonces now) {later : Int}
    (hlater : now ≤ later) :
    Remembered nonce taken (pruned nonces later) later := by
  rcases h with ⟨seen, hget, hseen⟩ | hold
  · by_cases hyoung : later - seen ≤ NONCE_MAX_AGE_MS
    · refine .inl ⟨seen, ?_, hseen⟩
      rw [get_pruned, hget, Option.filter_some_pos (by simpa using hyoung)]
    · exact .inr (by omega)
  · exact .inr (by omega)

/-- One call: a nonce that was taken stays remembered. -/
theorem Remembered.check (h : Remembered nonce taken nonces now) (htaken : taken ≤ call.now)
    (hnow : now ≤ call.now) :
    Remembered nonce taken (env.check nonces call).2 call.now := by
  have hlater : Remembered nonce taken nonces call.now :=
    h.imp_right fun hold => hold.trans_le hnow
  by_cases hwindow : env.InWindow call.now call.input.timestamp
  · cases hnonce : call.nonce.filter fun n => decide (n ≠ "") with
    | none       => rw [check_of_no_nonce hwindow hnonce]; exact hlater
    | some other =>
        by_cases hseen : Seen nonces call.now other
        · rw [check_of_seen hwindow hnonce hseen]
          exact h.pruned hnow
        · rw [check_of_not_seen hwindow hnonce hseen]
          rcases h.pruned hnow with ⟨seen, hget, hle⟩ | hold
          · by_cases hsame : other = nonce
            · exact .inl ⟨call.now, by rw [hsame, OrderedMap.get_set_self], htaken⟩
            · exact .inl ⟨seen, by rw [OrderedMap.get_set_ne _ hsame, hget], hle⟩
          · exact .inr hold
  · rw [check_of_not_inWindow hwindow]
    exact hlater

/-- A run of calls: a nonce that was taken stays remembered. -/
theorem Remembered.foldl {calls : List RequestCall} (h : Remembered nonce taken nonces now)
    (htaken : taken ≤ now) (hnow : ∀ call ∈ calls, now ≤ call.now)
    (hordered : calls.Pairwise fun a b => a.now ≤ b.now) {last : Int}
    (hlast : ∀ call ∈ calls, call.now ≤ last) (hle : now ≤ last) :
    Remembered nonce taken (calls.foldl (fun nonces call => (env.check nonces call).2) nonces) last := by
  induction calls generalizing nonces now with
  | nil => exact h.imp_right fun hold => hold.trans_le hle
  | cons call calls ih =>
      obtain ⟨hfirst, hrest⟩ := List.forall_mem_cons.mp hnow
      obtain ⟨hafter, hordered'⟩ := List.pairwise_cons.mp hordered
      obtain ⟨hlast', hlasts⟩ := List.forall_mem_cons.mp hlast
      exact ih (h.check (htaken.trans hfirst) hfirst) (htaken.trans hfirst) hafter hordered' hlasts hlast'

theorem remembered_of_accepted (h : (env.check nonces call).1 = .ok true)
    (hnonce : call.nonce.filter (fun n => n ≠ "") = some nonce) :
    Remembered nonce call.now (env.check nonces call).2 call.now := by
  rw [check_of_not_seen (inWindow_of_accepted h) hnonce (not_seen_of_accepted h hnonce)]
  exact .inl ⟨call.now, OrderedMap.get_set_self _ _ _, le_rfl⟩

/-- **Nonces are handled** in every run of proper calls in the order of their times. -/
theorem nonces_handled (env : RequestEnv) (calls : List RequestCall)
    (hordered : calls.Pairwise fun a b => a.now ≤ b.now)
    (hproper : ∀ before call rest, calls = before ++ call :: rest →
      env.Proper (env.noncesAfter before) call) :
    env.NoncesHandled calls where
  untouched before call rest hcalls hrefused := by
    rw [noncesAfter_append]
    exact check_of_refused (hproper before call rest hcalls) hrefused
  once before a between b rest nonce hcalls ha hb haccepted hagain := by
    rintro ⟨ms, hdate, hyoung⟩
    have hsigned := signatureVerifies_of_accepted haccepted
    have hwindow := inWindow_of_accepted haccepted
    have hfirst := hproper before a (between ++ b :: rest) (by rw [hcalls]; simp)
    have hnamed : nonce ≠ "" := by
      rintro rfl
      exact hfirst.named hwindow hsigned ha
    have hnonce : ∀ call : RequestCall, call.nonce = some nonce →
        call.nonce.filter (fun n => n ≠ "") = some nonce := by
      intro call hgiven
      rw [hgiven, Option.filter_some_pos (by simpa using hnamed)]
    -- From the first acceptance on the nonce is remembered, or five minutes have passed.
    have hremembered : Remembered nonce a.now (env.noncesAfter (before ++ a :: between)) b.now := by
      rw [hcalls, List.append_assoc] at hordered
      obtain ⟨_, hlater, _⟩ := List.pairwise_append.mp hordered
      obtain ⟨hafter, _, hbefore⟩ := List.pairwise_append.mp hlater
      obtain ⟨hafter, hbetween⟩ := List.pairwise_cons.mp hafter
      have hfold : env.noncesAfter (before ++ a :: between) =
          between.foldl (fun nonces call => (env.check nonces call).2)
            (env.check (env.noncesAfter before) a).2 := by
        simp [noncesAfter]
      rw [hfold]
      refine (remembered_of_accepted haccepted (hnonce a ha)).foldl le_rfl hafter hbetween ?_ ?_
      · exact fun call hcall => hbefore call (List.mem_cons_of_mem _ hcall) b List.mem_cons_self
      · exact hbefore a List.mem_cons_self b List.mem_cons_self
    have hforgotten : a.now + NONCE_MAX_AGE_MS < b.now := by
      rcases hremembered with ⟨seen, hget, hseen⟩ | hold
      · by_contra hlate
        exact not_seen_of_accepted hagain (hnonce b hb) ⟨seen, hget, by omega⟩
      · exact hold
    obtain ⟨ms', hdate', hyoung'⟩ := hwindow
    obtain rfl : ms = ms' := Option.some.inj (hdate.symm.trans hdate')
    have htimely := hfirst.timely hsigned (by rw [ha]; rfl) ms hdate hyoung'
    have hlate : ((a.now + NONCE_MAX_AGE_MS : Int) : Rat) < (b.now : Rat) := by exact_mod_cast hforgotten
    have hdistance : (b.now : Rat) - ms ≤ ((b.now - ms).natAbs : Rat) := by
      rw [Nat.cast_natAbs]
      exact_mod_cast le_abs_self (b.now - ms)
    linarith

end RequestEnv

/-! ## A sample run -/

/-- A process with one key and the default age, at the instants that `Date.parse` is asked about. -/
def nonceEnv : RequestEnv where
  signing := sampleSigningEnv
  crypto := SigningConfig.quotingCrypto
  parseDate timestamp := if timestamp = toISOString 1709164800000 then some 1709164800000 else none
  maxAgeMs := none

def nonceInput : SignedRequestPayload :=
  ⟨"POST", "/dispatch", toISOString 1709164800000, "map-dev-key-1", ""⟩

theorem nonceEnv_config : ∃ config,
    nonceEnv.signing.signingConfig nonceEnv.crypto = .ok config ∧ config.Sound :=
  ⟨_, rfl, SigningConfig.sound_of_idealised (SigningConfig.idealised_quoting rfl)⟩

/-- A request that arrives when it was signed, and again a second later. -/
theorem replay_handled : ∃ headers, nonceEnv.signHttpRequest nonceInput "n1" = .ok headers ∧
    nonceEnv.NoncesHandled
      [⟨1709164800000, nonceInput, headers.requestSignature, some "n1"⟩,
        ⟨1709164801000, nonceInput, headers.requestSignature, some "n1"⟩] := by
  obtain ⟨headers, hsign⟩ : ∃ headers, nonceEnv.signHttpRequest nonceInput "n1" = .ok headers :=
    ⟨_, rfl⟩
  obtain ⟨config, hconfig, hsound⟩ := nonceEnv_config
  have hverifies : nonceEnv.signatureVerifies nonceInput headers.requestSignature = .ok true :=
    RequestEnv.signatureVerifies_of_sign hconfig hsound (by decide) hsign
  refine ⟨headers, hsign, RequestEnv.nonces_handled _ _ (by simp) ?_⟩
  intro before call rest hcalls
  have hmem : call ∈ [(⟨1709164800000, nonceInput, headers.requestSignature, some "n1"⟩ : RequestCall),
      ⟨1709164801000, nonceInput, headers.requestSignature, some "n1"⟩] := by
    rw [hcalls]
    simp
  have hcall : call.input = nonceInput ∧ call.signature = headers.requestSignature ∧
      call.nonce = some "n1" ∧ 1709164800000 ≤ call.now := by
    rcases List.mem_pair.mp hmem with rfl | rfl <;> exact ⟨rfl, rfl, rfl, by norm_num⟩
  obtain ⟨hinput, hsignature, hnonce, hnow⟩ := hcall
  have hgood : nonceEnv.signatureVerifies call.input call.signature = .ok true := by
    rw [hinput, hsignature, hverifies]
  refine ⟨fun _ _ _ _ _ => by rw [hgood]; simp, fun _ _ => by rw [hnonce]; decide, ?_⟩
  intro _ _ ms hdate _
  rw [hinput] at hdate
  obtain rfl : ms = 1709164800000 := by
    have : nonceEnv.parseDate nonceInput.timestamp = some 1709164800000 := rfl
    exact (Option.some.inj (this.symm.trans hdate)).symm
  have hage : nonceEnv.getRequestMaxAgeMs = 300000 := by
    norm_num [nonceEnv, RequestEnv.getRequestMaxAgeMs, DEFAULT_REQUEST_MAX_AGE_MS]
  have hle : ((1709164800000 : Int) + 300000 : Int) ≤ call.now + NONCE_MAX_AGE_MS := by
    show _ ≤ call.now + 300000
    omega
  rw [hage]
  exact_mod_cast hle

/-- A forged request that burns the nonce of a genuine one. -/
theorem forged_burns_nonce : ¬ nonceEnv.NoncesHandled
    [⟨1709164800000, nonceInput, "forged", some "n1"⟩] := by
  intro h
  have hwindow : nonceEnv.InWindow 1709164800000 nonceInput.timestamp :=
    ⟨1709164800000, rfl, by decide +kernel⟩
  have hnew : ∀ nonce, ¬ Seen OrderedMap.empty 1709164800000 nonce := by
    rintro nonce ⟨seen, hget, _⟩
    cases hget
  have hrefused : nonceEnv.Refused OrderedMap.empty ⟨1709164800000, nonceInput, "forged", some "n1"⟩ := by
    refine ⟨?_, .inr ⟨rfl, fun nonce _ => hnew nonce⟩⟩
    rw [@RequestEnv.check_of_not_seen _ _ ⟨1709164800000, nonceInput, "forged", some "n1"⟩ "n1" hwindow
      rfl (hnew "n1")]
    rfl
  have hsame := h.untouched [] _ [] rfl hrefused
  have hburnt : (nonceEnv.noncesAfter [⟨1709164800000, nonceInput, "forged", some "n1"⟩]).get "n1" =
      some 1709164800000 := by decide +kernel
  rw [List.nil_append] at hsame
  rw [hsame] at hburnt
  cases hburnt

end MapProtocol
