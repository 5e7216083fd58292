import MapProtocol.Lib.Transition
import MapProtocol.Security.Artefacts
import MapProtocol.Server.State

/-!
# The audit log

`recordAuditEvent` chains each event to the one before it by hash, drops the oldest events beyond
`auditMaxEvents`, and signs a checkpoint every `auditCheckpointInterval` events.
`verifyAuditIntegrity` expects the chain from its first event on: it accepts the log exactly as long
as no event has been dropped (`auditLog_verifies`).
-/

namespace MapProtocol

open Js Transition

structure AuditManagerOptions where
  auditStorePath          : Option String
  auditMaxEvents          : Nat
  auditCheckpointInterval : Nat

/-- What the audit manager is configured with: SHA-256 in hexadecimal, and the signing keys. -/
structure AuditEnv extends AuditManagerOptions where
  sha256 : String → String
  config : SigningConfig

/-- The log in memory, and the file of it. -/
structure AuditManager where
  auditEvents      : List AuditEvent
  auditCheckpoints : List AuditCheckpoint
  file             : JsonFile

/-! ## Recording -/

def auditTexts (event : AuditRecord) (chainIndex : Nat) (prevEventHash : String) : List String :=
  [event.timestamp, event.requestId, event.code, event.message, event.method, event.route,
    event.tenantId.getD "", event.targetAgent.getD "", toString chainIndex, prevEventHash]

def auditText (event : AuditRecord) (chainIndex : Nat) (prevEventHash : String) : String :=
  "|".intercalate (auditTexts event chainIndex prevEventHash)

/-- The last `n` elements, as `splice(0, length - n)` leaves them. -/
def lastOf {α : Type} (n : Nat) (l : List α) : List α := l.drop (l.length - n)

namespace AuditEnv

variable (env : AuditEnv)

def hashAuditEventBase (event : AuditRecord) (chainIndex : Nat) (prevEventHash : String) : String :=
  env.sha256 (auditText event chainIndex prevEventHash)

/-- The checkpoints with one for the last event, where one is due. -/
def createAuditCheckpoint (createdAt : String) (lastEvent : AuditEvent)
    (checkpoints : List AuditCheckpoint) : Except String (List AuditCheckpoint) :=
  if lastEvent.chainIndex % env.auditCheckpointInterval ≠ 0 then .ok checkpoints
  else do
    let checkpointId := "audit-checkpoint:" ++ toString lastEvent.chainIndex
    let signature ← signAuditCheckpoint env.config
      ⟨checkpointId, createdAt, lastEvent.chainIndex, lastEvent.eventHash⟩
    let checkpoint : AuditCheckpoint :=
      { checkpointId, createdAt
        lastChainIndex := lastEvent.chainIndex
        lastEventHash := lastEvent.eventHash
        keyId := (Wire.getSignatureKeyId signature).getD "unknown"
        signature }
    return lastOf env.auditMaxEvents (checkpoints ++ [checkpoint])

def chainedEvent (events : List AuditEvent) (event : AuditRecord) : AuditEvent :=
  let chainIndex := (events.getLast?.map fun last => last.chainIndex + 1).getD 1
  let prevEventHash := (events.getLast?.map AuditEvent.eventHash).getD "GENESIS"
  { event with
    chainIndex, prevEventHash
    eventHash := env.hashAuditEventBase event chainIndex prevEventHash }

/-- A checkpoint that cannot be signed stops the recording before the file is written. -/
def recordAuditEvent (event : AuditRecord) (createdAt : String) (s : AuditManager) :
    Except String Unit × AuditManager :=
  let chained := env.chainedEvent s.auditEvents event
  let events := lastOf env.auditMaxEvents (s.auditEvents ++ [chained])
  match env.createAuditCheckpoint createdAt chained s.auditCheckpoints with
  | .error error     => (.error error, { s with auditEvents := events })
  | .ok checkpoints  =>
      (.ok (), ⟨events, checkpoints, persistAuditEvents env.auditStorePath events checkpoints s.file⟩)

/-! ## Verification -/

/-- The errors of the events from `index` on; `expectedPrev` is the hash before them. -/
def eventErrors : Nat → String → List AuditEvent → List String
  | _, _, []                           => []
  | index, expectedPrev, current :: rest =>
      (if current.chainIndex ≠ index + 1 then
        ["event_chain_index_mismatch_at_" ++ toString index ++ ": expected " ++
          toString (index + 1) ++ ", got " ++ toString current.chainIndex] else []) ++
      (if current.prevEventHash ≠ expectedPrev then
        ["event_prev_hash_mismatch_at_" ++ toString index] else []) ++
      (if current.eventHash ≠
          env.hashAuditEventBase current.toAuditRecord current.chainIndex current.prevEventHash then
        ["event_hash_mismatch_at_" ++ toString index] else []) ++
      eventErrors (index + 1) current.eventHash rest

def checkpointErrors (events : List AuditEvent) (checkpoint : AuditCheckpoint) (index : Nat) :
    List String :=
  (if Wire.getSignatureKeyId checkpoint.signature ≠ some checkpoint.keyId then
    ["checkpoint_key_id_mismatch_at_" ++ toString index] else []) ++
  (if !verifyAuditCheckpointSignature env.config ⟨checkpoint.checkpointId, checkpoint.createdAt,
      checkpoint.lastChainIndex, checkpoint.lastEventHash⟩ checkpoint.signature then
    ["checkpoint_signature_invalid_at_" ++ toString index] else []) ++
  match events.find? fun e => e.chainIndex == checkpoint.lastChainIndex with
  | none             => ["checkpoint_missing_chain_index_at_" ++ toString index]
  | some targetEvent =>
      if targetEvent.eventHash ≠ checkpoint.lastEventHash then
        ["checkpoint_event_hash_mismatch_at_" ++ toString index] else []

structure IntegrityReport where
  ok                 : Bool
  errors             : List String
  eventsChecked      : Nat
  checkpointsChecked : Nat
  latestChainIndex   : Nat
  deriving DecidableEq, Repr

def verifyAuditIntegrity (events : List AuditEvent) (checkpoints : List AuditCheckpoint) :
    IntegrityReport :=
  let errors := env.eventErrors 0 "GENESIS" events ++
    checkpoints.zipIdx.flatMap fun e => env.checkpointErrors events e.1 e.2
  { ok := errors.isEmpty
    errors
    eventsChecked := events.length
    checkpointsChecked := checkpoints.length
    latestChainIndex := (events.getLast?.map AuditEvent.chainIndex).getD 0 }

/-! ## Runs -/

inductive AuditStep where
  | record (event : AuditRecord) (createdAt : String)
  | restart

def step (s : AuditManager) : AuditStep → AuditManager
  | .record event createdAt => (env.recordAuditEvent event createdAt s).2
  | .restart                =>
      let (events, checkpoints) := hydrateAuditEvents env.auditStorePath env.auditMaxEvents s.file
      ⟨events, checkpoints, s.file⟩

end AuditEnv

/-- A server that starts for the first time. -/
def freshAudit : AuditManager := ⟨[], [], none⟩

/-! ## What is verified -/

namespace AuditEnv

variable {env : AuditEnv}

variable (env) in
variable {index : Nat} {prev : String} {events es : List AuditEvent} {e : AuditEvent}
/-- The events are a hash chain from `index` on, after the hash `prev`. -/
def Chained : Nat → String → List AuditEvent → Prop
  | _, _, []              => True
  | index, prev, e :: es =>
      e.chainIndex = index + 1 ∧ e.prevEventHash = prev ∧
        e.eventHash = env.hashAuditEventBase e.toAuditRecord e.chainIndex e.prevEventHash ∧
          Chained (index + 1) e.eventHash es

variable (env) in
/-- The checkpoint is signed by the key that it names, and it is about an event of the log. -/
structure CheckpointOk (events : List AuditEvent) (c : AuditCheckpoint) : Prop where
  named  : Wire.getSignatureKeyId c.signature = some c.keyId
  signed : verifyAuditCheckpointSignature env.config
    ⟨c.checkpointId, c.createdAt, c.lastChainIndex, c.lastEventHash⟩ c.signature = true
  target : ∃ e, (events.find? fun e => e.chainIndex == c.lastChainIndex) = some e ∧
    e.eventHash = c.lastEventHash

theorem eventErrors_eq_nil :
    env.eventErrors index prev events = [] ↔ env.Chained index prev events := by
  induction events generalizing index prev with
  | nil => simp [eventErrors, Chained]
  | cons e es ih =>
      unfold eventErrors Chained
      simp only [List.append_eq_nil_iff, ite_eq_right_iff, List.cons_ne_self, imp_false,
        Decidable.not_not, ih, and_assoc]

theorem checkpointErrors_eq_nil {c : AuditCheckpoint} :
    env.checkpointErrors events c index = [] ↔ env.CheckpointOk events c := by
  unfold checkpointErrors
  constructor
  · intro h
    obtain ⟨h, htarget⟩ := List.append_eq_nil_iff.mp h
    obtain ⟨hnamed, hsigned⟩ := List.append_eq_nil_iff.mp h
    refine ⟨by simpa using hnamed, by simpa using hsigned, ?_⟩
    cases hfind : events.find? fun e => e.chainIndex == c.lastChainIndex with
    | none =>
        rw [hfind] at htarget
        cases htarget
    | some e =>
        rw [hfind] at htarget
        exact ⟨e, rfl, by simpa using htarget⟩
  · rintro ⟨hnamed, hsigned, e, hfind, hhash⟩
    simp [hnamed, hsigned, hfind, hhash]

/-- **What `verifyAuditIntegrity` accepts.** -/
theorem verifyAuditIntegrity_ok {checkpoints : List AuditCheckpoint} :
    (env.verifyAuditIntegrity events checkpoints).ok = true ↔
      env.Chained 0 "GENESIS" events ∧ ∀ c ∈ checkpoints, env.CheckpointOk events c := by
  unfold verifyAuditIntegrity
  dsimp only
  rw [List.isEmpty_iff, List.append_eq_nil_iff, eventErrors_eq_nil, List.flatMap_eq_nil_iff]
  refine and_congr_right fun _ => ⟨fun h c hc => ?_, fun h e he => ?_⟩
  · obtain ⟨i, hi, rfl⟩ := List.getElem_of_mem hc
    exact checkpointErrors_eq_nil.mp (h (checkpoints[i], i) (by simp [List.mem_zipIdx_iff_getElem?]))
  · exact checkpointErrors_eq_nil.mpr (h e.1 (List.fst_mem_of_mem_zipIdx he))

/-! ## The chain -/

theorem chained_append :
    env.Chained index prev (es ++ [e]) ↔
      env.Chained index prev es ∧ e.chainIndex = index + es.length + 1 ∧
        e.prevEventHash = (es.getLast?.map AuditEvent.eventHash).getD prev ∧
          e.eventHash =
            env.hashAuditEventBase e.toAuditRecord e.chainIndex e.prevEventHash := by
  induction es generalizing index prev with
  | nil => simp [Chained]
  | cons a es ih =>
      have hlast : ((a :: es).getLast?.map AuditEvent.eventHash).getD prev =
          (es.getLast?.map AuditEvent.eventHash).getD a.eventHash := by
        cases es with
        | nil => rfl
        | cons b es =>
            rw [List.getLast?_cons_cons]
            cases hb : (b :: es).getLast? with
            | none => simp at hb
            | some c => rfl
      have hindex : index + 1 + es.length + 1 = index + (a :: es).length + 1 := by
        rw [List.length_cons]
        omega
      rw [List.cons_append, Chained, Chained, ih, hlast, hindex]
      simp only [and_assoc]

theorem Chained.chainIndex (h : env.Chained index prev es) {i : Nat} (he : es[i]? = some e) :
    e.chainIndex = index + i + 1 := by
  induction es generalizing index prev i with
  | nil => cases he
  | cons a es ih =>
      obtain ⟨ha, -, -, hrest⟩ := h
      cases i with
      | zero =>
          obtain rfl : a = e := Option.some.inj he
          exact ha
      | succ i =>
          have hindex := ih hrest he
          omega

theorem Chained.chainIndex_le (h : env.Chained 0 "GENESIS" es) (he : e ∈ es) :
    1 ≤ e.chainIndex ∧ e.chainIndex ≤ es.length := by
  obtain ⟨i, hi, rfl⟩ := List.getElem_of_mem he
  have hindex := h.chainIndex (List.getElem?_eq_getElem hi)
  omega

theorem hashed_of_chained (h : env.Chained index prev es) (he : e ∈ es) :
    e.eventHash = env.hashAuditEventBase e.toAuditRecord e.chainIndex e.prevEventHash := by
  induction es generalizing index prev with
  | nil => cases he
  | cons a es ih =>
      obtain ⟨-, -, hhash, hrest⟩ := h
      rcases List.mem_cons.mp he with rfl | he
      · exact hhash
      · exact ih hrest he

theorem Chained.last_chainIndex (h : env.Chained 0 "GENESIS" es) :
    (es.getLast?.map fun last => last.chainIndex + 1).getD 1 = es.length + 1 := by
  cases hlast : es.getLast? with
  | none =>
      rw [List.getLast?_eq_none_iff.mp hlast]
      rfl
  | some last =>
      rw [List.getLast?_eq_getElem?] at hlast
      have hindex := h.chainIndex hlast
      have hlt : es.length - 1 < es.length := (List.getElem?_eq_some_iff.mp hlast).1
      show last.chainIndex + 1 = _
      omega

theorem chained_chainedEvent (h : env.Chained 0 "GENESIS" es) (event : AuditRecord) :
    env.Chained 0 "GENESIS" (es ++ [env.chainedEvent es event]) := by
  refine chained_append.mpr ⟨h, ?_, rfl, rfl⟩
  show (es.getLast?.map fun last => last.chainIndex + 1).getD 1 = _
  rw [h.last_chainIndex, Nat.zero_add]

theorem CheckpointOk.append {c : AuditCheckpoint} (h : env.CheckpointOk es c)
    (es' : List AuditEvent) : env.CheckpointOk (es ++ es') c := by
  obtain ⟨e, hfind, hhash⟩ := h.target
  exact ⟨h.named, h.signed, e, by rw [List.find?_append, hfind]; rfl, hhash⟩

theorem find?_last (h : env.Chained 0 "GENESIS" (es ++ [e])) :
    ((es ++ [e]).find? fun a => a.chainIndex == e.chainIndex) = some e := by
  obtain ⟨hes, hindex, -⟩ := chained_append.mp h
  have hnone : (es.find? fun a => a.chainIndex == e.chainIndex) = none := by
    rw [List.find?_eq_none]
    intro a ha
    have hle := (hes.chainIndex_le ha).2
    simp only [beq_iff_eq]
    omega
  rw [List.find?_append, hnone]
  simp

/-- **The checkpoints stay in order**: those that were, and the new one. -/
theorem checkpointOk_create (hconfig : env.config.Roundtrips)
    (hchain : env.Chained 0 "GENESIS" (es ++ [e])) {createdAt : String}
    {checkpoints checkpoints' : List AuditCheckpoint}
    (hcheckpoints : ∀ c ∈ checkpoints, env.CheckpointOk es c)
    (h : env.createAuditCheckpoint createdAt e checkpoints = .ok checkpoints') :
    ∀ c ∈ checkpoints', env.CheckpointOk (es ++ [e]) c := by
  unfold createAuditCheckpoint at h
  split at h
  · cases h
    exact fun c hc => (hcheckpoints c hc).append _
  · simp only [bind_eq_ok, pure_eq_ok] at h
    obtain ⟨signature, hsign, rfl⟩ := h
    have hsign := RequestEnv.canonical_of_signPayload hsign
    obtain ⟨key, _, _, _, hnamed⟩ := Wire.named_of_create hsign
    intro c hc
    rcases List.mem_append.mp (List.mem_of_mem_drop hc) with hc | hc
    · exact (hcheckpoints c hc).append _
    · rw [List.mem_singleton.mp hc]
      refine ⟨?_, hconfig _ _ _ _ hsign, e, find?_last hchain, rfl⟩
      dsimp only
      rw [hnamed]
      rfl

/-! ## Logs that nothing was dropped from

The chain begins at the genesis, so it cannot be verified once its first event is gone. -/

variable (env) in
/-- A log that verifies and has no more events than are kept. -/
structure Whole (events : List AuditEvent) (checkpoints : List AuditCheckpoint) : Prop where
  chain       : env.Chained 0 "GENESIS" events
  checkpoints : ∀ c ∈ checkpoints, env.CheckpointOk events c
  size        : events.length ≤ env.auditMaxEvents

variable (env) in
/-- The log in memory is whole, and so is that of the file. -/
structure Intact (s : AuditManager) : Prop where
  memory : env.Whole s.auditEvents s.auditCheckpoints
  file   : s.file = none ∨ ∃ events checkpoints file, env.Whole events checkpoints ∧
    s.file = persistAuditEvents env.auditStorePath events checkpoints file ∧
      hasPath env.auditStorePath = true

variable (env) in
def HasRoom (s : AuditManager) : AuditStep → Prop
  | .record _ _ => s.auditEvents.length < env.auditMaxEvents
  | .restart    => True

theorem lastOf_of_le {α : Type} {n : Nat} {l : List α} (h : l.length ≤ n) : lastOf n l = l := by
  unfold lastOf
  rw [Nat.sub_eq_zero_of_le h, List.drop_zero]

theorem whole_nil (env : AuditEnv) : env.Whole [] [] :=
  ⟨trivial, (fun _ h => nomatch h), Nat.zero_le _⟩

theorem intact_fresh (env : AuditEnv) : env.Intact freshAudit := ⟨whole_nil env, .inl rfl⟩

theorem intact_record (hconfig : env.config.Roundtrips) {s : AuditManager} (h : env.Intact s)
    (hroom : s.auditEvents.length < env.auditMaxEvents) (event : AuditRecord) (createdAt : String) :
    env.Intact (env.recordAuditEvent event createdAt s).2 := by
  have hchain := chained_chainedEvent h.memory.chain event
  have hsize : (s.auditEvents ++ [env.chainedEvent s.auditEvents event]).length ≤
      env.auditMaxEvents := by
    rw [List.length_append, List.length_singleton]
    omega
  unfold recordAuditEvent
  dsimp only
  rw [lastOf_of_le hsize]
  cases hcreate : env.createAuditCheckpoint createdAt (env.chainedEvent s.auditEvents event)
      s.auditCheckpoints with
  | error error => exact ⟨⟨hchain, fun c hc => (h.memory.checkpoints c hc).append _, hsize⟩, h.file⟩
  | ok checkpoints =>
      have hwhole : env.Whole (s.auditEvents ++ [env.chainedEvent s.auditEvents event])
          checkpoints :=
        ⟨hchain, checkpointOk_create hconfig hchain h.memory.checkpoints hcreate, hsize⟩
      refine ⟨hwhole, ?_⟩
      by_cases hpath : hasPath env.auditStorePath = true
      · exact .inr ⟨_, _, _, hwhole, rfl, hpath⟩
      · dsimp only
        unfold persistAuditEvents
        rw [if_neg hpath]
        exact h.file

theorem intact_restart {s : AuditManager} (h : env.Intact s) :
    env.Intact (env.step s .restart) := by
  refine ⟨?_, h.file⟩
  unfold step
  dsimp only
  rcases h.file with hnone | ⟨events, checkpoints, file, hwhole, hfile, hpath⟩
  · rw [hnone]
    unfold hydrateAuditEvents
    rw [ite_self]
    exact whole_nil env
  · rw [hfile, hydrate_persist_auditEvents hpath hwhole.size]
    exact hwhole

/-- A log that is full loses its first event, and the chain does not begin at the genesis. -/
theorem not_ok_of_full (hmax : 1 ≤ env.auditMaxEvents) {s : AuditManager} (h : env.Intact s)
    (hfull : env.auditMaxEvents ≤ s.auditEvents.length) (event : AuditRecord) (createdAt : String) :
    ¬ env.Chained 0 "GENESIS" (env.recordAuditEvent event createdAt s).2.auditEvents := by
  have hchain := chained_chainedEvent h.memory.chain event
  have hlength : s.auditEvents.length = env.auditMaxEvents := by
    have := h.memory.size
    omega
  have hevents : (env.recordAuditEvent event createdAt s).2.auditEvents =
      (s.auditEvents ++ [env.chainedEvent s.auditEvents event]).drop 1 := by
    have hdropped : lastOf env.auditMaxEvents
        (s.auditEvents ++ [env.chainedEvent s.auditEvents event]) =
          (s.auditEvents ++ [env.chainedEvent s.auditEvents event]).drop 1 := by
      unfold lastOf
      rw [List.length_append, List.length_singleton, hlength, Nat.add_sub_cancel_left]
    unfold recordAuditEvent
    dsimp only
    rw [hdropped]
    cases env.createAuditCheckpoint createdAt (env.chainedEvent s.auditEvents event)
      s.auditCheckpoints <;> rfl
  rw [hevents]
  intro hdropped
  have hlt : 1 < (s.auditEvents ++ [env.chainedEvent s.auditEvents event]).length := by
    rw [List.length_append, List.length_singleton]
    omega
  have hfirst := hdropped.chainIndex (i := 0)
    ((List.getElem?_drop ..).trans (List.getElem?_eq_getElem hlt))
  have hsecond := hchain.chainIndex (i := 1) (List.getElem?_eq_getElem hlt)
  omega

/-- **The audit log over a run.** It verifies in every state of a run, restarts included, exactly when
no step of the run drops an event. -/
theorem auditLog_verifies (env : AuditEnv) (hconfig : env.config.Roundtrips)
    (hmax : 1 ≤ env.auditMaxEvents) (steps : List AuditStep) :
    (∀ before, before <+: steps →
      (env.verifyAuditIntegrity (run env.step freshAudit before).auditEvents
        (run env.step freshAudit before).auditCheckpoints).ok = true) ↔
    StepsMeet env.step env.HasRoom freshAudit steps := by
  have hok : ∀ s, env.Intact s →
      (env.verifyAuditIntegrity s.auditEvents s.auditCheckpoints).ok = true :=
    fun s h => verifyAuditIntegrity_ok.mpr ⟨h.memory.chain, h.memory.checkpoints⟩
  refine (stepsMeet_iff_of hok (fun s l h hroom => ?_) (fun s l h hverified => ?_)
    (intact_fresh env)).symm
  · cases l with
    | record event createdAt => exact intact_record hconfig h hroom event createdAt
    | restart => exact intact_restart h
  · cases l with
    | record event createdAt =>
        refine Nat.lt_of_not_le fun hfull => ?_
        exact not_ok_of_full hmax h hfull event createdAt (verifyAuditIntegrity_ok.mp hverified).1
    | restart => trivial

/-- A server with one key, which keeps so many audit events and signs one checkpoint in a hundred. -/
def sampleAudit (auditMaxEvents : Nat) : AuditEnv :=
  ⟨⟨some "audit.json", auditMaxEvents, 100⟩, id, SigningConfig.oneKey⟩

def sampleRecord : AuditRecord :=
  ⟨"2026-01-01T00:00:00.000Z", "r1", "rate_limited", "refused", "POST", "/dispatch", none, none, none⟩

theorem auditLog_verifies_two :
    (run (sampleAudit 2).step freshAudit
      [.record sampleRecord "", .restart, .record sampleRecord ""]).auditEvents.length = 2 ∧
    ∀ before, before <+: [.record sampleRecord "", .restart, .record sampleRecord ""] →
      ((sampleAudit 2).verifyAuditIntegrity
        (run (sampleAudit 2).step freshAudit before).auditEvents
        (run (sampleAudit 2).step freshAudit before).auditCheckpoints).ok = true := by
  refine ⟨rfl, (auditLog_verifies (sampleAudit 2) Wire.roundtrips_oneKey (by decide) _).mpr ?_⟩
  have hfirst : (sampleAudit 2).HasRoom freshAudit (.record sampleRecord "") := by
    show 0 < 2
    decide
  have hsecond : (sampleAudit 2).HasRoom
      (run (sampleAudit 2).step freshAudit [.record sampleRecord "", .restart])
      (.record sampleRecord "") := by
    show 1 < 2
    decide
  exact ⟨hfirst, trivial, hsecond, trivial⟩

/-- One event too many. -/
theorem trimmed_unverified :
    ((sampleAudit 1).verifyAuditIntegrity
      (run (sampleAudit 1).step freshAudit
        [.record sampleRecord "", .record sampleRecord ""]).auditEvents
      (run (sampleAudit 1).step freshAudit
        [.record sampleRecord "", .record sampleRecord ""]).auditCheckpoints).ok = false := by
  rw [Bool.eq_false_iff]
  intro h
  exact absurd (verifyAuditIntegrity_ok.mp h).1.1 (by decide)

end AuditEnv

end MapProtocol
