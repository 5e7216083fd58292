import Mathlib.Data.List.Dedup
import Mathlib.Algebra.BigOperators.Group.List.Lemmas
import MapProtocol.Security.SigningKeys
import MapProtocol.Security.Wire
import MapProtocol.Server.State

/-!
# The signing anomalies

`SigningAnomalyDetector` counts the signatures of the descriptors, the receipts and the checkpoints
by their key id and reports what it finds unusual. The counts are members of a plain object, so an
id that every object has a member of already is not counted as the others are. What the detector
takes for an unknown key is the word `unknown`, under which it counts the signatures whose key id
cannot be read: an id that no key of the key set has goes unnoticed (`anomalies_not_missed_iff`).
-/

namespace MapProtocol

open Js

/-! ## Counting -/

/-- The members that every object inherits, but for `__proto__`. -/
def inheritedMembers : List String :=
  ["constructor", "hasOwnProperty", "isPrototypeOf", "propertyIsEnumerable", "toLocaleString",
    "toString", "valueOf", "__defineGetter__", "__defineSetter__", "__lookupGetter__",
    "__lookupSetter__"]

/-- A number that is read of a count; `none` is `NaN`. -/
abbrev Count := Option Nat

/-- `a + b`. -/
def Count.plus (a b : Count) : Count := Option.map₂ (· + ·) a b

/-- `Record<string, number>`. -/
abbrev KeyCounts := OrderedMap String Count

/-- `acc[keyId] = (acc[keyId] ?? 0) + 1`. One added to an inherited function is a text, of which no
number is read, and `__proto__` takes no text. -/
def countKey (acc : KeyCounts) (keyId : String) : KeyCounts :=
  if keyId = "__proto__" then acc
  else if keyId ∈ inheritedMembers then acc.set keyId none
  else acc.set keyId (((acc.get keyId).getD (some 0)).plus (some 1))

def countKeys (keyIds : List String) : KeyCounts := keyIds.foldl countKey OrderedMap.empty

/-- What the detector looks at. -/
structure SignedArtefacts where
  descriptors : List Wire.Record
  receipts    : List ExecutionReceipt
  checkpoints : List AuditCheckpoint

def descriptorKeyId (descriptor : Wire.Record) : String :=
  match Wire.field descriptor "descriptor_key_id" with
  | .str keyId => if keyId = "" then "unknown" else keyId
  | _          => "unknown"

def receiptKeyId (receipt : ExecutionReceipt) : String :=
  (Wire.getSignatureKeyId receipt.signature).getD "unknown"

def checkpointKeyId (checkpoint : AuditCheckpoint) : String :=
  if checkpoint.keyId = "" then "unknown" else checkpoint.keyId

/-- The key ids that the artefacts are signed with, in order. -/
def SignedArtefacts.keyIds (input : SignedArtefacts) : List String :=
  input.descriptors.map descriptorKeyId ++ input.receipts.map receiptKeyId ++
    input.checkpoints.map checkpointKeyId

structure SigningKeyUsage where
  agentDescriptorsByKeyId : KeyCounts
  receiptsByKeyId         : KeyCounts
  auditCheckpointsByKeyId : KeyCounts

def collectSigningKeyUsage (input : SignedArtefacts) : SigningKeyUsage where
  agentDescriptorsByKeyId := countKeys (input.descriptors.map descriptorKeyId)
  receiptsByKeyId         := countKeys (input.receipts.map receiptKeyId)
  auditCheckpointsByKeyId := countKeys (input.checkpoints.map checkpointKeyId)

/-! ## The report -/

inductive AnomalySeverity where
  | ok
  | warning
  | critical
  deriving DecidableEq, Repr

structure SigningAnomalies where
  unknownKeyUsageDetected   : Bool
  retiringKeyUsageDetected  : Bool
  unknownKeyUsageRatio      : Rat
  retiringKeyUsageRatio     : Rat
  totalSignaturesAnalyzed   : Count
  unknownKeyCriticalRatio   : Rat
  retiringKeyCriticalRatio  : Rat
  unknownKeyRatioExceeded   : Bool
  retiringKeyRatioExceeded  : Bool
  severity                  : AnomalySeverity
  recommendedAction         : String
  deriving Repr

structure SigningAnomalyDetector where
  signingRetiringKeyCriticalRatio : Rat
  signingUnknownKeyCriticalRatio  : Rat

/-- `getVerificationKeys()` with the revocations of the server laid over. -/
def getEffectiveVerificationKeys (keys : List SigningKey) (revokedKids : List String) :
    List SigningKey :=
  keys.map fun key => if key.kid ∈ revokedKids then { key with status := .revoked } else key

/-- `allUsageEntries`. -/
def SigningKeyUsage.entries (usage : SigningKeyUsage) : List (String × Count) :=
  usage.agentDescriptorsByKeyId.entries ++ usage.receiptsByKeyId.entries ++
    usage.auditCheckpointsByKeyId.entries

/-- `Number(count) > 0`. -/
def Count.isPositive (count : Count) : Bool := count.any fun n => decide (0 < n)

/-- The sum of the counts of the keys that `p` selects. -/
def countOf (p : String → Bool) (entries : List (String × Count)) : Count :=
  entries.foldl (fun acc e => acc.plus (if p e.1 then e.2 else some 0)) (some 0)

/-- `total > 0 ? count / total : 0`. A quotient of `NaN` is not formed: what makes a summand `NaN`
makes the total `NaN`. -/
def usageRatio (count total : Count) : Rat :=
  if total.isPositive then (count.getD 0 : Rat) / (total.getD 0 : Rat) else 0

def recommendedSigningAction : AnomalySeverity → String
  | .critical =>
      "Investigate unknown signing key usage immediately and rotate active keys if compromise is suspected."
  | .warning  =>
      "Monitor retiring key usage and complete signing key migration to active keys."
  | .ok       => "No action required."

def SigningAnomalyDetector.collectSigningAnomalies (detector : SigningAnomalyDetector)
    (keys : List SigningKey) (signingUsage : SigningKeyUsage) (revokedKids : List String) :
    SigningAnomalies :=
  let verificationKeys := getEffectiveVerificationKeys keys revokedKids
  let retiringKeyIds := (verificationKeys.filter fun key => key.status = .retiring).map SigningKey.kid
  let allUsageEntries := signingUsage.entries
  let unknownKeyUsageDetected := allUsageEntries.any fun e => e.1 = "unknown" && e.2.isPositive
  let retiringKeyUsageDetected :=
    allUsageEntries.any fun e => decide (e.1 ∈ retiringKeyIds) && e.2.isPositive
  let totalSignaturesAnalyzed := countOf (fun _ => true) allUsageEntries
  let unknownKeyUsageRatio :=
    usageRatio (countOf (fun keyId => keyId = "unknown") allUsageEntries) totalSignaturesAnalyzed
  let retiringKeyUsageRatio :=
    usageRatio (countOf (fun keyId => keyId ∈ retiringKeyIds) allUsageEntries)
      totalSignaturesAnalyzed
  let unknownKeyRatioExceeded :=
    unknownKeyUsageDetected &&
      decide (detector.signingUnknownKeyCriticalRatio < unknownKeyUsageRatio)
  let retiringKeyRatioExceeded :=
    retiringKeyUsageDetected &&
      decide (detector.signingRetiringKeyCriticalRatio < retiringKeyUsageRatio)
  let severity : AnomalySeverity :=
    if unknownKeyRatioExceeded || retiringKeyRatioExceeded then .critical
    else if retiringKeyUsageDetected then .warning
    else .ok
  { unknownKeyUsageDetected, retiringKeyUsageDetected, unknownKeyUsageRatio, retiringKeyUsageRatio,
    totalSignaturesAnalyzed, unknownKeyRatioExceeded, retiringKeyRatioExceeded, severity,
    unknownKeyCriticalRatio  := detector.signingUnknownKeyCriticalRatio
    retiringKeyCriticalRatio := detector.signingRetiringKeyCriticalRatio
    recommendedAction        := recommendedSigningAction severity }

/-! ## What is counted -/

/-- The key ids that a plain object takes a member for. -/
def countedIds (keyIds : List String) : List String := keyIds.filter fun keyId => keyId ≠ "__proto__"

/-- The number that is read of the count of a key id. -/
def occurrences (keyIds : List String) (keyId : String) : Count :=
  if keyId ∈ inheritedMembers then none else some (keyIds.count keyId)

theorem mem_countedIds {keyIds : List String} {keyId : String} :
    keyId ∈ countedIds keyIds ↔ keyId ∈ keyIds ∧ keyId ≠ "__proto__" := by simp [countedIds]

theorem count_countedIds {keyIds : List String} {keyId : String} (h : keyId ≠ "__proto__") :
    (countedIds keyIds).count keyId = keyIds.count keyId :=
  List.count_filter (by simpa using h)

theorem get_countKeys (keyIds : List String) (keyId : String) :
    (countKeys keyIds).get keyId =
      if keyId ∈ countedIds keyIds then some (occurrences keyIds keyId) else none := by
  induction keyIds using List.reverseRecOn with
  | nil => rfl
  | append_singleton keyIds last ih =>
      have hstep : countKeys (keyIds ++ [last]) = countKey (countKeys keyIds) last := by
        simp [countKeys]
      rw [hstep]
      unfold countKey
      by_cases hproto : last = "__proto__"
      -- `counts["__proto__"]` is set to no purpose
      · have hcounted : countedIds (keyIds ++ [last]) = countedIds keyIds := by
          simp [countedIds, hproto]
        rw [if_pos hproto, ih, hcounted]
        split
        · rename_i hmem
          have hne : last ≠ keyId := fun heq => (mem_countedIds.mp hmem).2 (heq ▸ hproto)
          simp [occurrences, List.count_append, hne]
        · rfl
      · have hmem : keyId ∈ countedIds (keyIds ++ [last]) ↔ last = keyId ∨ keyId ∈ countedIds keyIds := by
          rw [mem_countedIds, mem_countedIds, List.mem_append, List.mem_singleton]
          constructor
          · rintro ⟨hold | hnew, hne⟩
            · exact .inr ⟨hold, hne⟩
            · exact .inl hnew.symm
          · rintro (rfl | ⟨hold, hne⟩)
            · exact ⟨.inr rfl, hproto⟩
            · exact ⟨.inl hold, hne⟩
        rw [if_neg hproto, ← apply_ite, OrderedMap.get_set]
        by_cases hlast : last = keyId
        · subst hlast
          rw [if_pos rfl, if_pos (hmem.mpr (.inl rfl)), ih]
          by_cases hinherited : last ∈ inheritedMembers
          -- an inherited member is no number to count from
          · simp [occurrences, hinherited]
          · by_cases hold : last ∈ countedIds keyIds
            · simp [occurrences, hinherited, hold, Count.plus]
            · have hzero : keyIds.count last = 0 :=
                List.count_eq_zero.mpr fun hin => hold (mem_countedIds.mpr ⟨hin, hproto⟩)
              simp [occurrences, hinherited, hold, Count.plus, hzero]
        · rw [if_neg hlast, ih]
          have hsame : keyId ∈ countedIds (keyIds ++ [last]) ↔ keyId ∈ countedIds keyIds :=
            hmem.trans (or_iff_right hlast)
          simp [hsame, occurrences, List.count_append, hlast]

/-- Two signatures of one key, and two ids that are names of members already. -/
example : (countKeys ["k1", "constructor", "k1", "__proto__"]).entries =
    [("k1", some 2), ("constructor", none)] := rfl

theorem entries_countKeys_perm (keyIds : List String) :
    (countKeys keyIds).entries.Perm
      ((countedIds keyIds).dedup.map fun keyId => (keyId, occurrences keyIds keyId)) := by
  have hentries : (countKeys keyIds).entries.Nodup := (countKeys keyIds).nodup.of_map _
  have hcounts : ((countedIds keyIds).dedup.map fun keyId =>
      (keyId, occurrences keyIds keyId)).Nodup :=
    (List.nodup_dedup _).map fun a b hab => (Prod.mk.inj hab).1
  rw [List.perm_ext_iff_of_nodup hentries hcounts]
  rintro ⟨keyId, count⟩
  rw [← OrderedMap.get_eq_some, get_countKeys]
  simp only [List.mem_map, List.mem_dedup, Prod.mk.injEq, Option.ite_none_right_eq_some,
    Option.some.injEq]
  constructor
  · rintro ⟨hmem, rfl⟩
    exact ⟨keyId, hmem, rfl, rfl⟩
  · rintro ⟨_, hmem, rfl, rfl⟩
    exact ⟨hmem, rfl⟩

/-! ## Sums of counts -/

theorem plus_assoc (a b c : Count) : (a.plus b).plus c = a.plus (b.plus c) := by
  cases a <;> cases b <;> cases c <;> simp [Count.plus, Nat.add_assoc]

theorem plus_right_comm (a b c : Count) : (a.plus b).plus c = (a.plus c).plus b := by
  cases a <;> cases b <;> cases c <;> simp [Count.plus, Nat.add_right_comm]

@[simp] theorem some_zero_plus (a : Count) : Count.plus (some 0) a = a := by
  cases a <;> simp [Count.plus]

@[simp] theorem plus_some_zero (a : Count) : a.plus (some 0) = a := by
  cases a <;> simp [Count.plus]

theorem foldl_plus (p : String → Bool) (acc : Count) (entries : List (String × Count)) :
    entries.foldl (fun acc e => acc.plus (if p e.1 then e.2 else some 0)) acc =
      acc.plus (countOf p entries) := by
  induction entries generalizing acc with
  | nil => simp [countOf]
  | cons e entries ih => rw [countOf, List.foldl_cons, List.foldl_cons, ih, ih, some_zero_plus, plus_assoc]

@[simp] theorem countOf_nil (p : String → Bool) : countOf p [] = some 0 := rfl

theorem countOf_cons (p : String → Bool) (e : String × Count) (entries : List (String × Count)) :
    countOf p (e :: entries) = (if p e.1 then e.2 else some 0 : Count).plus (countOf p entries) := by
  rw [countOf, List.foldl_cons, foldl_plus, some_zero_plus]

theorem countOf_append (p : String → Bool) (a b : List (String × Count)) :
    countOf p (a ++ b) = (countOf p a).plus (countOf p b) := by
  rw [countOf, List.foldl_append, foldl_plus]
  rfl

theorem countOf_perm (p : String → Bool) {a b : List (String × Count)} (h : a.Perm b) :
    countOf p a = countOf p b :=
  haveI : RightCommutative fun (acc : Count) (e : String × Count) =>
      acc.plus (if p e.1 then e.2 else some 0) := ⟨fun _ _ _ => plus_right_comm _ _ _⟩
  h.foldl_eq _

/-- Does the selection take in an id that is counted as no number? -/
def Illegible (p : String → Bool) (keyIds : List String) : Prop :=
  ∃ keyId ∈ keyIds, p keyId = true ∧ keyId ∈ inheritedMembers

instance (p : String → Bool) (keyIds : List String) : Decidable (Illegible p keyIds) :=
  inferInstanceAs (Decidable (∃ keyId ∈ keyIds, _))

theorem illegible_append (p : String → Bool) (a b : List String) :
    Illegible p (a ++ b) ↔ Illegible p a ∨ Illegible p b := by
  simp only [Illegible, List.mem_append, or_and_right, exists_or]

theorem illegible_cons (p : String → Bool) (keyId : String) (keyIds : List String) :
    Illegible p (keyId :: keyIds) ↔
      p keyId = true ∧ keyId ∈ inheritedMembers ∨ Illegible p keyIds := by
  simp [Illegible]

/-- The sum over one record. -/
theorem countOf_countKeys (p : String → Bool) (keyIds : List String) :
    countOf p (countKeys keyIds).entries =
      if Illegible p keyIds then none else some ((countedIds keyIds).countP p) := by
  have hsum : ∀ l : List String,
      countOf p (l.map fun keyId => (keyId, occurrences keyIds keyId)) =
        if Illegible p l then none else some (((l.filter p).map fun k => keyIds.count k).sum) := by
    intro l
    induction l with
    | nil => simp [Illegible]
    | cons k l ih =>
        rw [List.map_cons, countOf_cons, ih]
        simp only [illegible_cons, occurrences, List.filter_cons]
        by_cases hp : p k = true
        · by_cases hk : k ∈ inheritedMembers
          · simp [hp, hk, Count.plus]
          · by_cases hl : Illegible p l <;> simp [hp, hk, hl, Count.plus]
        · simp [hp]
  have hcount : (((countedIds keyIds).dedup.filter p).map fun k => keyIds.count k) =
      (((countedIds keyIds).dedup.filter p).map fun k => (countedIds keyIds).count k) := by
    refine List.map_congr_left fun k hk => (count_countedIds ?_).symm
    exact (mem_countedIds.mp (List.mem_dedup.mp (List.mem_of_mem_filter hk))).2
  have hillegible : Illegible p (countedIds keyIds).dedup ↔ Illegible p keyIds := by
    simp only [Illegible, List.mem_dedup, mem_countedIds]
    constructor
    · rintro ⟨k, ⟨hk, _⟩, hp⟩
      exact ⟨k, hk, hp⟩
    · rintro ⟨k, hk, hp, hin⟩
      exact ⟨k, ⟨hk, by rintro rfl; revert hin; decide⟩, hp, hin⟩
  rw [countOf_perm p (entries_countKeys_perm keyIds), hsum, hcount,
    List.sum_map_count_dedup_filter_eq_countP]
  simp only [hillegible]

theorem countOf_usage (p : String → Bool) (input : SignedArtefacts) :
    countOf p (collectSigningKeyUsage input).entries =
      if Illegible p input.keyIds then none else some ((countedIds input.keyIds).countP p) := by
  have hcounted : ∀ a b : List String, countedIds (a ++ b) = countedIds a ++ countedIds b :=
    fun a b => List.filter_append _ _
  rw [SigningKeyUsage.entries, countOf_append, countOf_append]
  simp only [collectSigningKeyUsage, countOf_countKeys, SignedArtefacts.keyIds, illegible_append, hcounted,
    List.countP_append]
  split_ifs <;> simp_all [Count.plus]

theorem any_usage (q : String → Bool) (input : SignedArtefacts) :
    ((collectSigningKeyUsage input).entries.any fun e => q e.1 && e.2.isPositive) = true ↔
      ∃ keyId ∈ countedIds input.keyIds, q keyId = true ∧ keyId ∉ inheritedMembers := by
  have hone : ∀ keyIds : List String,
      ((countKeys keyIds).entries.any fun e => q e.1 && e.2.isPositive) = true ↔
        ∃ keyId ∈ countedIds keyIds, q keyId = true ∧ keyId ∉ inheritedMembers := by
    intro keyIds
    rw [(entries_countKeys_perm keyIds).any_eq, List.any_map, List.any_eq_true]
    refine exists_congr fun k => ?_
    rw [List.mem_dedup]
    refine and_congr_right fun hk => ?_
    have hpos : 0 < keyIds.count k := List.count_pos_iff.mpr (mem_countedIds.mp hk).1
    simp only [Function.comp, Bool.and_eq_true, occurrences, Count.isPositive]
    refine and_congr_right fun _ => ?_
    split <;> simp_all
  have hcounted : ∀ a b : List String, countedIds (a ++ b) = countedIds a ++ countedIds b :=
    fun a b => List.filter_append _ _
  simp only [SigningKeyUsage.entries, collectSigningKeyUsage, List.any_append, Bool.or_eq_true, hone,
    SignedArtefacts.keyIds, hcounted, List.mem_append, or_and_right, exists_or]

/-! ## What the report notices -/

def HasStatus (keys : List SigningKey) (status : KeyStatus) (keyId : String) : Prop :=
  ∃ key ∈ keys, key.kid = keyId ∧ key.status = status

/-- The share of the signatures whose key id `p` selects. -/
def SignedArtefacts.share (input : SignedArtefacts) (p : String → Bool) : Rat :=
  (input.keyIds.countP p : Rat) / (input.keyIds.length : Rat)

/-- The share of the signatures counted whose key id could not be read. -/
def SignedArtefacts.unknownShare (input : SignedArtefacts) : Rat :=
  (input.keyIds.count "unknown" : Rat) / ((countedIds input.keyIds).length : Rat)

namespace SigningAnomalyDetector

variable (detector : SigningAnomalyDetector) (keys : List SigningKey) (revokedKids : List String)
  (input : SignedArtefacts)

/-- `collectSigningAnomalies(collectSigningKeyUsage(input))`. -/
def report : SigningAnomalies :=
  detector.collectSigningAnomalies keys (collectSigningKeyUsage input) revokedKids

theorem unknownKeyUsageDetected_iff :
    (detector.report keys revokedKids input).unknownKeyUsageDetected = true ↔
      "unknown" ∈ input.keyIds := by
  refine (any_usage (fun keyId => keyId = "unknown") input).trans ?_
  constructor
  · rintro ⟨keyId, hmem, heq, _⟩
    exact of_decide_eq_true heq ▸ (mem_countedIds.mp hmem).1
  · intro h
    exact ⟨"unknown", mem_countedIds.mpr ⟨h, by decide⟩, by decide, by decide⟩

theorem retiringKeyUsageDetected_iff :
    (detector.report keys revokedKids input).retiringKeyUsageDetected = true ↔
      ∃ keyId ∈ countedIds input.keyIds, keyId ∉ inheritedMembers ∧
        HasStatus (getEffectiveVerificationKeys keys revokedKids) .retiring keyId := by
  refine (any_usage (fun keyId => keyId ∈ ((getEffectiveVerificationKeys keys revokedKids).filter
    fun key => key.status = .retiring).map SigningKey.kid) input).trans ?_
  refine exists_congr fun keyId => and_congr_right fun _ => ?_
  rw [and_comm]
  refine and_congr_right fun _ => ?_
  simp only [decide_eq_true_eq, List.mem_map, List.mem_filter, HasStatus]
  constructor
  · rintro ⟨key, ⟨hkey, hstatus⟩, rfl⟩
    exact ⟨key, hkey, rfl, hstatus⟩
  · rintro ⟨key, hkey, rfl, hstatus⟩
    exact ⟨key, ⟨hkey, hstatus⟩, rfl⟩

theorem unknownKeyUsageRatio_eq :
    (detector.report keys revokedKids input).unknownKeyUsageRatio =
      if ∃ keyId ∈ input.keyIds, keyId ∈ inheritedMembers then 0 else input.unknownShare := by
  have htotal : Illegible (fun _ => true) input.keyIds ↔
      ∃ keyId ∈ input.keyIds, keyId ∈ inheritedMembers := by simp [Illegible]
  have hlegible : ¬ Illegible (fun keyId => decide (keyId = "unknown")) input.keyIds := by
    rintro ⟨keyId, _, heq, hin⟩
    rw [of_decide_eq_true heq] at hin
    revert hin
    decide
  have hcount : (countedIds input.keyIds).countP (fun keyId => decide (keyId = "unknown")) =
      input.keyIds.count "unknown" := count_countedIds (by decide)
  show usageRatio (countOf _ (collectSigningKeyUsage input).entries)
    (countOf _ (collectSigningKeyUsage input).entries) = _
  rw [countOf_usage, countOf_usage, if_neg hlegible, hcount]
  simp only [htotal, List.countP_true]
  split
  · rfl
  · rcases Nat.eq_zero_or_pos (countedIds input.keyIds).length with hzero | hpos
    · simp [usageRatio, Count.isPositive, SignedArtefacts.unknownShare, hzero]
    · simp [usageRatio, Count.isPositive, SignedArtefacts.unknownShare, hpos]

theorem severity_ne_ok_iff :
    (detector.report keys revokedKids input).severity ≠ .ok ↔
      (∃ keyId ∈ countedIds input.keyIds, keyId ∉ inheritedMembers ∧
        HasStatus (getEffectiveVerificationKeys keys revokedKids) .retiring keyId) ∨
      "unknown" ∈ input.keyIds ∧ detector.signingUnknownKeyCriticalRatio <
        (detector.report keys revokedKids input).unknownKeyUsageRatio := by
  rw [← retiringKeyUsageDetected_iff detector, ← unknownKeyUsageDetected_iff detector keys revokedKids]
  have hseverity : ∀ unknown retiring exceeds : Bool, ∀ s : AnomalySeverity,
      s = (if unknown || (retiring && exceeds) then .critical
        else if retiring then .warning else .ok : AnomalySeverity) →
        (s ≠ .ok ↔ retiring = true ∨ unknown = true) := by
    rintro (_ | _) (_ | _) (_ | _) _ rfl <;> decide
  refine (hseverity _ _ _ _ rfl).trans (or_congr_right ?_)
  rw [Bool.and_eq_true, decide_eq_true_eq]
  rfl

/-- A signature with a key id outside the key set, or that of a revoked key, is reported, and the
unknown keys are given their share. -/
def NotMissed : Prop :=
  let verificationKeys := getEffectiveVerificationKeys keys revokedKids
  ((∃ keyId ∈ input.keyIds, keyId ∉ verificationKeys.map SigningKey.kid ∨
      HasStatus verificationKeys .revoked keyId) →
    (detector.report keys revokedKids input).severity ≠ .ok) ∧
  (detector.report keys revokedKids input).unknownKeyUsageRatio =
    input.share fun keyId => keyId ∉ verificationKeys.map SigningKey.kid

/-- What gets a report other than `ok`: a key counted that is retiring, or unreadable key ids that are
more than the critical ratio. -/
def Alarming : Prop :=
  (∃ keyId ∈ countedIds input.keyIds, keyId ∉ inheritedMembers ∧
    HasStatus (getEffectiveVerificationKeys keys revokedKids) .retiring keyId) ∨
  "unknown" ∈ input.keyIds ∧ detector.signingUnknownKeyCriticalRatio <
    (if ∃ keyId ∈ input.keyIds, keyId ∈ inheritedMembers then 0 else input.unknownShare)

/-- The unreadable key ids are, among those counted, what the ids outside the key set are among all.
With an id that is counted as no number, no id may be outside. -/
def Proportional : Prop :=
  let outside := input.keyIds.countP fun keyId =>
    keyId ∉ (getEffectiveVerificationKeys keys revokedKids).map SigningKey.kid
  if (∃ keyId ∈ input.keyIds, keyId ∈ inheritedMembers) ∨ countedIds input.keyIds = [] then outside = 0
  else input.keyIds.count "unknown" * input.keyIds.length = outside * (countedIds input.keyIds).length

theorem ratio_eq_share_iff :
    (detector.report keys revokedKids input).unknownKeyUsageRatio =
        (input.share fun keyId =>
          keyId ∉ (getEffectiveVerificationKeys keys revokedKids).map SigningKey.kid) ↔
      Proportional keys revokedKids input := by
  have hshare : ∀ p : String → Bool, 0 = input.share p ↔ input.keyIds.countP p = 0 := by
    intro p
    have hle : input.keyIds.countP p ≤ input.keyIds.length := List.countP_le_length
    rw [eq_comm, SignedArtefacts.share, div_eq_zero_iff, Nat.cast_eq_zero, Nat.cast_eq_zero]
    omega
  rw [unknownKeyUsageRatio_eq]
  unfold Proportional
  by_cases hinherited : ∃ keyId ∈ input.keyIds, keyId ∈ inheritedMembers
  · rw [if_pos hinherited, if_pos (.inl hinherited), hshare]
  · rw [if_neg hinherited]
    by_cases hempty : countedIds input.keyIds = []
    · rw [if_pos (.inr hempty), ← hshare, SignedArtefacts.unknownShare, hempty, List.length_nil,
        Nat.cast_zero, div_zero]
    · have hcounted : 0 < (countedIds input.keyIds).length := List.length_pos_iff.mpr hempty
      have hall : 0 < input.keyIds.length := hcounted.trans_le (List.length_filter_le _ _)
      rw [if_neg (not_or.mpr ⟨hinherited, hempty⟩), SignedArtefacts.unknownShare, SignedArtefacts.share,
        div_eq_div_iff (Nat.cast_ne_zero.mpr hcounted.ne') (Nat.cast_ne_zero.mpr hall.ne')]
      norm_cast

/-- **What the report catches**: nothing is wrong, or something is alarming; and the unreadable key ids
are in proportion to those outside the key set. -/
theorem anomalies_not_missed_iff :
    detector.NotMissed keys revokedKids input ↔
      ((∀ keyId ∈ input.keyIds,
          keyId ∈ (getEffectiveVerificationKeys keys revokedKids).map SigningKey.kid ∧
          ¬ HasStatus (getEffectiveVerificationKeys keys revokedKids) .revoked keyId) ∨
        detector.Alarming keys revokedKids input) ∧
      Proportional keys revokedKids input := by
  unfold NotMissed Alarming
  refine and_congr ?_ (ratio_eq_share_iff detector keys revokedKids input)
  rw [severity_ne_ok_iff, unknownKeyUsageRatio_eq, imp_iff_not_or]
  refine or_congr_left ?_
  simp only [not_exists, not_and, not_or, not_not]

end SigningAnomalyDetector

/-- A descriptor that names a key, and nothing else of it. -/
def descriptorSignedBy (keyId : String) : Wire.Record :=
  OrderedMap.empty.set "descriptor_key_id" (.str keyId)

/-- Two descriptors, one of them signed with a key that the key set does not have. -/
def foreignSignature : SignedArtefacts where
  descriptors := [descriptorSignedBy "k1", descriptorSignedBy "k2"]
  receipts    := []
  checkpoints := []

theorem foreign_key_missed :
    ¬ (SigningAnomalyDetector.mk (1 / 5) 0).NotMissed
      [⟨"k1", .active, DEFAULT_SCOPES, .hmac "secret"⟩] [] foreignSignature := by
  intro h
  exact h.1 ⟨"k2", by decide, .inl (by decide)⟩ (by decide)

end MapProtocol
