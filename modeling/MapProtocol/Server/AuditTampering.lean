import MapProtocol.Server.AuditManager
import Mathlib.Data.List.Forall2

/-!
# Tampering with the audit log

Whoever changes what the events record, leaves events out or reorders them, but computes no hash anew,
leaves each event with the index and the hashes of one that was recorded. Verification then notices
every change but one: an event whose hashed text stays the same. The text is that of the fields joined
by a bar, it takes an absent tenant for an empty one, and it leaves out the subject.
-/

namespace MapProtocol

structure SameLinks (e t : AuditEvent) : Prop where
  index : t.chainIndex = e.chainIndex
  prev  : t.prevEventHash = e.prevEventHash
  hash  : t.eventHash = e.eventHash

/-- A log of events that have the links of events of `log`, the last of them those of the last. -/
structure Tampers (log tampered : List AuditEvent) : Prop where
  derived : ∀ t ∈ tampered, ∃ e ∈ log, SameLinks e t
  last    : tampered.getLast?.map AuditEvent.chainIndex = log.getLast?.map AuditEvent.chainIndex

def AuditEvent.text (e : AuditEvent) : String :=
  auditText e.toAuditRecord e.chainIndex e.prevEventHash

/-- Event by event, the links are the same and so is the text that is hashed. -/
def SameTexts (log tampered : List AuditEvent) : Prop :=
  List.Forall₂ (fun e t => SameLinks e t ∧ t.text = e.text) log tampered

namespace AuditEnv

variable {env : AuditEnv} {log tampered : List AuditEvent}

theorem chained_of_sameTexts (h : SameTexts log tampered) {index : Nat} {prev : String}
    (hlog : env.Chained index prev log) : env.Chained index prev tampered := by
  induction h generalizing index prev with
  | nil => trivial
  | @cons e t es ts hfirst hrest ih =>
      obtain ⟨hlinks, htext⟩ := hfirst
      obtain ⟨hindex, hprev, hhash, hes⟩ := hlog
      refine ⟨hlinks.index.trans hindex, hlinks.prev.trans hprev, ?_, ?_⟩
      · rw [hlinks.hash, hhash]
        show env.sha256 e.text = env.sha256 t.text
        rw [htext]
      · rw [hlinks.hash]
        exact ih hes

theorem find?_of_sameTexts (h : SameTexts log tampered) {n : Nat} {e : AuditEvent}
    (he : (log.find? fun e => e.chainIndex == n) = some e) :
    ∃ t, (tampered.find? fun e => e.chainIndex == n) = some t ∧ t.eventHash = e.eventHash := by
  induction h with
  | nil => cases he
  | @cons a t es ts hfirst hrest ih =>
      by_cases hn : a.chainIndex = n
      · rw [List.find?_cons_of_pos (by simpa using hn)] at he
        obtain rfl := Option.some.inj he
        refine ⟨t, List.find?_cons_of_pos ?_, hfirst.1.hash⟩
        rw [hfirst.1.index]
        simpa using hn
      · rw [List.find?_cons_of_neg (by simpa using hn)] at he
        rw [List.find?_cons_of_neg]
        · exact ih he
        · rw [hfirst.1.index]
          simpa using hn

theorem length_of_tampers (hlog : env.Chained 0 "GENESIS" log)
    (htampered : env.Chained 0 "GENESIS" tampered) (h : Tampers log tampered) :
    tampered.length = log.length := by
  have hlast := congrArg (fun o => (o.map (· + 1)).getD 1) h.last
  simp only [Option.map_map] at hlast
  have hlog' := hlog.last_chainIndex
  have htampered' := htampered.last_chainIndex
  have hcomp : ∀ es : List AuditEvent,
      (es.getLast?.map ((· + 1) ∘ AuditEvent.chainIndex)).getD 1 =
        (es.getLast?.map fun last => last.chainIndex + 1).getD 1 := fun _ => rfl
  rw [hcomp, hcomp, hlog', htampered'] at hlast
  omega

theorem sameTexts_of_chained (hsha : Function.Injective env.sha256)
    (hlog : env.Chained 0 "GENESIS" log) (htampered : env.Chained 0 "GENESIS" tampered)
    (h : Tampers log tampered) : SameTexts log tampered := by
  refine List.forall₂_iff_get.mpr ⟨(length_of_tampers hlog htampered h).symm, fun i hi hi' => ?_⟩
  have hindex := htampered.chainIndex (List.getElem?_eq_getElem hi')
  obtain ⟨e, he, hlinks⟩ := h.derived _ (List.getElem_mem hi')
  obtain ⟨j, hj, rfl⟩ := List.getElem_of_mem he
  have hindex' := hlog.chainIndex (List.getElem?_eq_getElem hj)
  obtain rfl : j = i := by
    have := hlinks.index
    omega
  refine ⟨hlinks, hsha ?_⟩
  have hhash := hashed_of_chained htampered (List.getElem_mem hi')
  have hhash' := hashed_of_chained hlog (List.getElem_mem hj)
  exact hhash.symm.trans (hlinks.hash.trans hhash')

theorem ok_of_sameTexts {checkpoints : List AuditCheckpoint}
    (hlog : (env.verifyAuditIntegrity log checkpoints).ok = true) (h : SameTexts log tampered) :
    (env.verifyAuditIntegrity tampered checkpoints).ok = true := by
  obtain ⟨hchain, hcheckpoints⟩ := verifyAuditIntegrity_ok.mp hlog
  refine verifyAuditIntegrity_ok.mpr ⟨chained_of_sameTexts h hchain, fun c hc => ?_⟩
  obtain ⟨hnamed, hsigned, e, he, hhash⟩ := hcheckpoints c hc
  obtain ⟨t, ht, hsamehash⟩ := find?_of_sameTexts h he
  exact ⟨hnamed, hsigned, t, ht, hsamehash.trans hhash⟩

/-- **What verification notices.** A log that verifies is tampered with in a way that leaves the
hashes as they are: this is noticed exactly when the hashed texts are not the same. -/
theorem tampering_noticed_iff (env : AuditEnv) (hsha : Function.Injective env.sha256)
    {log tampered : List AuditEvent} {checkpoints : List AuditCheckpoint}
    (hlog : (env.verifyAuditIntegrity log checkpoints).ok = true) (h : Tampers log tampered) :
    (env.verifyAuditIntegrity tampered checkpoints).ok = false ↔ ¬ SameTexts log tampered := by
  rw [Bool.eq_false_iff]
  refine not_congr ⟨fun hok => ?_, ok_of_sameTexts hlog⟩
  exact sameTexts_of_chained hsha (verifyAuditIntegrity_ok.mp hlog).1
    (verifyAuditIntegrity_ok.mp hok).1 h

def sampleLog : List AuditEvent :=
  ((sampleAudit 2).recordAuditEvent sampleRecord ""
    ((sampleAudit 2).recordAuditEvent sampleRecord "" freshAudit).2).2.auditEvents

theorem sampleLog_ok : ((sampleAudit 2).verifyAuditIntegrity sampleLog []).ok = true := by
  have hfirst := @intact_record (sampleAudit 2) Wire.roundtrips_oneKey _
    (intact_fresh (sampleAudit 2)) (show 0 < 2 by decide) sampleRecord ""
  have hsecond := @intact_record (sampleAudit 2) Wire.roundtrips_oneKey _ hfirst
    (show 1 < 2 by decide) sampleRecord ""
  refine verifyAuditIntegrity_ok.mpr ⟨?_, fun _ h => nomatch h⟩
  unfold sampleLog
  exact hsecond.memory.chain

/-- The first event is left out, and this is noticed. -/
theorem removal_noticed :
    ((sampleAudit 2).verifyAuditIntegrity (sampleLog.drop 1) []).ok = false := by
  have htampers : Tampers sampleLog (sampleLog.drop 1) :=
    ⟨fun t ht => ⟨t, List.mem_of_mem_drop ht, rfl, rfl, rfl⟩, rfl⟩
  refine (tampering_noticed_iff (sampleAudit 2) (fun _ _ h => h) sampleLog_ok htampers).mpr ?_
  exact fun h => absurd h.length_eq (by decide)

/-- Another subject is put on the events that were recorded. -/
def retoldLog : List AuditEvent := sampleLog.map fun e => { e with subject := some "someone else" }

/-- This is not noticed. -/
theorem subject_unnoticed : Tampers sampleLog retoldLog ∧ retoldLog ≠ sampleLog ∧
    ((sampleAudit 2).verifyAuditIntegrity retoldLog []).ok = true := by
  have hsame : SameTexts sampleLog retoldLog := by
    refine List.forall₂_map_right_iff.mpr ?_
    exact List.forall₂_same.mpr fun e _ => ⟨⟨rfl, rfl, rfl⟩, rfl⟩
  refine ⟨⟨fun t ht => ?_, rfl⟩, ?_, ok_of_sameTexts sampleLog_ok hsame⟩
  · obtain ⟨e, he, rfl⟩ := List.mem_map.mp ht
    exact ⟨e, he, rfl, rfl, rfl⟩
  · intro heq
    have hsubjects := congrArg (List.map fun e : AuditEvent => e.subject) heq
    exact absurd hsubjects (by decide)

end AuditEnv

end MapProtocol
