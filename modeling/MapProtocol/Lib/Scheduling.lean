import Mathlib.Data.List.DropRight
import Mathlib.Logic.Relation

/-!
# Scheduling by class

A scheduler holds a queue of jobs, each of a class, and a count of what runs in each class. It takes
the earliest queued job whose class is below its limit. `Scheduler.Move` lists what may happen to
such a scheduler; a system *schedules by class* when each of its steps is a sequence of these moves.

Two things then hold in every state, for any job type and any classes: the fresh jobs of a class are
taken in the order they were accepted (`Scheduler.InOrder`), and the queue stays within its depth.

The last section is about a list that keeps the most recent entries only.
-/

namespace MapProtocol.Scheduling

/-! ## The earliest job that is ready -/

/-- `job` is the earliest element of `queue` that is `ready`: it stands between `ahead`, where no
job is ready, and `behind`. -/
structure Earliest {α : Type*} (ready : α → Prop) (queue ahead : List α) (job : α)
    (behind : List α) : Prop where
  split   : queue = ahead ++ job :: behind
  holds   : ready job
  blocked : ∀ other ∈ ahead, ¬ ready other

/-- A scheduler. `accepted` and `taken` are history: the fresh jobs in the order they came, and the
jobs in the order they left the queue. -/
@[ext] structure Scheduler (α κ : Type*) where
  queue    : List α
  running  : List α
  slots    : Nat
  counted  : κ → Nat
  limit    : κ → Nat
  accepted : List α
  taken    : List α

namespace Scheduler

variable {α κ : Type*} {key : α → κ}

/-- The job's class is below its limit, by the scheduler's own count. -/
def Ready (key : α → κ) (s : Scheduler α κ) (job : α) : Prop :=
  s.counted (key job) < s.limit (key job)

/-- No job of its class stands ahead of the earliest job that is ready. -/
theorem key_ne_of_ahead {s : Scheduler α κ} {ahead behind : List α} {job other : α}
    (h : Earliest (Ready key s) s.queue ahead job behind) (hmem : other ∈ ahead) :
    key other ≠ key job := by
  intro heq
  have hblocked := h.blocked other hmem
  unfold Ready at hblocked
  rw [heq] at hblocked
  exact hblocked h.holds

variable [DecidableEq κ] {fresh : α → Bool} {total depth : Nat}

/-- One more job of the class counted. -/
def occupied (s : Scheduler α κ) (k : κ) : Scheduler α κ :=
  { s with
    slots := s.slots + 1
    counted := fun k' => if k = k' then s.counted k' + 1 else s.counted k' }

/-- One job of the class counted less. -/
def freed (s : Scheduler α κ) (k : κ) : Scheduler α κ :=
  { s with
    slots := s.slots - 1
    counted := fun k' => if k = k' then s.counted k' - 1 else s.counted k' }

/-- The job leaves the queue for the running jobs. -/
def start (key : α → κ) (s : Scheduler α κ) (ahead : List α) (job : α) (behind : List α) :
    Scheduler α κ :=
  { s.occupied (key job) with
    queue := ahead ++ behind
    running := s.running ++ [job]
    taken := s.taken ++ [job] }

/-- **The moves of a scheduler** with `total` slots and room for `depth` queued jobs. A job that
comes back is not `fresh`. -/
inductive Move (key : α → κ) (fresh : α → Bool) (total depth : Nat) :
    Scheduler α κ → Scheduler α κ → Prop
  | accept {s : Scheduler α κ} {job : α} (hroom : s.queue.length < depth)
      (hfresh : fresh job = true) :
      Move key fresh total depth s
        { s with queue := s.queue ++ [job], accepted := s.accepted ++ [job] }
  | requeue {s : Scheduler α κ} {job : α} (hroom : s.queue.length < depth)
      (hfresh : fresh job = false) :
      Move key fresh total depth s { s with queue := s.queue ++ [job] }
  | start {s : Scheduler α κ} {ahead behind : List α} {job : α} (hslot : s.slots < total)
      (hearliest : Earliest (Ready key s) s.queue ahead job behind) :
      Move key fresh total depth s (s.start key ahead job behind)
  | leave {s : Scheduler α κ} {l₁ l₂ : List α} {job : α} (hrunning : s.running = l₁ ++ job :: l₂) :
      Move key fresh total depth s { s with running := l₁ ++ l₂ }
  | free {s : Scheduler α κ} {job : α} : Move key fresh total depth s (s.freed (key job))
  | reclaim {s : Scheduler α κ} {n : Nat} (hle : n ≤ s.slots) :
      Move key fresh total depth s { s with slots := n }
  | limit {s : Scheduler α κ} {limits : κ → Nat} :
      Move key fresh total depth s { s with limit := limits }

/-! ## Fairness within a class -/

def freshOf (key : α → κ) (fresh : α → Bool) (k : κ) (jobs : List α) : List α :=
  jobs.filter fun job => fresh job && decide (key job = k)

/-- **First come, first served.** Of every class, the fresh jobs taken so far, followed by those
still queued, are the accepted ones in the order they came. -/
def InOrder (key : α → κ) (fresh : α → Bool) (s : Scheduler α κ) : Prop :=
  ∀ k, freshOf key fresh k s.taken ++ freshOf key fresh k s.queue = freshOf key fresh k s.accepted

@[simp] theorem freshOf_append (k : κ) (l₁ l₂ : List α) :
    freshOf key fresh k (l₁ ++ l₂) = freshOf key fresh k l₁ ++ freshOf key fresh k l₂ := by
  simp [freshOf]

/-- Moving the earliest ready job to the end of the taken ones keeps the order of every class. -/
theorem freshOf_earliest {s : Scheduler α κ} {ahead behind : List α} {job : α}
    (h : Earliest (Ready key s) s.queue ahead job behind) (k : κ) :
    freshOf key fresh k [job] ++ freshOf key fresh k (ahead ++ behind) =
      freshOf key fresh k s.queue := by
  have hcons : job :: behind = [job] ++ behind := rfl
  rw [h.split, hcons, freshOf_append, freshOf_append, freshOf_append, ← List.append_assoc,
    ← List.append_assoc]
  congr 1
  by_cases hk : key job = k
  · have hahead : freshOf key fresh k ahead = [] := by
      refine List.filter_eq_nil_iff.mpr fun other hmem => ?_
      have hne := key_ne_of_ahead h hmem
      rw [hk] at hne
      simp [hne]
    rw [hahead, List.append_nil, List.nil_append]
  · have hjob : freshOf key fresh k [job] = [] := by simp [freshOf, hk]
    rw [hjob, List.append_nil, List.nil_append]

/-- Every move serves the classes in order. -/
theorem Move.inOrder {s s' : Scheduler α κ} (h : Move key fresh total depth s s')
    (hs : InOrder key fresh s) : InOrder key fresh s' := by
  intro k
  have hk := hs k
  cases h with
  | accept hroom hfresh =>
      dsimp only
      rw [freshOf_append, freshOf_append, ← List.append_assoc, hk]
  | @requeue job hroom hfresh =>
      have hjob : freshOf key fresh k [job] = [] := by simp [freshOf, hfresh]
      dsimp only
      rw [freshOf_append, hjob, List.append_nil, hk]
  | start hslot hearliest =>
      show freshOf key fresh k (s.taken ++ [_]) ++ freshOf key fresh k (_ ++ _) = _
      rw [freshOf_append, List.append_assoc, freshOf_earliest hearliest, hk]
      rfl
  | leave hrunning => exact hk
  | free => exact hk
  | reclaim hle => exact hk
  | limit => exact hk

/-- Every move keeps the queue within its depth. -/
theorem Move.queue_length_le {s s' : Scheduler α κ} (h : Move key fresh total depth s s')
    (hs : s.queue.length ≤ depth) : s'.queue.length ≤ depth := by
  cases h with
  | accept hroom hfresh =>
      rw [List.length_append, List.length_singleton]
      exact hroom
  | requeue hroom hfresh =>
      rw [List.length_append, List.length_singleton]
      exact hroom
  | start hslot hearliest =>
      show (_ ++ _ : List α).length ≤ depth
      rw [hearliest.split, List.length_append, List.length_cons] at hs
      rw [List.length_append]
      omega
  | leave hrunning => exact hs
  | free => exact hs
  | reclaim hle => exact hs
  | limit => exact hs

end Scheduler

/-! ## The most recent entries -/

variable {α : Type*}

/-- Keeping the last `n` after every arrival is keeping the last `n` of all that arrived. -/
theorem rtake_append_singleton (n : Nat) (l : List α) (a : α) :
    (l.rtake n ++ [a]).rtake n = (l ++ [a]).rtake n := by
  cases n with
  | zero => simp
  | succ n =>
      rw [List.rtake_concat_succ, List.rtake_concat_succ]
      congr 1
      rw [List.rtake_eq_reverse_take_reverse, List.rtake_eq_reverse_take_reverse,
        List.rtake_eq_reverse_take_reverse, List.reverse_reverse, List.take_take]
      simp

end MapProtocol.Scheduling
