import Mathlib.Data.List.Basic
import Mathlib.Order.Basic

/-!
# Limits over a sliding window

A limiter keeps the times of what it admitted, drops the oldest of them while they are too old, and
admits while fewer than its limit are left. `Accounts` relates the times that it keeps to the log of
all it ever admitted: what is still young is kept, and no window of the width holds more than the
limit.
-/

namespace MapProtocol.SlidingWindow

/-- The times without the oldest, while these are too old. -/
def prune (width now : Int) (times : List Int) : List Int :=
  times.dropWhile fun t => decide (width < now - t)

variable {width now : Int} {limit : Nat} {times log : List Int}

theorem prune_of_young (h : ∀ t, times.head? = some t → now - t ≤ width) :
    prune width now times = times := by
  cases times with
  | nil => rfl
  | cons t ts =>
      have ht := h t rfl
      exact List.dropWhile_cons_of_neg (by simpa using ht)

theorem young_of_head?_prune {t : Int} (h : (prune width now times).head? = some t) :
    now - t ≤ width := by
  have hne : prune width now times ≠ [] := by
    intro hnil
    rw [hnil] at h
    cases h
  have hhead := List.head_dropWhile_not (fun t => decide (width < now - t)) hne
  obtain rfl : (prune width now times).head hne = t :=
    Option.some.inj ((List.head?_eq_some_head hne).symm.trans h)
  exact Int.not_lt.mp (of_decide_eq_false hhead)

@[simp] theorem prune_idem (times : List Int) :
    prune width now (prune width now times) = prune width now times :=
  prune_of_young fun _ ht => young_of_head?_prune ht

/-- Pruning again later. -/
theorem prune_prune {later : Int} (h : now ≤ later) (times : List Int) :
    prune width later (prune width now times) = prune width later times := by
  induction times with
  | nil => rfl
  | cons t ts ih =>
      by_cases hold : width < now - t
      · have hlater : width < later - t := by omega
        unfold prune at ih ⊢
        rw [List.dropWhile_cons_of_pos (by simpa using hold),
          List.dropWhile_cons_of_pos (by simpa using hlater), ih]
      · rw [@prune_of_young width now (t :: ts)]
        rintro _ ⟨rfl⟩
        omega

/-- Of times in order, pruning leaves none that is too old. -/
theorem filter_young_prune (h : times.Pairwise (· ≤ ·)) :
    ((prune width now times).filter fun t => decide (now - t ≤ width)) = prune width now times := by
  have hsorted : (prune width now times).Pairwise (· ≤ ·) := h.sublist (List.dropWhile_sublist _)
  rw [List.filter_eq_self]
  intro t ht
  cases hpruned : prune width now times with
  | nil => simp [hpruned] at ht
  | cons first rest =>
      have hyoung : now - first ≤ width := young_of_head?_prune (by rw [hpruned]; rfl)
      rw [hpruned] at hsorted ht
      rcases List.mem_cons.mp ht with rfl | hrest
      · exact decide_eq_true hyoung
      · have hle := (List.pairwise_cons.mp hsorted).1 t hrest
        exact decide_eq_true (by omega)

/-- What was just admitted is not pruned. -/
theorem prune_append_now (hwidth : 0 ≤ width) (times : List Int) :
    prune width now (times ++ [now]) = prune width now times ++ [now] := by
  induction times with
  | nil => exact prune_of_young (by rintro _ ⟨rfl⟩; omega)
  | cons t ts ih =>
      by_cases hold : width < now - t
      · unfold prune at ih ⊢
        rw [List.cons_append, List.dropWhile_cons_of_pos (by simpa using hold),
          List.dropWhile_cons_of_pos (by simpa using hold), ih]
      · have hyoung : ∀ ts', prune width now (t :: ts') = t :: ts' :=
          fun ts' => prune_of_young (by rintro _ ⟨rfl⟩; omega)
        rw [List.cons_append, hyoung, hyoung, List.cons_append]

/-- Young times of a log that the limiter keeps are kept when it prunes. -/
theorem sublist_prune {young : List Int} (h : young.Sublist times)
    (hyoung : ∀ t ∈ young, now - t ≤ width) : young.Sublist (prune width now times) := by
  induction h with
  | slnil => exact List.Sublist.slnil
  | @cons young times t hsub ih =>
      by_cases hold : width < now - t
      · unfold prune at ih ⊢
        rw [List.dropWhile_cons_of_pos (by simpa using hold)]
        exact ih hyoung
      · rw [@prune_of_young width now (t :: times) (by rintro _ ⟨rfl⟩; omega)]
        exact hsub.cons t
  | @cons_cons young times t hsub ih =>
      have ht := hyoung t List.mem_cons_self
      rw [@prune_of_young width now (t :: times) (by rintro _ ⟨rfl⟩; omega)]
      exact hsub.cons_cons t

/-! ## The log of a limiter -/

/-- What a limiter keeps, as an account of all that it admitted. -/
structure Accounts (width : Int) (limit : Nat) (now : Int) (times log : List Int) : Prop where
  kept    : (log.filter fun t => decide (now - t ≤ width)).Sublist times
  past    : ∀ t ∈ log, t ≤ now
  bounded : ∀ start,
    (log.filter fun t => decide (start ≤ t ∧ t ≤ start + width)).length ≤ limit

namespace Accounts

theorem nil (times : List Int) : Accounts width limit now times [] where
  kept := List.nil_sublist times
  past _ h := nomatch h
  bounded _ := Nat.zero_le _

/-- Time passes. -/
theorem later (h : Accounts width limit now times log) {now' : Int} (hnow : now ≤ now') :
    Accounts width limit now' times log where
  kept := by
    refine List.Sublist.trans (List.monotone_filter_right log fun t ht => ?_) h.kept
    simp only [decide_eq_true_eq] at ht ⊢
    omega
  past t ht := Int.le_trans (h.past t ht) hnow
  bounded := h.bounded

/-- The limiter may keep more than it must, and may prune. -/
theorem prune_iff : Accounts width limit now (prune width now times) log ↔
    Accounts width limit now times log := by
  constructor
  · intro h
    exact ⟨h.kept.trans (List.dropWhile_sublist _), h.past, h.bounded⟩
  · intro h
    refine ⟨sublist_prune h.kept fun t ht => ?_, h.past, h.bounded⟩
    simpa using (List.mem_filter.mp ht).2

theorem grow (h : Accounts width limit now times log) (t : Int) :
    Accounts width limit now (times ++ [t]) log :=
  ⟨h.kept.trans (List.sublist_append_left _ _), h.past, h.bounded⟩

/-- **Admission under the limit**: the windows that hold the present hold only what is kept. -/
theorem append_now (h : Accounts width limit now times log) (hroom : times.length < limit) :
    Accounts width limit now (times ++ [now]) (log ++ [now]) where
  kept := by
    rw [List.filter_append]
    exact h.kept.append List.filter_sublist
  past t ht := by
    rcases List.mem_append.mp ht with ht | ht
    · exact h.past t ht
    · exact Int.le_of_eq (List.mem_singleton.mp ht)
  bounded start := by
    rw [List.filter_append, List.length_append]
    by_cases hinside : start ≤ now ∧ now ≤ start + width
    · have hkept : (log.filter fun t => decide (start ≤ t ∧ t ≤ start + width)).length ≤
          times.length := by
        refine List.Sublist.length_le (List.Sublist.trans ?_ h.kept)
        refine List.monotone_filter_right log fun t ht => ?_
        simp only [decide_eq_true_eq] at ht ⊢
        omega
      have hlast := List.length_filter_le (fun t => decide (start ≤ t ∧ t ≤ start + width)) [now]
      rw [List.length_singleton] at hlast
      omega
    · rw [List.filter_cons_of_neg (by simpa using hinside), List.filter_nil]
      exact h.bounded start

end Accounts

/-! ## A full limiter -/

/-- Whether the limiter refuses; without a limit it never does. -/
def Full (width now : Int) (limit : Option Nat) (times : List Int) : Prop :=
  ∃ n, limit = some n ∧ n ≤ (prune width now times).length

theorem full_prune {later : Int} (h : now ≤ later) {limit : Option Nat} :
    Full width later limit (prune width now times) ↔ Full width later limit times := by
  unfold Full
  rw [prune_prune h]

instance (limit : Option Nat) (times : List Int) : Decidable (Full width now limit times) :=
  match limit with
  | none   => isFalse fun ⟨_, h, _⟩ => nomatch h
  | some n =>
      decidable_of_iff (n ≤ (prune width now times).length)
        ⟨fun h => ⟨n, rfl, h⟩, fun ⟨_, h, hn⟩ => Option.some.inj h ▸ hn⟩

/-- How long a full limiter asks to wait. -/
def retryAfter (width now : Int) (kept : List Int) : Int := max 1 (width - (now - kept.headD now))

/-- **What waiting as long as asked is good for**: no more than waiting one unit of time. The oldest
time is dropped only after it is older than the width. -/
theorem full_retryAfter {limit : Option Nat} :
    Full width (now + retryAfter width now (prune width now times)) limit times ↔
      Full width (now + 1) limit times := by
  have hlater : now ≤ now + retryAfter width now (prune width now times) := by
    unfold retryAfter
    omega
  rw [← full_prune hlater, ← full_prune (show now ≤ now + 1 by omega)]
  unfold Full
  cases hkept : prune width now times with
  | nil => rfl
  | cons oldest rest =>
      have hyoung : now - oldest ≤ width := young_of_head?_prune (by rw [hkept]; rfl)
      by_cases hage : now - oldest = width
      · have hone : retryAfter width now (oldest :: rest) = 1 := by
          unfold retryAfter
          rw [List.headD_cons, hage]
          omega
        rw [hone]
      · have hwait : retryAfter width now (oldest :: rest) = width - (now - oldest) := by
          unfold retryAfter
          rw [List.headD_cons]
          omega
        rw [hwait, prune_of_young, prune_of_young]
        all_goals
          rintro _ ⟨rfl⟩
          omega

end MapProtocol.SlidingWindow
