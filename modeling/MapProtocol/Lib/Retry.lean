import Mathlib.Data.List.Basic

/-!
# Retry loops

A loop that may try `n` times, counted from the `k`-th attempt, and that goes on after an attempt as
long as `again` says so. `tries` counts the attempts that it makes.
-/

namespace MapProtocol

variable {again : Nat → Bool}

def tries (again : Nat → Bool) : Nat → Nat → Nat
  | 0, _     => 0
  | n + 1, k => 1 + if again k then tries again n (k + 1) else 0

/-- The attempts made are those that every attempt before them called for. -/
theorem lt_tries_iff {n k i : Nat} :
    i < tries again n k ↔ i < n ∧ ∀ j < i, again (k + j) = true := by
  induction n generalizing k i with
  | zero => simp [tries]
  | succ n ih =>
      cases i with
      | zero =>
          simp only [tries, Nat.not_lt_zero, false_implies, implies_true, and_true]
          omega
      | succ i =>
          rw [tries, Nat.forall_lt_succ_left, Nat.add_zero]
          cases hagain : again k with
          | false => simp
          | true =>
              have hshift : ∀ j, k + 1 + j = k + (j + 1) := by
                intro j
                omega
              have hnext : i < tries again n (k + 1) ↔
                  i < n ∧ ∀ j < i, again (k + (j + 1)) = true := by
                simpa only [hshift] using @ih (k + 1) i
              simp only [if_true, true_and]
              constructor
              · intro h
                obtain ⟨hi, hall⟩ := hnext.mp (by omega)
                exact ⟨by omega, hall⟩
              · rintro ⟨hi, hall⟩
                have hmade := hnext.mpr ⟨by omega, hall⟩
                omega

theorem tries_le (again : Nat → Bool) (n k : Nat) : tries again n k ≤ n := by
  by_contra h
  have hlast : n < tries again n k := Nat.lt_of_not_le h
  exact Nat.lt_irrefl n (lt_tries_iff.mp hlast).1

theorem tries_pos_iff {n k : Nat} : 0 < tries again n k ↔ 0 < n := by
  rw [lt_tries_iff]
  simp

/-- Every attempt is made if each calls for the next. -/
theorem tries_eq_iff {n k : Nat} :
    tries again n k = n ↔ ∀ j, j + 1 < n → again (k + j) = true := by
  cases n with
  | zero => simp [tries]
  | succ n =>
      have hle := tries_le again (n + 1) k
      have hlast : n < tries again (n + 1) k ↔ ∀ j, j + 1 < n + 1 → again (k + j) = true := by
        rw [lt_tries_iff]
        constructor
        · exact fun h j hj => h.2 j (by omega)
        · exact fun h => ⟨by omega, fun j hj => h j (by omega)⟩
      rw [← hlast]
      omega

/-- After an attempt that is made another follows, while it may, if and only if it calls for one. -/
theorem next_iff {n i : Nat} (hmade : i < tries again n 0) (hmore : i + 1 < n) :
    i + 1 < tries again n 0 ↔ again i = true := by
  obtain ⟨-, hall⟩ := lt_tries_iff.mp hmade
  rw [lt_tries_iff]
  constructor
  · intro h
    simpa using h.2 i (Nat.lt_succ_self i)
  · intro hagain
    refine ⟨hmore, fun j hj => ?_⟩
    rcases Nat.lt_succ_iff_lt_or_eq.mp hj with hj | rfl
    · exact hall j hj
    · simpa using hagain

/-- A loop follows verdicts if after each attempt that is made, while more are allowed, it does what
the verdict says, where there is one. -/
def ObeysVerdicts (again : Nat → Bool) (verdict : Nat → Option Bool) (n : Nat) : Prop :=
  ∀ i v, i < tries again n 0 → i + 1 < n → verdict i = some v →
    (i + 1 < tries again n 0 ↔ v = true)

theorem obeysVerdicts_iff {verdict : Nat → Option Bool} {n : Nat} :
    ObeysVerdicts again verdict n ↔ ∀ i v, i + 1 < n → (∀ j < i, again j = true) →
      verdict i = some v → again i = v := by
  have hmade : ∀ i, i + 1 < n → (i < tries again n 0 ↔ ∀ j < i, again j = true) := by
    intro i hi
    rw [lt_tries_iff]
    simp only [Nat.zero_add]
    exact ⟨And.right, fun h => ⟨by omega, h⟩⟩
  constructor
  · intro h i v hi hbefore hverdict
    have hreached := (hmade i hi).mpr hbefore
    rw [Bool.eq_iff_iff, ← next_iff hreached hi]
    exact h i v hreached hi hverdict
  · intro h i v hreached hi hverdict
    rw [next_iff hreached hi, h i v hi ((hmade i hi).mp hreached) hverdict]

end MapProtocol
