import MapProtocol.Js.JsonNumbers
import MapProtocol.Lib.BinaryRounding

/-!
# Doubles

A number of JavaScript is a double. Here it is the rational number that it stands for, or, if it is an
infinity, one that is too large in magnitude. A literal is read as the double nearest to what it
denotes (`toDouble`), and `Number::toString` writes as few digits as are read back as the number.
-/

namespace MapProtocol.Js

open BinaryRounding NumberText

def binary64 : Format := { fractionBits := 52, minExponent := -1074 }

def toDouble (q : Rat) : Rat := binary64.nearest q

/-- `Number.isFinite(n)`. -/
def isFinite (n : Rat) : Bool := |n| < 2 ^ 1024

theorem toDouble_toDouble (q : Rat) : toDouble (toDouble q) = toDouble q :=
  binary64.nearest_nearest q

theorem toDouble_neg (q : Rat) : toDouble (-q) = -toDouble q := binary64.nearest_neg q

theorem decimal_toDouble (q : Rat) : Decimal (toDouble q) := by
  obtain ⟨m, e, -, -, hq⟩ := binary64.representable_nearest q
  refine ⟨(-e).toNat, ?_⟩
  have hint : (m : Rat) * 2 ^ e * 10 ^ (-e).toNat =
      ((m * 2 ^ (e + (-e).toNat).toNat * 5 ^ (-e).toNat : Int) : Rat) := by
    have hpow : (2 : Rat) ^ (e + (-e).toNat).toNat = 2 ^ e * 2 ^ (-e).toNat := by
      rw [← zpow_natCast, ← zpow_natCast, ← zpow_add₀ (by norm_num), Int.toNat_of_nonneg (by omega)]
    push_cast
    rw [hpow, show (10 : Rat) = 2 * 5 by norm_num, mul_pow]
    ring
  show (binary64.nearest q * 10 ^ (-e).toNat).den = 1
  rw [hq, hint]
  exact Rat.den_intCast _

theorem den_toDouble {q : Rat} (h : 2 ^ 53 ≤ |q|) : (toDouble q).den = 1 := by
  have hlt := binary64.abs_lt_zpow q
  have hexponent : 0 ≤ binary64.exponent q := by
    have hpow : (2 : Rat) ^ (53 : Int) < 2 ^ (binary64.exponent q + 52 + 1) :=
      lt_of_le_of_lt h hlt
    have hexp := (zpow_lt_zpow_iff_right₀ (by norm_num)).mp hpow
    omega
  obtain ⟨k, hk⟩ := Int.eq_ofNat_of_zero_le hexponent
  unfold toDouble Format.nearest
  rw [hk, zpow_natCast]
  exact_mod_cast Rat.den_intCast (roundEven (q / 2 ^ k) * 2 ^ k)

theorem toDouble_zero : toDouble 0 = 0 := by
  have h := toDouble_neg 0
  rw [neg_zero] at h
  linarith

/-! ## Integers as text -/

/-- The two integers next to `m / 10 ^ z`, the closer one first; where both are as close, the even
one. -/
def closest (m z : Nat) : List Nat :=
  let below := m / 10 ^ z
  let rest := m % 10 ^ z
  if 2 * rest < 10 ^ z ∨ 2 * rest = 10 ^ z ∧ below % 2 = 0 then [below, below + 1]
  else [below + 1, below]

/-- Digits, and how many zeros follow them, that are read back as `m`: as few digits as do, of at most
`fuel` zeros, and of those the closest. -/
def shortestDigits (m : Nat) : Nat → Nat × Nat
  | 0        => (m, 0)
  | fuel + 1 =>
      -- the more zeros, the fewer digits
      match (closest m (fuel + 1)).find? fun (s : Nat) => toDouble (s * 10 ^ (fuel + 1)) = m with
      | some s => (s, fuel + 1)
      | none   => shortestDigits m fuel

/-- `n.toString()`, for an integer. -/
def integerToString (n : Rat) : String :=
  if n = 0 then "0"
  else
    let m := n.num.natAbs
    let (digits, zeros) := shortestDigits m (toString m).length
    let text := (toString digits).toList
    (if n < 0 then "-" else "") ++ layoutNumber text (text.length + zeros)

theorem toDouble_shortestDigits {m : Nat} (h : toDouble m = m) (fuel : Nat) :
    toDouble ((shortestDigits m fuel).1 * 10 ^ (shortestDigits m fuel).2) = m := by
  induction fuel with
  | zero => simpa [shortestDigits] using h
  | succ fuel ih =>
      unfold shortestDigits
      split
      · rename_i s hs
        simpa using List.find?_some hs
      · exact ih

/-- **An integer is written as a literal that is read back as it.** -/
theorem integerToString_text {n : Rat} (hint : n.den = 1) (hdouble : toDouble n = n) :
    ∃ t : NumberText, t.WellFormed ∧ (integerToString n).toList = t.chars ∧
      toDouble t.value = n := by
  unfold integerToString
  by_cases hzero : n = 0
  · rw [if_pos hzero, hzero]
    refine ⟨⟨false, ['0'], [], none⟩, ⟨by simp, by simp [isDigit], by simp, by simp, by simp⟩, rfl, ?_⟩
    simpa [value, magnitude, digitsValue] using toDouble_zero
  · have hnum : ((n.num.natAbs : Nat) : Rat) = |n| := by
      rw [Nat.cast_natAbs, Int.cast_abs, (Rat.den_eq_one_iff n).mp hint]
    have habs : toDouble (n.num.natAbs : Nat) = (n.num.natAbs : Nat) := by
      rw [hnum]
      rcases abs_choice n with habs | habs
      · rw [habs, hdouble]
      · rw [habs, toDouble_neg, hdouble]
    have hdigits := toDouble_shortestDigits habs (toString n.num.natAbs).length
    rw [if_neg hzero]
    dsimp only
    generalize shortestDigits n.num.natAbs (toString n.num.natAbs).length = written at hdigits ⊢
    obtain ⟨digits, zeros⟩ := written
    dsimp only at hdigits ⊢
    have hpositive : 0 < digits := by
      rcases Nat.eq_zero_or_pos digits with rfl | hpos
      · rw [Nat.cast_zero, zero_mul, toDouble_zero, hnum] at hdigits
        exact absurd (abs_eq_zero.mp hdigits.symm) hzero
      · exact hpos
    obtain ⟨t, hwell, hplus, htext, hmagnitude⟩ := lays_layoutNumber (toString_ne_nil digits)
      (fun _ => isDigit_of_mem_toString) (head_toString hpositive)
      ((toString digits).toList.length + zeros)
    have hvalue : toDouble t.magnitude = |n| := by
      rw [hmagnitude, digitsValue_toString, add_sub_cancel_left, zpow_natCast, hdigits, hnum]
    refine ⟨{ t with negative := decide (n < 0) }, ⟨hwell.nonempty, hwell.whole, hwell.leading,
      hwell.fraction, hwell.exponent⟩, ?_, ?_⟩
    · rw [String.toList_append, htext]
      unfold chars
      by_cases hneg : n < 0 <;> simp [hneg, unsignedChars]
    · show toDouble (if decide (n < 0) = true then -t.magnitude else t.magnitude) = n
      by_cases hneg : n < 0
      · rw [if_pos (decide_eq_true hneg), toDouble_neg, hvalue, abs_of_neg hneg, neg_neg]
      · rw [if_neg (by simpa using hneg), hvalue, abs_of_nonneg (not_lt.mp hneg)]

end MapProtocol.Js
