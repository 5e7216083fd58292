import Mathlib.Algebra.Order.Field.Power
import Mathlib.Algebra.Order.Round
import Mathlib.Data.Int.Log
import Mathlib.Data.Rat.Floor
import Mathlib.Tactic.FieldSimp
import Mathlib.Tactic.Linarith
import Mathlib.Tactic.Ring

/-!
# Rounding to binary floating point

A format has the numbers `m · 2 ^ e` of at most `fractionBits + 1` binary digits, from a least
exponent on. A rational number is rounded to the nearest of them; of two that are as near, to the one
whose `m` is even. There is no greatest exponent: what overflows is for the user of the format to say.
-/

namespace MapProtocol.BinaryRounding

/-! ## Rounding to an integer -/

/-- The nearest integer; of two, the even one. -/
def roundEven (x : Rat) : Int :=
  if x - ⌊x⌋ < 1 / 2 then ⌊x⌋
  else if 1 / 2 < x - ⌊x⌋ then ⌊x⌋ + 1
  else if 2 ∣ ⌊x⌋ then ⌊x⌋ else ⌊x⌋ + 1

theorem roundEven_spec (x : Rat) :
    |x - roundEven x| < 1 / 2 ∨ |x - roundEven x| = 1 / 2 ∧ 2 ∣ roundEven x := by
  have hfloor : 0 ≤ x - ⌊x⌋ := sub_nonneg.mpr (Int.floor_le x)
  have hnext : x - (⌊x⌋ + 1) < 0 := by
    have hlt := Int.lt_floor_add_one x
    linarith
  unfold roundEven
  split
  · left
    rwa [abs_of_nonneg hfloor]
  · split
    · left
      push_cast
      rw [abs_of_neg hnext]
      linarith
    · split
      · right
        refine ⟨?_, ‹_›⟩
        rw [abs_of_nonneg hfloor]
        linarith
      · right
        refine ⟨?_, by omega⟩
        push_cast
        rw [abs_of_neg hnext]
        linarith

theorem abs_sub_roundEven (x : Rat) : |x - roundEven x| ≤ 1 / 2 :=
  (roundEven_spec x).elim le_of_lt fun h => h.1.le

/-- No other integer is as near, or it is odd. -/
theorem roundEven_eq {x : Rat} {m : Int}
    (h : |x - m| < 1 / 2 ∨ |x - m| = 1 / 2 ∧ 2 ∣ m) : roundEven x = m := by
  have hle : |x - m| ≤ 1 / 2 := h.elim le_of_lt fun h => h.1.le
  have hround := roundEven_spec x
  generalize roundEven x = n at hround ⊢
  have hround' : |x - n| ≤ 1 / 2 := hround.elim le_of_lt fun h => h.1.le
  rw [abs_le] at hle hround'
  have hnm : (n : Rat) ≤ (m + 1 : Int) := by push_cast; linarith
  have hmn : (m : Rat) ≤ (n + 1 : Int) := by push_cast; linarith
  rw [Int.cast_le] at hnm hmn
  by_contra hne
  -- the number stands in the middle between the two, and one of them is odd
  rcases (by omega : n = m + 1 ∨ m = n + 1) with rfl | rfl
  · push_cast at hround' hround
    have hx : x - m = 1 / 2 := by linarith
    have hx' : x - (m + 1) = -(1 / 2) := by linarith
    rw [hx] at h
    rw [hx'] at hround
    norm_num at h hround
    omega
  · push_cast at hle h
    have hx : x - n = 1 / 2 := by linarith
    have hx' : x - (n + 1) = -(1 / 2) := by linarith
    rw [hx'] at h
    rw [hx] at hround
    norm_num at h hround
    omega

theorem roundEven_intCast (m : Int) : roundEven m = m :=
  roundEven_eq (.inl (by norm_num))

theorem roundEven_neg (x : Rat) : roundEven (-x) = -roundEven x := by
  refine roundEven_eq ?_
  have habs : |-x - (-roundEven x : Int)| = |x - roundEven x| := by
    rw [← abs_neg]
    congr 1
    push_cast
    ring
  rw [habs, Int.dvd_neg]
  exact roundEven_spec x

theorem abs_roundEven_le {x : Rat} {n : Nat} (h : |x| ≤ n) : |roundEven x| ≤ n := by
  have hround := abs_sub_roundEven x
  have htriangle : |(roundEven x : Rat)| ≤ |x| + |x - roundEven x| := by
    rw [abs_sub_comm]
    calc |(roundEven x : Rat)| = |x + (roundEven x - x)| := by congr 1; ring
      _ ≤ |x| + |roundEven x - x| := abs_add_le _ _
  have hlt : ((|roundEven x| : Int) : Rat) < ((n + 1 : Int) : Rat) := by
    push_cast
    linarith
  rw [Int.cast_lt] at hlt
  omega

theorem le_abs_roundEven {x : Rat} {n : Nat} (h : n ≤ |x|) : n ≤ |roundEven x| := by
  have hround := abs_sub_roundEven x
  have htriangle : |x| ≤ |(roundEven x : Rat)| + |x - roundEven x| := by
    calc |x| = |roundEven x + (x - roundEven x)| := by congr 1; ring
      _ ≤ |(roundEven x : Rat)| + |x - roundEven x| := abs_add_le _ _
  have hlt : ((n : Int) : Rat) < ((|roundEven x| + 1 : Int) : Rat) := by
    push_cast
    linarith
  rw [Int.cast_lt] at hlt
  omega

/-! ## Formats -/

structure Format where
  /-- The digits after the first one. -/
  fractionBits : Nat
  minExponent  : Int

theorem two_zpow_pos (e : Int) : (0 : Rat) < 2 ^ e := zpow_pos (by norm_num) e

theorem two_zpow_ne_zero (e : Int) : (2 : Rat) ^ e ≠ 0 := (two_zpow_pos e).ne'

theorem abs_mul_zpow (m e : Int) : |(m * 2 ^ e : Rat)| = |m| * 2 ^ e := by
  rw [abs_mul, abs_of_pos (two_zpow_pos e), Int.cast_abs]

namespace Format

variable (f : Format)

/-- The exponent of the numbers around `x`. -/
def exponent (x : Rat) : Int := max (Int.log 2 |x| - f.fractionBits) f.minExponent

/-- The number of the format nearest to `x`. -/
def nearest (x : Rat) : Rat := roundEven (x / 2 ^ f.exponent x) * 2 ^ f.exponent x

def Representable (x : Rat) : Prop :=
  ∃ m e : Int, |m| ≤ 2 ^ (f.fractionBits + 1) ∧ f.minExponent ≤ e ∧ x = m * 2 ^ e

theorem exponent_neg (x : Rat) : f.exponent (-x) = f.exponent x := by
  unfold exponent
  rw [abs_neg]

theorem nearest_neg (x : Rat) : f.nearest (-x) = -f.nearest x := by
  unfold nearest
  rw [exponent_neg, neg_div, roundEven_neg, Int.cast_neg, neg_mul]

theorem minExponent_le (x : Rat) : f.minExponent ≤ f.exponent x := le_max_right _ _

theorem abs_lt_zpow (x : Rat) : |x| < 2 ^ (f.exponent x + f.fractionBits + 1) := by
  have hle : Int.log 2 |x| - f.fractionBits ≤ f.exponent x := le_max_left _ _
  calc |x| < ((2 : Nat) : Rat) ^ (Int.log 2 |x| + 1) := Int.lt_zpow_succ_log_self (by norm_num) _
    _ = 2 ^ (Int.log 2 |x| + 1) := by push_cast; rfl
    _ ≤ 2 ^ (f.exponent x + f.fractionBits + 1) :=
        zpow_le_zpow_right₀ (by norm_num) (by omega)

theorem zpow_le_abs {x : Rat} (hx : x ≠ 0) (h : f.minExponent < f.exponent x) :
    2 ^ (f.exponent x + f.fractionBits) ≤ |x| := by
  have hexponent : f.exponent x = Int.log 2 |x| - f.fractionBits :=
    (max_choice _ _).resolve_right fun hmin => by rw [exponent, hmin] at h; exact lt_irrefl _ h
  calc (2 : Rat) ^ (f.exponent x + f.fractionBits) = ((2 : Nat) : Rat) ^ Int.log 2 |x| := by
        rw [hexponent, sub_add_cancel]
        push_cast
        rfl
    _ ≤ |x| := Int.zpow_log_le_self (by norm_num) (abs_pos.mpr hx)

/-- The number is rounded at the digit that its exponent gives. -/
theorem abs_sub_nearest (x : Rat) : |x - f.nearest x| ≤ 2 ^ f.exponent x / 2 := by
  have hpos := two_zpow_pos (f.exponent x)
  have hround := abs_sub_roundEven (x / 2 ^ f.exponent x)
  have hscaled : x - f.nearest x =
      (x / 2 ^ f.exponent x - roundEven (x / 2 ^ f.exponent x)) * 2 ^ f.exponent x := by
    unfold nearest
    rw [sub_mul, div_mul_cancel₀ _ hpos.ne']
  rw [hscaled, abs_mul, abs_of_pos hpos]
  calc |x / 2 ^ f.exponent x - roundEven (x / 2 ^ f.exponent x)| * 2 ^ f.exponent x
      ≤ 1 / 2 * 2 ^ f.exponent x := mul_le_mul_of_nonneg_right hround hpos.le
    _ = 2 ^ f.exponent x / 2 := by ring

/-- Before the point stand as many digits as the format has. -/
theorem abs_scaled_le (x : Rat) : |x / 2 ^ f.exponent x| ≤ (2 ^ (f.fractionBits + 1) : Nat) := by
  have hpos := two_zpow_pos (f.exponent x)
  rw [abs_div, abs_of_pos hpos, div_le_iff₀ hpos]
  calc |x| ≤ 2 ^ (f.exponent x + f.fractionBits + 1) := (f.abs_lt_zpow x).le
    _ = (2 ^ (f.fractionBits + 1) : Nat) * 2 ^ f.exponent x := by
        push_cast
        rw [← zpow_natCast, ← zpow_add₀ (by norm_num)]
        congr 1
        push_cast
        ring

theorem representable_nearest (x : Rat) : f.Representable (f.nearest x) :=
  ⟨_, f.exponent x, by exact_mod_cast abs_roundEven_le (f.abs_scaled_le x), f.minExponent_le x, rfl⟩

/-- Above the least exponent, a number is rounded to one that has all digits. -/
theorem nearest_normal {x : Rat} (hx : x ≠ 0) (h : f.minExponent < f.exponent x) :
    ∃ m : Int, 2 ^ f.fractionBits ≤ |m| ∧ |m| ≤ 2 ^ (f.fractionBits + 1) ∧
      f.nearest x = m * 2 ^ f.exponent x := by
  have hpos := two_zpow_pos (f.exponent x)
  have hlow : (2 ^ f.fractionBits : Nat) ≤ |x / 2 ^ f.exponent x| := by
    rw [abs_div, abs_of_pos hpos, le_div_iff₀ hpos]
    push_cast
    rw [← zpow_natCast, ← zpow_add₀ (by norm_num), add_comm]
    exact f.zpow_le_abs hx h
  exact ⟨_, by exact_mod_cast le_abs_roundEven hlow,
    by exact_mod_cast abs_roundEven_le (f.abs_scaled_le x), rfl⟩

/-- What is a multiple of the last digit is not rounded. -/
theorem nearest_of_multiple {x : Rat} {n : Int} (h : x = n * 2 ^ f.exponent x) :
    f.nearest x = x := by
  have hdiv : x / 2 ^ f.exponent x = n := (div_eq_iff (two_zpow_ne_zero _)).mpr h
  unfold nearest
  rw [hdiv, roundEven_intCast]
  exact h.symm

theorem nearest_of_representable {x : Rat} (h : f.Representable x) : f.nearest x = x := by
  obtain ⟨m, e, hm, he, hx⟩ := h
  by_cases hle : f.exponent x ≤ e
  · obtain ⟨k, hk⟩ := Int.le.dest hle
    refine f.nearest_of_multiple (n := m * 2 ^ k) ?_
    calc x = m * 2 ^ (f.exponent x + k) := by rw [hk]; exact hx
      _ = (m * 2 ^ k : Int) * 2 ^ f.exponent x := by
          rw [zpow_add₀ (by norm_num), zpow_natCast]
          push_cast
          ring
  · -- with a digit too many, the number is a power of two
    have hlt : e < f.exponent x := not_le.mp hle
    by_cases hzero : x = 0
    · exact f.nearest_of_multiple (n := 0) (by rw [hzero]; norm_num)
    · have hpos := two_zpow_pos e
      have habs : |x| = ((|m| : Int) : Rat) * 2 ^ e := by rw [hx, abs_mul_zpow]
      have hlow : (2 : Rat) ^ (f.exponent x - e + f.fractionBits) ≤ ((|m| : Int) : Rat) := by
        rw [← mul_le_mul_iff_left₀ hpos, ← habs, ← zpow_add₀ (by norm_num),
          show f.exponent x - e + f.fractionBits + e = f.exponent x + f.fractionBits by ring]
        exact f.zpow_le_abs hzero (lt_of_le_of_lt he hlt)
      have hupper : ((|m| : Int) : Rat) ≤ 2 ^ ((f.fractionBits + 1 : Nat) : Int) := by
        rw [zpow_natCast]
        exact_mod_cast hm
      have hexponent : f.exponent x = e + 1 := by
        have hle := (zpow_le_zpow_iff_right₀ (by norm_num)).mp (hlow.trans hupper)
        omega
      have heven : (2 : Int) ∣ m := by
        have hpower : (2 : Int) ^ (f.fractionBits + 1) ≤ |m| := by
          rw [hexponent, show e + 1 - e + (f.fractionBits : Int) = (f.fractionBits + 1 : Nat) by
            push_cast; ring, zpow_natCast] at hlow
          exact_mod_cast hlow
        rw [← dvd_abs, le_antisymm hm hpower]
        exact Dvd.intro_left _ (pow_succ _ _).symm
      obtain ⟨n, rfl⟩ := heven
      refine f.nearest_of_multiple (n := n) ?_
      rw [hexponent, zpow_add₀ (by norm_num), hx]
      push_cast
      ring

/-- The exponent leaves as many digits as the format has. -/
theorem exponent_eq {x : Rat} {e : Int} (he : f.minExponent ≤ e)
    (hlow : 2 ^ f.fractionBits ≤ |x / 2 ^ e|) (hupper : |x / 2 ^ e| < 2 ^ (f.fractionBits + 1)) :
    f.exponent x = e := by
  have hpos := two_zpow_pos e
  rw [abs_div, abs_of_pos hpos] at hlow hupper
  rw [le_div_iff₀ hpos, ← zpow_natCast, ← zpow_add₀ (by norm_num)] at hlow
  rw [div_lt_iff₀ hpos, ← zpow_natCast, ← zpow_add₀ (by norm_num)] at hupper
  have habs : 0 < |x| := lt_of_lt_of_le (two_zpow_pos _) hlow
  have hlog : Int.log 2 |x| = f.fractionBits + e := by
    refine le_antisymm ?_ ?_
    · have hlt : Int.log 2 |x| < (f.fractionBits + 1 : Nat) + e := by
        rw [← Int.lt_zpow_iff_log_lt (by norm_num) habs]
        exact_mod_cast hupper
      push_cast at hlt
      omega
    · rw [← Int.zpow_le_iff_le_log (by norm_num) habs]
      exact_mod_cast hlow
  unfold exponent
  rw [hlog, add_sub_cancel_left]
  exact max_eq_left he

/-- What is not a power of two is the nearest number to all that is less than half a digit away. -/
theorem nearest_eq_of_abs_sub_lt {x : Rat} {m e : Int} (hlow : 2 ^ f.fractionBits < |m|)
    (hupper : |m| < 2 ^ (f.fractionBits + 1)) (he : f.minExponent ≤ e)
    (h : |x - m * 2 ^ e| < 2 ^ e / 2) : f.nearest x = m * 2 ^ e := by
  have hpos := two_zpow_pos e
  have hscaled : |x / 2 ^ e - m| < 1 / 2 := by
    have hdiff : x / 2 ^ e - m = (x - m * 2 ^ e) / 2 ^ e := by
      rw [sub_div, mul_div_cancel_right₀ _ hpos.ne']
    rw [hdiff, abs_div, abs_of_pos hpos, div_lt_iff₀ hpos]
    linarith
  have hbelow : |(m : Rat)| - |x / 2 ^ e| < 1 / 2 := by
    rw [abs_sub_comm] at hscaled
    exact (abs_sub_abs_le_abs_sub _ _).trans_lt hscaled
  have habove : |x / 2 ^ e| - |(m : Rat)| < 1 / 2 := (abs_sub_abs_le_abs_sub _ _).trans_lt hscaled
  have hlow' : (2 : Rat) ^ f.fractionBits + 1 ≤ |(m : Rat)| := by
    rw [← Int.cast_abs]
    exact_mod_cast hlow
  have hupper' : |(m : Rat)| + 1 ≤ 2 ^ (f.fractionBits + 1) := by
    rw [← Int.cast_abs]
    exact_mod_cast hupper
  have hexponent : f.exponent x = e := f.exponent_eq he (by linarith) (by linarith)
  unfold nearest
  rw [hexponent, roundEven_eq (.inl hscaled)]

theorem nearest_nearest (x : Rat) : f.nearest (f.nearest x) = f.nearest x :=
  f.nearest_of_representable (f.representable_nearest x)

end Format

end MapProtocol.BinaryRounding
