import MapProtocol.Js.Doubles
import MapProtocol.Security.Signing

/-!
# Numbers in canonical texts

`serializeJcsNumber` writes an integer as JavaScript does, and any other number with fifteen digits
after the point. An integer is read back as itself. Another number is read back as itself exactly if
it is the double of some number that has no more than fifteen digits after the point
(`toDouble_fixed15_iff`): to others the digits that are cut are what tells them apart.
-/

namespace MapProtocol.Doubles

open Js NumberText BinaryRounding

/-- `serializeJcsNumber(n)` of a double. `toFixed(0)` of a number from `10 ^ 21` on is its
`toString()`. -/
def serializeJcsNumber (n : Rat) : String :=
  if !isFinite n then "null"
  else if n = 0 then "0"
  else if n.den = 1 ∧ magnitude n < 10 ^ 21 then integerToString n
  else if 10 ^ 21 ≤ magnitude n then integerToString n
  else String.ofList (stripFraction (toFixed15 n))

/-! ## Fifteen digits after the point -/

theorem magnitude_eq_abs (n : Rat) : MapProtocol.magnitude n = |n| := by
  unfold MapProtocol.magnitude
  split
  · rename_i h
    exact (abs_of_neg h).symm
  · rename_i h
    exact (abs_of_nonneg (not_lt.mp h)).symm

/-- What `n.toFixed(15)` denotes, in units of the last digit. -/
def scaled15 (n : Rat) : Nat := ⌊|n| * 10 ^ 15 + 1 / 2⌋.toNat

/-- What `n.toFixed(15)` denotes. -/
def fixed15 (n : Rat) : Rat := if n < 0 then -(scaled15 n / 10 ^ 15) else scaled15 n / 10 ^ 15

/-- The digits after the point, without the zeros at the end. -/
def withoutZeros (fraction : List Char) : List Char :=
  (fraction.reverse.dropWhile (· = '0')).reverse

theorem withoutZeros_append (fraction : List Char) :
    ∃ k, fraction = withoutZeros fraction ++ List.replicate k '0' := by
  induction fraction using List.reverseRecOn with
  | nil => exact ⟨0, rfl⟩
  | append_singleton ds c ih =>
      obtain ⟨k, hk⟩ := ih
      by_cases hc : c = '0'
      · have hcut : withoutZeros (ds ++ [c]) = withoutZeros ds := by simp [withoutZeros, hc]
        refine ⟨k + 1, ?_⟩
        rw [hcut, List.replicate_succ', ← List.append_assoc, ← hk, hc]
      · exact ⟨0, by simp [withoutZeros, hc]⟩

theorem stripFraction_point (whole : List Char) {fraction : List Char}
    (h : ∀ c ∈ fraction, isDigit c = true) :
    stripFraction (whole ++ '.' :: fraction) = whole ++ fractionChars (withoutZeros fraction) := by
  have hkept : (whole ++ '.' :: fraction).reverse.dropWhile (· = '0') =
      fraction.reverse.dropWhile (· = '0') ++ '.' :: whole.reverse := by
    rw [List.reverse_append, List.reverse_cons, List.append_assoc, List.dropWhile_append]
    split
    · rename_i hnone
      rw [List.isEmpty_iff.mp hnone]
      simp
    · rfl
  have hdigit : ∀ c ∈ fraction.reverse.dropWhile (· = '0'), isDigit c = true := fun c hc =>
    h c (List.mem_reverse.mp ((List.dropWhile_sublist _).mem hc))
  unfold stripFraction withoutZeros
  rw [hkept]
  generalize fraction.reverse.dropWhile (· = '0') = kept at hdigit
  cases kept with
  | nil => simp [fractionChars]
  | cons d ds =>
      have hpoint : d ≠ '.' := by
        rintro rfl
        exact absurd (hdigit '.' List.mem_cons_self) (by decide)
      rw [fractionChars_of_ne_nil (by simp)]
      dsimp only [List.cons_append]
      split
      · -- what is left ends with a digit, not with the point
        rename_i heq
        exact absurd (List.cons.inj heq).1 hpoint
      · simp

theorem length_padded {width n : Nat} (hwidth : 0 < width) (h : n < 10 ^ width) :
    (padded width n).toList.length = width := by
  have hle := (Nat.length_toDigits_le_iff (by norm_num) hwidth).mpr h
  rw [← toList_toString] at hle
  simp only [padded, String.toList_ofList, List.length_append, List.length_replicate]
  omega

theorem digitsValue_padded (width n : Nat) : digitsValue (padded width n).toList = n := by
  simp only [padded, String.toList_ofList, digitsValue_append, digitsValue_zeros,
    digitsValue_toString, Nat.mul_zero, Nat.zero_add]

theorem isDigit_of_mem_padded {width n : Nat} {c : Char} (h : c ∈ (padded width n).toList) :
    isDigit c = true := by
  simp only [padded, String.toList_ofList, List.mem_append] at h
  rcases h with hzero | hdigit
  · rw [List.eq_of_mem_replicate hzero]
    decide
  · exact isDigit_of_mem_toString hdigit

theorem leading_toString (n : Nat) :
    ¬ ((toString n).toList.head? = some '0' ∧ (toString n).toList.length > 1) := by
  rintro ⟨hzero, hlength⟩
  rcases Nat.eq_zero_or_pos n with rfl | hpos
  · exact absurd hlength (by decide)
  · exact head_toString hpos hzero

/-- The digits around the point stand for the units. -/
theorem digitsValue_fixed {whole fraction : List Char} {k units width : Nat}
    (hzeros : fraction = withoutZeros fraction ++ List.replicate k '0')
    (hlength : fraction.length = width)
    (hunits : 10 ^ width * digitsValue whole + digitsValue fraction = units) :
    (digitsValue (whole ++ withoutZeros fraction) : Rat) *
      (10 : Rat) ^ (-(withoutZeros fraction).length : Int) = units / 10 ^ width := by
  have hwidth : (withoutZeros fraction).length + k = width := by
    rw [← hlength, congrArg List.length hzeros, List.length_append, List.length_replicate]
  have hdigits : digitsValue (whole ++ withoutZeros fraction) * 10 ^ k = units := by
    rw [← hunits, ← hlength, ← digitsValue_append]
    calc digitsValue (whole ++ withoutZeros fraction) * 10 ^ k
        = digitsValue ((whole ++ withoutZeros fraction) ++ List.replicate k '0') := by
          rw [digitsValue_append (whole ++ withoutZeros fraction), digitsValue_zeros,
            List.length_replicate, Nat.add_zero, Nat.mul_comm]
      _ = digitsValue (whole ++ fraction) := by rw [List.append_assoc, ← hzeros]
  have hpow : (10 : Rat) ^ k ≠ 0 := pow_ne_zero _ (by norm_num)
  rw [← hdigits, ← hwidth, zpow_neg, zpow_natCast, pow_add, ← div_eq_mul_inv]
  push_cast
  rw [mul_div_mul_right _ _ hpow]

/-- **What is written of a number that is cut** is a literal of the number, cut. -/
theorem toFixed15_text (n : Rat) : ∃ t : NumberText, t.WellFormed ∧
    stripFraction (toFixed15 n) = t.chars ∧ t.value = fixed15 n := by
  have hscaled : (MapProtocol.magnitude n * 10 ^ 15 + 1 / 2).floor.toNat = scaled15 n := by
    rw [magnitude_eq_abs]
    rfl
  have hunits := Nat.div_add_mod (scaled15 n) (10 ^ 15)
  have hlength : (padded 15 (scaled15 n % 10 ^ 15)).toList.length = 15 :=
    length_padded (by norm_num) (Nat.mod_lt _ (by norm_num))
  have hfraction : ∀ c ∈ (padded 15 (scaled15 n % 10 ^ 15)).toList, isDigit c = true :=
    fun _ => isDigit_of_mem_padded
  unfold toFixed15 fixed15
  dsimp only
  rw [hscaled]
  rw [← digitsValue_padded 15 (scaled15 n % 10 ^ 15)] at hunits
  generalize (padded 15 (scaled15 n % 10 ^ 15)).toList = fraction at hlength hfraction hunits ⊢
  rw [← digitsValue_toString (scaled15 n / 10 ^ 15)] at hunits
  generalize scaled15 n / 10 ^ 15 = whole at hunits ⊢
  obtain ⟨k, hzeros⟩ := withoutZeros_append fraction
  have hvalue := digitsValue_fixed hzeros hlength hunits
  refine ⟨⟨decide (n < 0), (toString whole).toList, withoutZeros fraction, none⟩,
    ⟨toString_ne_nil _, fun _ => isDigit_of_mem_toString, leading_toString _, ?_, by simp⟩, ?_, ?_⟩
  · intro c hc
    refine hfraction c ?_
    rw [hzeros]
    exact List.mem_append_left _ hc
  · by_cases hneg : n < 0
    · rw [if_pos hneg, ← List.cons_append, stripFraction_point _ hfraction]
      simp [chars, unsignedChars, exponentChars, hneg]
    · rw [if_neg hneg, stripFraction_point _ hfraction]
      simp [chars, unsignedChars, exponentChars, hneg]
  · unfold value NumberText.magnitude
    dsimp only [exponentValue]
    rw [zero_sub, hvalue]
    by_cases hneg : n < 0 <;> simp [hneg]

/-! ## What is kept -/

theorem scaled15_eq (n : Rat) : (scaled15 n : Rat) = ⌊|n| * 10 ^ 15 + 1 / 2⌋ := by
  have hnonneg : 0 ≤ ⌊|n| * 10 ^ 15 + 1 / 2⌋ :=
    Int.floor_nonneg.mpr (add_nonneg (mul_nonneg (abs_nonneg n) (by norm_num)) (by norm_num))
  unfold scaled15
  exact_mod_cast congrArg (Int.cast (R := Rat)) (Int.toNat_of_nonneg hnonneg)

theorem exists_fixed15 (n : Rat) : ∃ k : Int, fixed15 n = k / 10 ^ 15 := by
  unfold fixed15
  split
  · exact ⟨-scaled15 n, by push_cast; ring⟩
  · exact ⟨scaled15 n, by push_cast; rfl⟩

theorem abs_fixed15_sub (n : Rat) : |fixed15 n - n| ≤ 1 / (2 * 10 ^ 15) := by
  have hdown : ((scaled15 n : Nat) : Rat) ≤ |n| * 10 ^ 15 + 1 / 2 := by
    rw [scaled15_eq]
    exact Int.floor_le _
  have hup : |n| * 10 ^ 15 + 1 / 2 < scaled15 n + 1 := by
    rw [scaled15_eq]
    exact Int.lt_floor_add_one _
  have habs : |scaled15 n / 10 ^ 15 - (|n|)| ≤ 1 / (2 * 10 ^ 15) := by
    rw [abs_le]
    constructor <;> linarith
  unfold fixed15
  split
  · rename_i hneg
    rw [abs_of_neg hneg] at habs
    rw [← abs_neg]
    have hflip : -(-((scaled15 n : Rat) / 10 ^ 15) - n) = (scaled15 n : Rat) / 10 ^ 15 - -n := by ring
    rw [hflip]
    exact habs
  · rename_i hpos
    rwa [abs_of_nonneg (not_lt.mp hpos)] at habs

theorem fixed15_eq {n : Rat} {k : Int} (h : |k / 10 ^ 15 - n| < 1 / (2 * 10 ^ 15)) :
    fixed15 n = k / 10 ^ 15 := by
  obtain ⟨l, hl⟩ := exists_fixed15 n
  have hnear := abs_fixed15_sub n
  rw [hl] at hnear ⊢
  rw [abs_le] at hnear
  rw [abs_lt] at h
  have hlk : (l : Rat) < ((k + 1 : Int) : Rat) := by push_cast; linarith
  have hkl : (k : Rat) < ((l + 1 : Int) : Rat) := by push_cast; linarith
  rw [Int.cast_lt] at hlk hkl
  rw [show l = k by omega]

theorem exponent_of_far {x n : Rat} (hx : toDouble x = n) (h : 1 / (2 * 10 ^ 15) ≤ |x - n|) :
    -49 ≤ binary64.exponent x := by
  have hround : |x - n| ≤ 2 ^ binary64.exponent x / 2 := by
    rw [← hx]
    exact binary64.abs_sub_nearest x
  have hpow : (2 : Rat) ^ (-50 : Int) < 2 ^ binary64.exponent x := by
    calc (2 : Rat) ^ (-50 : Int) < 2 * (1 / (2 * 10 ^ 15)) := by norm_num
      _ ≤ 2 * (2 ^ binary64.exponent x / 2) :=
          mul_le_mul_of_nonneg_left (h.trans hround) (by norm_num)
      _ = 2 ^ binary64.exponent x := by ring
  have hlt := (zpow_lt_zpow_iff_right₀ (by norm_num)).mp hpow
  omega

/-- A number whose last digit is worth `2 ^ e`, with all of its digits, is no power of two unless it
is an integer. -/
theorem not_power {n : Rat} {m e : Int} (hden : n.den ≠ 1) (hn : n = m * 2 ^ e) (he : -49 ≤ e) :
    ¬ (2 : Int) ^ 52 ∣ m := by
  rintro ⟨k, rfl⟩
  obtain ⟨l, hl⟩ := Int.eq_ofNat_of_zero_le (a := 52 + e) (by omega)
  have hint : n = ((k * 2 ^ l : Int) : Rat) := by
    rw [hn]
    push_cast
    rw [← zpow_natCast 2 l, ← hl, zpow_add₀ (by norm_num)]
    norm_num
    ring
  rw [hint] at hden
  exact hden (Rat.den_intCast _)

/-- **What is left by the cut** is read back as the number exactly if the number is the double of
something with fifteen digits after the point. -/
theorem toDouble_fixed15_iff {n : Rat} (hden : n.den ≠ 1) :
    toDouble (fixed15 n) = n ↔ ∃ k : Int, toDouble (k / 10 ^ 15) = n := by
  constructor
  · intro h
    obtain ⟨k, hk⟩ := exists_fixed15 n
    exact ⟨k, hk ▸ h⟩
  · rintro ⟨k, hk⟩
    by_cases hnear : |(k : Rat) / 10 ^ 15 - n| < 1 / (2 * 10 ^ 15)
    · rw [fixed15_eq hnear]
      exact hk
    · have hexponent := exponent_of_far hk (not_lt.mp hnear)
      generalize (k : Rat) / 10 ^ 15 = x at hk hexponent
      have hx : x ≠ 0 := by
        rintro rfl
        rw [toDouble_zero] at hk
        exact hden (by rw [← hk]; rfl)
      obtain ⟨m, hlow, hupper, hm⟩ := binary64.nearest_normal hx (by show -1074 < _; omega)
      have hn : n = m * 2 ^ binary64.exponent x := hk.symm.trans hm
      have hpower := not_power hden hn hexponent
      have hle : (2 : Rat) ^ (-49 : Int) ≤ 2 ^ binary64.exponent x :=
        zpow_le_zpow_right₀ (by norm_num) hexponent
      -- half of the last digit is worth more than what is cut
      have hhalf : |fixed15 n - m * 2 ^ binary64.exponent x| < 2 ^ binary64.exponent x / 2 := by
        rw [← hn]
        calc |fixed15 n - n| ≤ 1 / (2 * 10 ^ 15) := abs_fixed15_sub n
          _ < 2 ^ (-49 : Int) / 2 := by norm_num
          _ ≤ 2 ^ binary64.exponent x / 2 := div_le_div_of_nonneg_right hle (by norm_num)
      refine (binary64.nearest_eq_of_abs_sub_lt ?_ ?_ (binary64.minExponent_le x) hhalf).trans hn.symm
      · refine lt_of_le_of_ne hlow fun heq => hpower ((dvd_abs _ _).mp ?_)
        rw [← heq]
        exact dvd_rfl
      · refine lt_of_le_of_ne hupper fun heq => hpower ((dvd_abs _ _).mp ?_)
        rw [heq]
        exact pow_dvd_pow 2 (by decide)

/-! ## The text of a number -/

/-- A number is written as a literal: an integer as one that is read back as it, another number as one
of what is left by the cut. -/
theorem serializeJcsNumber_literal {n : Rat} (hdouble : toDouble n = n) (hfinite : isFinite n = true) :
    ∃ t : NumberText, t.WellFormed ∧ (serializeJcsNumber n).toList = t.chars ∧
      (n.den = 1 ∧ toDouble t.value = n ∨ n.den ≠ 1 ∧ t.value = fixed15 n) := by
  unfold serializeJcsNumber
  rw [hfinite]
  by_cases hzero : n = 0
  · obtain ⟨t, hwell, htext, hvalue⟩ := integerToString_text (n := 0) rfl toDouble_zero
    rw [hzero]
    exact ⟨t, hwell, htext, .inl ⟨rfl, hvalue⟩⟩
  · rw [if_neg (by simp), if_neg hzero]
    by_cases hint : n.den = 1
    · have hwritten : (if n.den = 1 ∧ MapProtocol.magnitude n < 10 ^ 21 then integerToString n
          else if 10 ^ 21 ≤ MapProtocol.magnitude n then integerToString n
          else String.ofList (stripFraction (toFixed15 n))) = integerToString n := by
        by_cases hlarge : MapProtocol.magnitude n < 10 ^ 21
        · rw [if_pos ⟨hint, hlarge⟩]
        · rw [if_neg fun h => hlarge h.2, if_pos (not_lt.mp hlarge)]
      obtain ⟨t, hwell, htext, hvalue⟩ := integerToString_text hint hdouble
      rw [hwritten]
      exact ⟨t, hwell, htext, .inl ⟨hint, hvalue⟩⟩
    · -- a double that large is an integer
      have hsmall : ¬ 10 ^ 21 ≤ MapProtocol.magnitude n := by
        intro hlarge
        rw [magnitude_eq_abs] at hlarge
        refine hint (hdouble ▸ den_toDouble (le_trans (by norm_num) hlarge))
      obtain ⟨t, hwell, htext, hvalue⟩ := toFixed15_text n
      rw [if_neg fun h => hint h.1, if_neg hsmall, String.toList_ofList]
      exact ⟨t, hwell, htext, .inr ⟨hint, hvalue⟩⟩

/-- What the text of a number denotes. -/
def written (n : Rat) : Rat :=
  match parseNumber (serializeJcsNumber n).toList with
  | some (q, _) => q
  | none        => 0

theorem written_eq {n : Rat} {t : NumberText} (hwell : t.WellFormed)
    (htext : (serializeJcsNumber n).toList = t.chars) : written n = t.value := by
  have hread := @parseNumber_text t hwell [] fun c hc => by cases hc
  rw [List.append_nil] at hread
  unfold written
  rw [htext, hread]

theorem serializeJcsNumber_text {n : Rat} (hdouble : toDouble n = n) (hfinite : isFinite n = true) :
    ∃ t : NumberText, t.WellFormed ∧ t.value = written n ∧
      (serializeJcsNumber n).toList = t.chars := by
  obtain ⟨t, hwell, htext, -⟩ := serializeJcsNumber_literal hdouble hfinite
  exact ⟨t, hwell, (written_eq hwell htext).symm, htext⟩

/-- The number is an integer, or the double of something with at most fifteen digits after the
point. -/
def Kept (n : Rat) : Prop := n.den = 1 ∨ ∃ k : Int, toDouble (k / 10 ^ 15) = n

/-- **Which numbers are read back from their text.** -/
theorem toDouble_written_iff {n : Rat} (hdouble : toDouble n = n) (hfinite : isFinite n = true) :
    toDouble (written n) = n ↔ Kept n := by
  obtain ⟨t, hwell, htext, ⟨hint, hvalue⟩ | ⟨hint, hvalue⟩⟩ :=
    serializeJcsNumber_literal hdouble hfinite
  · rw [written_eq hwell htext]
    exact iff_of_true hvalue (.inl hint)
  · rw [written_eq hwell htext, hvalue, toDouble_fixed15_iff hint]
    exact ⟨.inr, fun h => h.resolve_left hint⟩

end MapProtocol.Doubles
