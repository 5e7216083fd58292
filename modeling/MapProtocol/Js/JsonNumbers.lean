import MapProtocol.Js.Json
import Mathlib.Algebra.Order.Field.Rat
import Mathlib.Algebra.Order.Field.Power
import Mathlib.Data.Nat.GCD.Basic
import Mathlib.Tactic.Ring

/-!
# Numbers in JSON

A number that a JSON text denotes has a finite decimal expansion. Such a number is written out in
full (`numberToString_text`), and what is written is read back as the number (`parseNumber_text`).
-/

namespace MapProtocol.Js

variable {cs ds rest : List Char} {q : Rat} {k : Nat}

/-! ## Digits -/

theorem digitsValue_append (ds es : List Char) :
    digitsValue (ds ++ es) = 10 ^ es.length * digitsValue ds + digitsValue es := by
  show Nat.ofDigitChars 10 (ds ++ es) 0 = _
  rw [Nat.ofDigitChars_append, Nat.ofDigitChars_eq_ofDigitChars_zero]
  rfl

theorem digitsValue_zeros (n : Nat) : digitsValue (List.replicate n '0') = 0 :=
  Nat.ofDigitChars_replicate_zero

theorem toList_toString (n : Nat) : (toString n).toList = Nat.toDigits 10 n := by
  rw [Nat.toString_eq_ofList_toDigits, String.toList_ofList]

theorem digitsValue_toString (n : Nat) : digitsValue (toString n).toList = n := by
  rw [toList_toString]
  exact Nat.ofDigitChars_ten_toDigits

theorem isDigit_of_mem_toString {n : Nat} {c : Char} (h : c ∈ (toString n).toList) :
    isDigit c = true := by
  rw [toList_toString] at h
  have hdigit := Nat.isDigit_of_mem_toDigits (by decide) (by decide) h
  simp only [Char.isDigit, Bool.and_eq_true, decide_eq_true_eq] at hdigit
  simp only [isDigit, Bool.and_eq_true, decide_eq_true_eq]
  exact hdigit

theorem toString_ne_nil (n : Nat) : (toString n).toList ≠ [] := by
  rw [toList_toString]
  exact Nat.toDigits_ne_nil

theorem head_toString {n : Nat} (h : 0 < n) : (toString n).toList.head? ≠ some '0' := by
  rw [toList_toString]
  induction n using Nat.strongRecOn with
  | _ n ih =>
      by_cases hlt : n < 10
      · have hall : ∀ k : Fin 10, 0 < k.val → [Nat.digitChar k.val].head? ≠ some '0' := by decide
        rw [Nat.toDigits_of_lt_base hlt]
        exact hall ⟨n, hlt⟩ h
      · have hle : 10 ≤ n := Nat.not_lt.mp hlt
        rw [Nat.toDigits_of_base_le (by decide) hle]
        have hhead := ih (n / 10) (by omega) (by omega)
        cases hdigits : Nat.toDigits 10 (n / 10) with
        | nil => exact absurd hdigits Nat.toDigits_ne_nil
        | cons d ds =>
            rw [hdigits] at hhead
            exact hhead

/-! ## Literals

A literal as its parts: sign, whole digits, fraction and exponent. -/

/-- The parts of a number literal; of its exponent, whether it is negative, and its digits. -/
structure NumberText where
  negative : Bool
  whole    : List Char
  fraction : List Char
  exponent : Option (Bool × List Char)

namespace NumberText

def fractionChars : List Char → List Char
  | []      => []
  | d :: ds => '.' :: d :: ds

def exponentChars : Option (Bool × List Char) → List Char
  | none             => []
  | some (minus, ds) => 'e' :: (if minus then '-' else '+') :: ds

def exponentValue : Option (Bool × List Char) → Int
  | none             => 0
  | some (minus, ds) => if minus then -(digitsValue ds : Int) else digitsValue ds

def unsignedChars (t : NumberText) : List Char :=
  t.whole ++ (fractionChars t.fraction ++ exponentChars t.exponent)

def chars (t : NumberText) : List Char :=
  if t.negative then '-' :: t.unsignedChars else t.unsignedChars

/-- The digits without the point, scaled by the exponent. -/
def magnitude (t : NumberText) : Rat :=
  digitsValue (t.whole ++ t.fraction) * (10 : Rat) ^ (exponentValue t.exponent - t.fraction.length)

def value (t : NumberText) : Rat := if t.negative then -t.magnitude else t.magnitude

structure WellFormed (t : NumberText) : Prop where
  nonempty : t.whole ≠ []
  whole    : ∀ c ∈ t.whole, isDigit c = true
  leading  : ¬ (t.whole.head? = some '0' ∧ t.whole.length > 1)
  fraction : ∀ c ∈ t.fraction, isDigit c = true
  exponent : ∀ minus ds, t.exponent = some (minus, ds) → ds ≠ [] ∧ ∀ c ∈ ds, isDigit c = true

end NumberText

open NumberText

/-! ## Reading a literal -/

def parseFraction : List Char → Option (List Char × List Char)
  | '.' :: cs =>
      let (ds, rest) := cs.span isDigit
      if ds = [] then none else some (ds, rest)
  | cs => some ([], cs)

def parseExponent : List Char → Option (Int × List Char)
  | c :: cs =>
      if c = 'e' ∨ c = 'E' then
        let (minus, cs) := match cs with
          | '-' :: cs => (true, cs)
          | '+' :: cs => (false, cs)
          | cs        => (false, cs)
        let (ds, rest) := cs.span isDigit
        if ds = [] then none
        else some (if minus then -(digitsValue ds : Int) else digitsValue ds, rest)
      else some (0, c :: cs)
  | [] => some (0, [])

/-- A literal after its sign. -/
def parseSigned (negative : Bool) (cs : List Char) : Option (Rat × List Char) :=
  let (whole, cs) := cs.span isDigit
  if whole = [] ∨ (whole.head? = some '0' ∧ whole.length > 1) then none
  else match parseFraction cs with
    | none                => none
    | some (fraction, cs) =>
        match parseExponent cs with
        | none           => none
        | some (e, rest) =>
            let scale := e - fraction.length
            let magnitude : Rat := digitsValue (whole ++ fraction)
            let value := if 0 ≤ scale then magnitude * 10 ^ scale.toNat
              else magnitude / 10 ^ (-scale).toNat
            some (if negative then -value else value, rest)

theorem scaled_eq (magnitude : Rat) (scale : Int) :
    (if 0 ≤ scale then magnitude * 10 ^ scale.toNat else magnitude / 10 ^ (-scale).toNat) =
      magnitude * (10 : Rat) ^ scale := by
  split
  · rename_i hle
    have hscale : (10 : Rat) ^ scale = 10 ^ scale.toNat := by
      rw [← zpow_natCast, Int.toNat_of_nonneg hle]
    rw [hscale]
  · rename_i hlt
    have hscale : (10 : Rat) ^ scale = (10 ^ (-scale).toNat)⁻¹ := by
      rw [← zpow_natCast, Int.toNat_of_nonneg (by omega), zpow_neg, inv_inv]
    rw [hscale, div_eq_mul_inv]

theorem parseNumber_minus (cs : List Char) : parseNumber ('-' :: cs) = parseSigned true cs := rfl

theorem parseNumber_plus (h : cs.head? ≠ some '-') :
    parseNumber cs = parseSigned false cs := by
  unfold parseNumber
  split
  rename_i negative digits hsign
  split at hsign
  · exact absurd rfl h
  · cases hsign
    rfl

/-- A text that does not go on with a number. -/
def Stops (rest : List Char) : Prop :=
  ∀ c ∈ rest.head?, isDigit c = false ∧ c ≠ '.' ∧ c ≠ 'e' ∧ c ≠ 'E'

theorem span_digits {ds rest : List Char} (hds : ∀ c ∈ ds, isDigit c = true)
    (hrest : ∀ c ∈ rest.head?, isDigit c = false) : (ds ++ rest).span isDigit = (ds, rest) := by
  rw [List.span_eq_takeWhile_dropWhile, List.takeWhile_append_of_pos hds,
    List.dropWhile_append_of_pos hds]
  cases rest with
  | nil => simp
  | cons c rest =>
      have hc : isDigit c = false := hrest c rfl
      simp [hc]

theorem while_digits (hds : ∀ c ∈ ds, isDigit c = true)
    (hrest : ∀ c ∈ rest.head?, isDigit c = false) :
    (ds ++ rest).takeWhile isDigit = ds ∧ (ds ++ rest).dropWhile isDigit = rest := by
  have hspan := span_digits hds hrest
  rw [List.span_eq_takeWhile_dropWhile] at hspan
  exact Prod.mk.inj hspan

theorem stops_whole {t : NumberText} (hrest : Stops rest) :
    ∀ c ∈ (fractionChars t.fraction ++ (exponentChars t.exponent ++ rest)).head?,
      isDigit c = false := by
  intro c hc
  cases hfraction : t.fraction with
  | cons d ds =>
      rw [hfraction] at hc
      cases hc
      decide
  | nil =>
      cases hexponent : t.exponent with
      | some e =>
          rw [hfraction, hexponent] at hc
          cases hc
          decide
      | none =>
          rw [hfraction, hexponent] at hc
          exact (hrest c hc).1

theorem parseExponent_text {exponent : Option (Bool × List Char)} {rest : List Char}
    (h : ∀ minus ds, exponent = some (minus, ds) → ds ≠ [] ∧ ∀ c ∈ ds, isDigit c = true)
    (hrest : Stops rest) :
    parseExponent (exponentChars exponent ++ rest) = some (exponentValue exponent, rest) := by
  cases exponent with
  | none =>
      cases rest with
      | nil => rfl
      | cons c rest =>
          obtain ⟨-, -, he, hE⟩ := hrest c rfl
          show (if c = 'e' ∨ c = 'E' then _ else _) = _
          rw [if_neg (by simp [he, hE])]
          rfl
  | some e =>
      obtain ⟨minus, ds⟩ := e
      obtain ⟨hne, hds⟩ := h minus ds rfl
      obtain ⟨htake, hdrop⟩ := while_digits hds fun c hc => (hrest c hc).1
      cases minus <;> simp [exponentChars, parseExponent, htake, hdrop, hne, exponentValue]

theorem parseFraction_text {fraction rest : List Char} (h : ∀ c ∈ fraction, isDigit c = true)
    (hdigit : ∀ c ∈ rest.head?, isDigit c = false) (hpoint : rest.head? ≠ some '.') :
    parseFraction (fractionChars fraction ++ rest) = some (fraction, rest) := by
  cases fraction with
  | nil =>
      show parseFraction rest = _
      unfold parseFraction
      split
      · exact absurd rfl hpoint
      · rfl
  | cons d ds =>
      obtain ⟨htake, hdrop⟩ := while_digits h hdigit
      rw [List.cons_append] at htake hdrop
      simp [fractionChars, parseFraction, htake, hdrop]

theorem stops_fraction {exponent : Option (Bool × List Char)} {rest : List Char}
    (hrest : Stops rest) : (∀ c ∈ (exponentChars exponent ++ rest).head?, isDigit c = false) ∧
      (exponentChars exponent ++ rest).head? ≠ some '.' := by
  cases exponent with
  | none => exact ⟨fun c hc => (hrest c hc).1, fun hc => (hrest '.' hc).2.1 rfl⟩
  | some e =>
      refine ⟨fun c hc => ?_, by simp [exponentChars]⟩
      cases hc
      decide

theorem parseSigned_text {t : NumberText} (h : t.WellFormed) (hrest : Stops rest) :
    parseSigned t.negative (t.unsignedChars ++ rest) = some (t.value, rest) := by
  have hspan := span_digits h.whole (stops_whole (t := t) hrest)
  obtain ⟨hdigit, hpoint⟩ := @stops_fraction t.exponent rest hrest
  unfold parseSigned unsignedChars
  rw [List.append_assoc, List.append_assoc, hspan]
  dsimp only
  rw [if_neg (not_or.mpr ⟨h.nonempty, h.leading⟩), parseFraction_text h.fraction hdigit hpoint]
  dsimp only
  rw [parseExponent_text h.exponent hrest]
  dsimp only
  rw [scaled_eq]
  rfl

/-- **A literal denotes its value.** -/
theorem parseNumber_text {t : NumberText} (h : t.WellFormed) {rest : List Char}
    (hrest : Stops rest) : parseNumber (t.chars ++ rest) = some (t.value, rest) := by
  have hsigned := parseSigned_text h hrest
  unfold chars
  cases hnegative : t.negative with
  | true =>
      rw [hnegative] at hsigned
      show parseNumber ('-' :: (t.unsignedChars ++ rest)) = _
      rw [parseNumber_minus, hsigned]
  | false =>
      have hhead : (t.unsignedChars ++ rest).head? ≠ some '-' := by
        obtain ⟨d, ds, hwhole⟩ := List.exists_cons_of_ne_nil h.nonempty
        have hdigit : isDigit d = true := h.whole d (by rw [hwhole]; exact List.mem_cons_self)
        unfold unsignedChars
        rw [hwhole]
        intro hminus
        obtain rfl : d = '-' := Option.some.inj hminus
        exact absurd hdigit (by decide)
      rw [hnegative] at hsigned
      show parseNumber (t.unsignedChars ++ rest) = _
      rw [parseNumber_plus hhead, hsigned]

/-! ## Finite expansions -/

/-- A number with a finite decimal expansion. -/
def Decimal (q : Rat) : Prop := ∃ k : Nat, (q * 10 ^ k).den = 1

theorem den_mul_pow : (q * 10 ^ k).den = 1 ↔ q.den ∣ 10 ^ k := by
  have hden : (q.den : Int) ≠ 0 := Int.natCast_ne_zero.mpr q.den_nz
  have hq : q * 10 ^ k = ((q.num * 10 ^ k : Int) : Rat) / ((q.den : Int) : Rat) := by
    push_cast
    rw [mul_div_right_comm, Rat.num_div_den]
  rw [hq, Rat.den_div_intCast_eq_one_iff _ _ hden, Int.natCast_dvd, Int.natAbs_mul, Int.natAbs_pow]
  exact Nat.Coprime.dvd_mul_left (Nat.Coprime.symm q.reduced)

/-- A divisor of a power of ten divides a small one. -/
theorem dvd_pow_log {d k : Nat} (h : d ∣ 10 ^ k) : d ∣ 10 ^ d.log2 := by
  induction d using Nat.strongRecOn with
  | _ d ih =>
      have hpos : 0 < d := Nat.pos_of_dvd_of_pos h (Nat.pow_pos (by decide))
      by_cases hone : d = 1
      · rw [hone]
        exact one_dvd _
      -- a common factor with 10 is taken out, and the rest is at most half
      · have hgcd : d.gcd 10 ≠ 1 := by
          intro hcoprime
          exact hone (Nat.Coprime.eq_one_of_dvd (Nat.Coprime.pow_right k hcoprime) h)
        have hgpos : 0 < d.gcd 10 := Nat.gcd_pos_of_pos_left _ hpos
        obtain ⟨d', hd'⟩ := Nat.gcd_dvd_left d 10
        have hd'pos : 0 < d' := by
          rcases Nat.eq_zero_or_pos d' with rfl | hd'
          · omega
          · exact hd'
        have hdouble : 2 * d' ≤ d := by
          calc 2 * d' ≤ d.gcd 10 * d' := Nat.mul_le_mul_right _ (by omega)
            _ = d := hd'.symm
        have hrest := ih d' (by omega) ((Dvd.intro_left _ hd'.symm).trans h)
        have hlog : d'.log2 + 1 ≤ d.log2 := by
          rw [Nat.le_log2 (by omega), Nat.pow_succ]
          have hle := Nat.log2_self_le (n := d') (by omega)
          omega
        calc d = d.gcd 10 * d' := hd'
          _ ∣ 10 * 10 ^ d'.log2 := Nat.mul_dvd_mul (Nat.gcd_dvd_right d 10) hrest
          _ = 10 ^ (d'.log2 + 1) := by rw [Nat.pow_succ, Nat.mul_comm]
          _ ∣ 10 ^ d.log2 := Nat.pow_dvd_pow 10 hlog

theorem den_of_decimalPlaces {fuel places : Nat} (h : decimalPlaces fuel q = some places) :
    (q * 10 ^ places).den = 1 := by
  induction fuel generalizing q places with
  | zero =>
      unfold decimalPlaces at h
      split at h
      · rename_i hden
        cases h
        simpa using hden
      · cases h
  | succ fuel ih =>
      unfold decimalPlaces at h
      split at h
      · rename_i hden
        cases h
        simpa using hden
      · obtain ⟨places, hplaces, rfl⟩ := Option.map_eq_some_iff.mp h
        have hden := ih hplaces
        rwa [mul_assoc, ← pow_succ'] at hden

theorem isSome_decimalPlaces {fuel k : Nat} (hk : k ≤ fuel) (h : (q * 10 ^ k).den = 1) :
    (decimalPlaces fuel q).isSome = true := by
  induction fuel generalizing q k with
  | zero =>
      obtain rfl : k = 0 := by omega
      unfold decimalPlaces
      rw [if_pos (by simpa using h)]
      rfl
  | succ fuel ih =>
      unfold decimalPlaces
      split
      · rfl
      · rename_i hden
        cases k with
        | zero => exact absurd (by simpa using h) hden
        | succ k =>
            rw [Option.isSome_map]
            refine ih (Nat.le_of_succ_le_succ hk) ?_
            rwa [mul_assoc, ← pow_succ']

theorem Decimal.places (h : Decimal q) :
    ∃ places, decimalPlaces q.den.log2 q = some places ∧ (q * 10 ^ places).den = 1 := by
  obtain ⟨k, hk⟩ := h
  have hden : (q * 10 ^ q.den.log2).den = 1 := den_mul_pow.mpr (dvd_pow_log (den_mul_pow.mp hk))
  obtain ⟨places, hplaces⟩ := Option.isSome_iff_exists.mp
    (isSome_decimalPlaces (Nat.le_refl _) hden)
  exact ⟨places, hplaces, den_of_decimalPlaces hplaces⟩

theorem stripZeros_eq (fuel n : Nat) :
    (stripZeros fuel n).1 * 10 ^ (stripZeros fuel n).2 = n := by
  induction fuel generalizing n with
  | zero => simp [stripZeros]
  | succ fuel ih =>
      unfold stripZeros
      split
      · rename_i hzero
        have hn := ih (n / 10)
        dsimp only
        rw [Nat.pow_succ, ← Nat.mul_assoc, hn]
        omega
      · simp

/-! ## Writing a literal

Each layout of the digits denotes the digits scaled to the point. -/

theorem fractionChars_of_ne_nil (h : ds ≠ []) : fractionChars ds = '.' :: ds := by
  cases ds with
  | nil => exact absurd rfl h
  | cons d ds => rfl

/-- The exponent that is written for `e`. -/
def exponentOf (e : Int) : Option (Bool × List Char) :=
  some (!decide (0 ≤ e), (toString e.natAbs).toList)

theorem exponentChars_exponentOf (e : Int) : exponentChars (exponentOf e) =
    ((if 0 ≤ e then "e+" else "e-") ++ toString e.natAbs).toList := by
  by_cases he : 0 ≤ e <;> simp [exponentOf, exponentChars, he, String.toList_append]

theorem exponentValue_exponentOf (e : Int) : exponentValue (exponentOf e) = e := by
  unfold exponentOf exponentValue
  dsimp only
  rw [digitsValue_toString]
  by_cases he : 0 ≤ e
  · rw [decide_eq_true he]
    show (e.natAbs : Int) = e
    omega
  · rw [decide_eq_false he]
    show -(e.natAbs : Int) = e
    omega

theorem digits_exponentOf (e : Int) : ∀ minus ds, exponentOf e = some (minus, ds) →
    ds ≠ [] ∧ ∀ c ∈ ds, isDigit c = true := by
  intro minus ds h
  cases h
  exact ⟨toString_ne_nil _, fun _ => isDigit_of_mem_toString⟩

section Layout

variable {digits : List Char}
variable {point : Int}

/-- What is written of the digits: a literal without a sign, in which they stand for
`digits · 10 ^ (point - k)`. -/
def Lays (digits : List Char) (point : Int) (text : String) : Prop :=
  ∃ t : NumberText, t.WellFormed ∧ t.negative = false ∧ text.toList = t.unsignedChars ∧
    t.magnitude = digitsValue digits * (10 : Rat) ^ (point - digits.length)

theorem lays_whole (hne : digits ≠ []) (hdigits : ∀ c ∈ digits, isDigit c = true)
    (hhead : digits.head? ≠ some '0') (h : digits.length ≤ point) :
    Lays digits point
      (String.ofList (digits ++ List.replicate (point - digits.length).toNat '0')) := by
  refine ⟨⟨false, digits ++ List.replicate (point - digits.length).toNat '0', [], none⟩,
    ⟨by simp [hne], ?_, ?_, by simp, by simp⟩, rfl, ?_, ?_⟩
  · intro c hc
    rcases List.mem_append.mp hc with hc | hc
    · exact hdigits c hc
    · rw [List.eq_of_mem_replicate hc]
      decide
  · rintro ⟨hzero, -⟩
    rw [List.head?_append_of_ne_nil _ hne] at hzero
    exact hhead hzero
  · simp [unsignedChars, fractionChars, exponentChars]
  · have hscale : (10 : Rat) ^ (point - digits.length) =
        10 ^ (point - digits.length).toNat := by
      rw [← zpow_natCast, Int.toNat_of_nonneg (by omega)]
    unfold magnitude
    simp only [List.append_nil, exponentValue, List.length_nil, Nat.cast_zero, sub_zero, zpow_zero,
      mul_one, digitsValue_append, digitsValue_zeros, List.length_replicate, add_zero, hscale]
    push_cast
    ring

theorem lays_split (hdigits : ∀ c ∈ digits, isDigit c = true) (hhead : digits.head? ≠ some '0')
    (hpos : 0 < point) (h : point < digits.length) :
    Lays digits point
      (String.ofList (digits.take point.toNat ++ '.' :: digits.drop point.toNat)) := by
  have hne : digits.take point.toNat ≠ [] := by
    rw [Ne, List.take_eq_nil_iff]
    rintro (hzero | rfl)
    · omega
    · simp at h
      omega
  have hrest : digits.drop point.toNat ≠ [] := by
    rw [Ne, List.drop_eq_nil_iff]
    omega
  refine ⟨⟨false, digits.take point.toNat, digits.drop point.toNat, none⟩,
    ⟨hne, fun c hc => hdigits c (List.mem_of_mem_take hc), ?_,
      fun c hc => hdigits c (List.mem_of_mem_drop hc), by simp⟩, rfl, ?_, ?_⟩
  · rintro ⟨hzero, -⟩
    rw [List.head?_take, if_neg (by omega)] at hzero
    exact hhead hzero
  · simp [unsignedChars, exponentChars, fractionChars_of_ne_nil hrest]
  · unfold magnitude
    dsimp only [exponentValue]
    rw [List.take_append_drop, List.length_drop]
    congr 2
    omega

theorem lays_small (hdigits : ∀ c ∈ digits, isDigit c = true) (hne : digits ≠ []) (h : point ≤ 0) :
    Lays digits point
      (String.ofList ('0' :: '.' :: (List.replicate (-point).toNat '0' ++ digits))) := by
  refine ⟨⟨false, ['0'], List.replicate (-point).toNat '0' ++ digits, none⟩,
    ⟨by simp, by simp [isDigit], by simp, ?_, by simp⟩, rfl, ?_, ?_⟩
  · intro c hc
    rcases List.mem_append.mp hc with hc | hc
    · rw [List.eq_of_mem_replicate hc]
      decide
    · exact hdigits c hc
  · have hfraction : List.replicate (-point).toNat '0' ++ digits ≠ [] := by simp [hne]
    simp [unsignedChars, exponentChars, fractionChars_of_ne_nil hfraction]
  · have hvalue : digitsValue (['0'] ++ (List.replicate (-point).toNat '0' ++ digits)) =
        digitsValue digits := by
      rw [← List.append_assoc, digitsValue_append]
      have hzeros : ['0'] ++ List.replicate (-point).toNat '0' =
          List.replicate ((-point).toNat + 1) '0' := rfl
      rw [hzeros, digitsValue_zeros]
      omega
    unfold magnitude
    dsimp only [exponentValue]
    rw [hvalue, List.length_append, List.length_replicate]
    congr 2
    push_cast
    omega

theorem lays_scaled {d : Char} {ds : List Char} (hdigits : ∀ c ∈ d :: ds, isDigit c = true)
    (point : Int) {text : String}
    (htext : text.toList = d :: (fractionChars ds ++ exponentChars (exponentOf (point - 1)))) :
    Lays (d :: ds) point text := by
  refine ⟨⟨false, [d], ds, exponentOf (point - 1)⟩, ⟨by simp, ?_, by simp,
    fun c hc => hdigits c (List.mem_cons_of_mem d hc), digits_exponentOf _⟩, rfl, htext, ?_⟩
  · intro c hc
    rw [List.mem_singleton.mp hc]
    exact hdigits d List.mem_cons_self
  · unfold magnitude
    dsimp only
    rw [exponentValue_exponentOf]
    show (digitsValue (d :: ds) : Rat) * _ = _
    congr 2
    simp only [List.length_cons]
    push_cast
    omega

theorem lays_layoutNumber (hne : digits ≠ []) (hdigits : ∀ c ∈ digits, isDigit c = true)
    (hhead : digits.head? ≠ some '0') (point : Int) :
    Lays digits point (layoutNumber digits point) := by
  unfold layoutNumber
  dsimp only
  split
  · rename_i h
    -- digits and zeros, the first of the four layouts
    exact lays_whole hne hdigits hhead h.1
  · rename_i hlong
    split
    · rename_i h
      exact lays_split hdigits hhead h.1 (by omega)
    · split
      · rename_i h
        exact lays_small hdigits hne h.2
      · cases digits with
        | nil => exact absurd rfl hne
        | cons d ds =>
            refine lays_scaled hdigits point ?_
            cases ds with
            | nil =>
                rw [exponentChars_exponentOf]
                simp [fractionChars]
            | cons e es =>
                rw [exponentChars_exponentOf]
                simp [fractionChars]

end Layout

theorem abs_scaled {places : Nat} (h : (q * 10 ^ places).den = 1) :
    (((q * 10 ^ places).num.natAbs : Nat) : Rat) = (if q < 0 then -q else q) * 10 ^ places := by
  have hnum : ((q * 10 ^ places).num : Rat) = q * 10 ^ places := (Rat.den_eq_one_iff _).mp h
  have hpow : (0 : Rat) < 10 ^ places := pow_pos (by norm_num) _
  rw [Nat.cast_natAbs, Int.cast_abs, hnum, abs_mul, abs_of_pos hpow]
  split
  · rename_i hneg
    rw [abs_of_neg hneg]
  · rename_i hpos
    rw [abs_of_nonneg (not_lt.mp hpos)]

/-- **What is written is a literal of the number.** -/
theorem numberToString_text (h : Decimal q) :
    ∃ t : NumberText, t.WellFormed ∧ (numberToString q).toList = t.chars ∧ t.value = q := by
  unfold numberToString
  by_cases hq : q = 0
  · rw [if_pos hq, hq]
    refine ⟨⟨false, ['0'], [], none⟩, ⟨by simp, by simp [isDigit], by simp, by simp, by simp⟩, rfl, ?_⟩
    simp [value, magnitude, digitsValue]
  · obtain ⟨places, hplaces, hden⟩ := h.places
    have habs := abs_scaled hden
    have hstrip := stripZeros_eq (q * 10 ^ places).num.natAbs.log2.succ (q * 10 ^ places).num.natAbs
    rw [if_neg hq, hplaces]
    dsimp only
    generalize (q * 10 ^ places).num.natAbs = scaled at habs hstrip ⊢
    generalize hzeros : stripZeros scaled.log2.succ scaled = stripped at hstrip ⊢
    obtain ⟨digits, zeros⟩ := stripped
    dsimp only at hstrip ⊢
    -- a number that is not zero keeps a digit
    have hpositive : 0 < digits := by
      rcases Nat.eq_zero_or_pos digits with rfl | hpos
      · rw [Nat.zero_mul] at hstrip
        rw [← hstrip] at habs
        have hpow : (10 : Rat) ^ places ≠ 0 := pow_ne_zero _ (by norm_num)
        rcases mul_eq_zero.mp habs.symm with hzero | hzero
        · split at hzero
          · exact absurd (neg_eq_zero.mp hzero) hq
          · exact absurd hzero hq
        · exact absurd hzero hpow
      · exact hpos
    obtain ⟨t, hwell, hplus, htext, hmagnitude⟩ := lays_layoutNumber (toString_ne_nil digits)
      (fun _ => isDigit_of_mem_toString) (head_toString hpositive)
      ((toString digits).toList.length + zeros - places)
    have hvalue : t.magnitude = if q < 0 then -q else q := by
      have hpow : (10 : Rat) ^ places ≠ 0 := pow_ne_zero _ (by norm_num)
      have hexponent : ((toString digits).toList.length + zeros - places -
          (toString digits).toList.length : Int) = zeros - places := by omega
      rw [hmagnitude, digitsValue_toString, hexponent, zpow_sub₀ (by norm_num), zpow_natCast,
        zpow_natCast, ← mul_div_assoc, div_eq_iff hpow, ← habs, ← hstrip]
      push_cast
      ring
    refine ⟨{ t with negative := decide (q < 0) }, ⟨hwell.nonempty, hwell.whole, hwell.leading,
      hwell.fraction, hwell.exponent⟩, ?_, ?_⟩
    · rw [String.toList_append, htext]
      unfold chars
      by_cases hneg : q < 0
      · rw [if_pos hneg, decide_eq_true hneg]
        rfl
      · rw [if_neg hneg, decide_eq_false hneg]
        rfl
    · show (if decide (q < 0) = true then -t.magnitude else t.magnitude) = q
      rw [hvalue]
      by_cases hneg : q < 0 <;> simp [hneg]

/-! ## What is read -/

theorem decimal_neg (h : Decimal q) : Decimal (-q) := by
  obtain ⟨k, hk⟩ := h
  exact ⟨k, by rw [neg_mul, Rat.den_neg_eq_den, hk]⟩

theorem decimal_scaled (n : Nat) (e : Int) : Decimal (n * (10 : Rat) ^ e) := by
  obtain ⟨m, hm⟩ := Int.eq_ofNat_of_zero_le (a := e + (-e).toNat) (by omega)
  have hscale : (n : Rat) * 10 ^ e * 10 ^ (-e).toNat = ((n * 10 ^ m : Nat) : Rat) := by
    rw [mul_assoc, ← zpow_natCast (10 : Rat) (-e).toNat, ← zpow_add₀ (by norm_num), hm, zpow_natCast]
    push_cast
    rfl
  exact ⟨(-e).toNat, by rw [hscale]; exact Rat.den_natCast _⟩

theorem decimal_of_parseSigned {negative : Bool} (h : parseSigned negative cs = some (q, rest)) :
    Decimal q := by
  unfold parseSigned at h
  dsimp only at h
  split at h
  · cases h
  · split at h
    · cases h
    · split at h
      · cases h
      · cases h
        rw [scaled_eq]
        split
        · exact decimal_neg (decimal_scaled _ _)
        · exact decimal_scaled _ _

/-- **What is read has a finite expansion.** -/
theorem decimal_of_parseNumber (h : parseNumber cs = some (q, rest)) : Decimal q := by
  by_cases hminus : cs.head? = some '-'
  · obtain ⟨cs, rfl⟩ := List.head?_eq_some_iff.mp hminus
    rw [parseNumber_minus] at h
    exact decimal_of_parseSigned h
  · rw [parseNumber_plus hminus] at h
    exact decimal_of_parseSigned h

end MapProtocol.Js
