import Mathlib.Data.List.Infix
import Mathlib.Data.List.TakeWhile

/-!
# JavaScript string operations

The operations of `String.prototype` that the program calls, on Lean strings read as their list of
characters. Each is structural on that list, so it evaluates.
-/

namespace MapProtocol.Js

variable {c sep : Char} {cs : List Char} {s : String}

/-- The characters `String.prototype.trim` strips: `WhiteSpace` and `LineTerminator`. -/
def isWhiteSpace (c : Char) : Bool :=
  let n := c.toNat
  (9 ≤ n && n ≤ 13) || n == 0x20 || n == 0xA0 || n == 0x1680 || (0x2000 ≤ n && n ≤ 0x200A) ||
    n == 0x2028 || n == 0x2029 || n == 0x202F || n == 0x205F || n == 0x3000 || n == 0xFEFF

/-- `\w`. -/
def isWordChar (c : Char) : Bool := c.isAlphanum || c == '_'

/-- `s.trim()`. -/
def trim (s : String) : String :=
  String.ofList ((s.toList.dropWhile isWhiteSpace).reverse.dropWhile isWhiteSpace).reverse

/-- `s.trim().length === 0`. -/
def isBlank (s : String) : Bool := s.toList.all isWhiteSpace

/-- Does `pat` occur in `cs`? -/
def includesChars (pat : List Char) : List Char → Bool
  | []      => pat.isEmpty
  | c :: cs => pat.isPrefixOf (c :: cs) || includesChars pat cs

/-- `s.includes(pat)`. -/
def includes (s pat : String) : Bool := includesChars pat.toList s.toList

/-- `s.startsWith(pat)`. -/
def startsWith (s pat : String) : Bool := pat.toList.isPrefixOf s.toList

/-- `s.endsWith(pat)`. -/
def endsWith (s pat : String) : Bool := pat.toList.isSuffixOf s.toList

/-- `s.slice(start, -end)`. -/
def sliceInner (s : String) (start fromEnd : Nat) : String :=
  String.ofList ((s.toList.take (s.toList.length - fromEnd)).drop start)

/-- `s.toLowerCase()`, on the ASCII letters. -/
def toLowerCase (s : String) : String := String.ofList (s.toList.map Char.toLower)

/-- `s.toUpperCase()`, on the ASCII letters. -/
def toUpperCase (s : String) : String := String.ofList (s.toList.map Char.toUpper)

/-- `s.split(sep)` for a separator of one character. -/
def splitChars (sep : Char) : List Char → List (List Char)
  | []      => [[]]
  | c :: cs =>
      if c = sep then [] :: splitChars sep cs
      else match splitChars sep cs with
        | []      => [[c]]
        | w :: ws => (c :: w) :: ws

def split (s : String) (sep : Char) : List String := (splitChars sep s.toList).map String.ofList

theorem isAlphanum_iff :
    c.isAlphanum = true ↔ (65 ≤ c.toNat ∧ c.toNat ≤ 90) ∨ (97 ≤ c.toNat ∧ c.toNat ≤ 122) ∨
      (48 ≤ c.toNat ∧ c.toNat ≤ 57) := by
  show (decide ('A'.val ≤ c.val ∧ c.val ≤ 'Z'.val) ||
    decide ('a'.val ≤ c.val) && decide (c.val ≤ 'z'.val) ||
      decide ('0'.val ≤ c.val) && decide (c.val ≤ '9'.val)) = true ↔ _
  simp only [Bool.or_eq_true, Bool.and_eq_true, decide_eq_true_eq, UInt32.le_iff_toNat_le]
  exact or_assoc

theorem toString_injective {m n : Nat} (h : toString m = toString n) : m = n := by
  rw [Nat.toString_eq_ofList_toDigits, Nat.toString_eq_ofList_toDigits] at h
  have hdigits : Nat.toDigits 10 m = Nat.toDigits 10 n := by
    simpa using congrArg String.toList h
  rw [← Nat.ofDigitChars_ten_toDigits (n := m), hdigits, Nat.ofDigitChars_ten_toDigits]

/-- `n` in decimal, filled up with zeros to `width` digits. -/
def padded (width n : Nat) : String :=
  let digits := (toString n).toList
  String.ofList (List.replicate (width - digits.length) '0' ++ digits)

/-- `new Date(ms).toISOString()`, for an instant since the epoch. The Gregorian date is counted in
eras of 400 years that begin on 1 March. -/
def toISOString (ms : Nat) : String :=
  let days := ms / 86400000 + 719468
  let dayOfEra := days % 146097
  let yearOfEra := (dayOfEra - dayOfEra / 1460 + dayOfEra / 36524 - dayOfEra / 146096) / 365
  let dayOfYear := dayOfEra - (365 * yearOfEra + yearOfEra / 4 - yearOfEra / 100)
  let monthFromMarch := (5 * dayOfYear + 2) / 153
  let day := dayOfYear - (153 * monthFromMarch + 2) / 5 + 1
  let month := if monthFromMarch < 10 then monthFromMarch + 3 else monthFromMarch - 9
  let year := days / 146097 * 400 + yearOfEra + (if month ≤ 2 then 1 else 0)
  let date := (if year ≤ 9999 then padded 4 year else "+" ++ padded 6 year) ++ "-" ++
    padded 2 month ++ "-" ++ padded 2 day
  let rest := ms % 86400000
  date ++ "T" ++ padded 2 (rest / 3600000) ++ ":" ++ padded 2 (rest / 60000 % 60) ++ ":" ++
    padded 2 (rest / 1000 % 60) ++ "." ++ padded 3 (rest % 1000) ++ "Z"

example : toISOString 1709164800000 = "2024-02-29T00:00:00.000Z" := by decide

theorem includesChars_iff {pat cs : List Char} : includesChars pat cs = true ↔ pat <:+: cs := by
  induction cs with
  | nil => simp [includesChars]
  | cons c cs ih => simp [includesChars, ih, List.infix_cons_iff]

/-- A text that ends in `b` includes whatever `b` includes. -/
theorem includes_append_right {a b pat : String} (h : includes b pat = true) :
    includes (a ++ b) pat = true := by
  have hb := includesChars_iff.mp h
  refine includesChars_iff.mpr ?_
  rw [String.toList_append]
  exact hb.trans (List.suffix_append _ _).isInfix

/-- A text that begins with `a` includes whatever `a` includes. -/
theorem includes_append_left {a b pat : String} (h : includes a pat = true) :
    includes (a ++ b) pat = true := by
  have ha := includesChars_iff.mp h
  refine includesChars_iff.mpr ?_
  rw [String.toList_append]
  exact ha.trans (List.prefix_append _ _).isInfix

/-- What is split is in the pieces, the separators apart. -/
theorem mem_splitChars (hsep : c ≠ sep) (h : c ∈ cs) :
    ∃ w ∈ splitChars sep cs, c ∈ w := by
  induction cs with
  | nil => cases h
  | cons d cs ih =>
      simp only [splitChars]
      rcases List.mem_cons.mp h with rfl | hc
      · rw [if_neg hsep]
        split
        · exact ⟨[c], by simp, by simp⟩
        · rename_i w ws _
          exact ⟨c :: w, by simp, by simp⟩
      · obtain ⟨v, hv, hcv⟩ := ih hc
        split
        · exact ⟨v, by simp [hv], hcv⟩
        · split
          · rename_i hnil
            rw [hnil] at hv
            cases hv
          · rename_i w ws hsplit
            rw [hsplit] at hv
            rcases List.mem_cons.mp hv with rfl | hv
            · exact ⟨d :: v, by simp, by simp [hcv]⟩
            · exact ⟨v, by simp [hv], hcv⟩

theorem splitChars_ne_nil (cs : List Char) : splitChars sep cs ≠ [] := by
  cases cs with
  | nil => exact List.cons_ne_nil _ _
  | cons c cs =>
      rw [splitChars]
      split
      · exact List.cons_ne_nil _ _
      · split <;> exact List.cons_ne_nil _ _

theorem splitChars_of_notMem {w : List Char} (h : sep ∉ w) : splitChars sep w = [w] := by
  induction w with
  | nil => rfl
  | cons c w ih =>
      obtain ⟨hc, hw⟩ : c ≠ sep ∧ sep ∉ w := by
        simp only [List.mem_cons, not_or] at h
        exact ⟨Ne.symm h.1, h.2⟩
      simp [splitChars, hc, ih hw]

theorem splitChars_append {w : List Char} (h : sep ∉ w) (rest : List Char) :
    splitChars sep (w ++ sep :: rest) = w :: splitChars sep rest := by
  induction w with
  | nil => simp [splitChars]
  | cons c w ih =>
      obtain ⟨hc, hw⟩ : c ≠ sep ∧ sep ∉ w := by
        simp only [List.mem_cons, not_or] at h
        exact ⟨Ne.symm h.1, h.2⟩
      simp [splitChars, hc, ih hw]

theorem trim_of_ends {c d : Char} {cs ds : List Char} (hbegin : s.toList = c :: cs)
    (hc : isWhiteSpace c = false) (hend : s.toList = ds ++ [d]) (hd : isWhiteSpace d = false) :
    trim s = s := by
  have hleft : s.toList.dropWhile isWhiteSpace = s.toList := by
    rw [hbegin, List.dropWhile_cons_of_neg (by simp [hc])]
  have hright : s.toList.reverse.dropWhile isWhiteSpace = s.toList.reverse := by
    rw [hend, List.reverse_append, List.reverse_singleton, List.singleton_append,
      List.dropWhile_cons_of_neg (by simp [hd])]
  unfold trim
  rw [hleft, hright, List.reverse_reverse, String.ofList_toList]

theorem trim_eq_empty_iff : trim s = "" ↔ isBlank s = true := by
  unfold trim isBlank
  rw [← String.toList_eq_nil_iff, String.toList_ofList, List.reverse_eq_nil_iff,
    List.dropWhile_eq_nil_iff, List.all_eq_true]
  simp only [List.mem_reverse]
  constructor
  · intro h
    have hhead := List.head?_dropWhile_not isWhiteSpace s.toList
    cases hdrop : s.toList.dropWhile isWhiteSpace with
    | nil => exact List.dropWhile_eq_nil_iff.mp hdrop
    | cons c cs =>
        -- the first character that is left would be no white space
        rw [hdrop] at hhead h
        have hwhite := h c (List.mem_cons_self ..)
        rw [show isWhiteSpace c = false from hhead] at hwhite
        cases hwhite
  · intro h c hc
    exact h c ((List.dropWhile_suffix _).subset hc)

theorem trim_eq_self (h : ∀ c ∈ s.toList, isWhiteSpace c = false) : trim s = s := by
  rcases List.eq_nil_or_concat s.toList with hnil | ⟨ds, d, hend⟩
  · rw [String.toList_eq_nil_iff.mp hnil]
    rfl
  · rw [List.concat_eq_append] at hend
    obtain ⟨c, cs, hbegin⟩ : ∃ c cs, s.toList = c :: cs :=
      List.exists_cons_of_ne_nil (by simp [hend])
    exact trim_of_ends hbegin (h c (by simp [hbegin])) hend (h d (by simp [hend]))

end MapProtocol.Js
