import MapProtocol.Sdk.Encoders
import MapProtocol.Js.JsonNumbers
import Mathlib.Data.List.Sort

/-!
# Python values

The values that `json.loads` gives, the text that `json.dumps` makes of them with sorted keys and
without spaces, and what `int` reads in a text.
-/

namespace MapProtocol.Py

open Js (isDigit)

/-- A value made of JSON. Floats are finite. -/
inductive Value where
  | none
  | bool (b : Bool)
  | int (n : Int)
  | float (q : Rat)
  | str (s : String)
  | list (xs : List Value)
  | dict (es : List (String × Value))

abbrev Dict := List (String × Value)

/-! ## Writing -/

/-- The digits of a float, laid out as `repr` does. -/
def layoutFloat (digits : List Char) (point : Int) : String :=
  let k : Int := digits.length
  if k ≤ point ∧ point ≤ 16 then
    String.ofList (digits ++ List.replicate (point - k).toNat '0' ++ ['.', '0'])
  else if 0 < point ∧ point ≤ 16 then
    String.ofList (digits.take point.toNat ++ '.' :: digits.drop point.toNat)
  else if -4 < point ∧ point ≤ 0 then
    String.ofList ('0' :: '.' :: (List.replicate (-point).toNat '0' ++ digits))
  else
    let e := point - 1
    let exponent := (if 0 ≤ e then "e+" else "e-") ++ Js.padded 2 e.natAbs
    match digits with
    | []      => "0.0"
    | [d]     => String.ofList [d] ++ exponent
    | d :: ds => String.ofList (d :: '.' :: ds) ++ exponent

/-- `repr(q)`. A number with no finite decimal expansion, which no float is, is written as a
fraction. -/
def reprFloat (q : Rat) : String :=
  if q = 0 then "0.0"
  else
    let sign := if q < 0 then "-" else ""
    match Js.decimalPlaces q.den.log2 q with
    | .none        => sign ++ toString q.num.natAbs ++ "/" ++ toString q.den
    | .some places =>
        let scaled := (q * 10 ^ places).num.natAbs
        let (digits, zeros) := Js.stripZeros scaled.log2.succ scaled
        let text := (toString digits).toList
        sign ++ layoutFloat text (text.length + zeros - places)

def keyBefore (a b : String × String) : Prop := a.1 ≤ b.1

instance : DecidableRel keyBefore := fun a b => inferInstanceAs (Decidable (a.1 ≤ b.1))

mutual

/-- `json.dumps(v, sort_keys=True, separators=(",", ":"))`. -/
def dumps : Value → String
  | .none     => "null"
  | .bool b   => if b then "true" else "false"
  | .int n    => toString n
  | .float q  => reprFloat q
  | .str s    => Sdk.python.quote s
  | .list xs  => "[" ++ Js.commaSeparated (dumpsElements xs) ++ "]"
  | .dict es  =>
      let members := (dumpsMembers es).insertionSort keyBefore
      "\x7b" ++ Js.commaSeparated (members.map fun m => Sdk.python.quote m.1 ++ ":" ++ m.2) ++ "\x7d"

def dumpsElements : List Value → List String
  | []      => []
  | v :: vs => dumps v :: dumpsElements vs

def dumpsMembers : List (String × Value) → List (String × String)
  | []           => []
  | (k, v) :: es => (k, dumps v) :: dumpsMembers es

end

example : dumps (.dict [("b", .float (3 / 2)), ("a", .list [.int 1, .float 1, .none])]) =
    "\x7b\"a\":[1,1.0,null],\"b\":1.5\x7d" := by decide +kernel

/-! ## Reading an integer -/

/-- `str.isspace`. -/
def isSpace (c : Char) : Bool :=
  let n := c.toNat
  (9 ≤ n && n ≤ 13) || (28 ≤ n && n ≤ 32) || n == 0x85 || n == 0xA0 || n == 0x1680 ||
    (0x2000 ≤ n && n ≤ 0x200A) || n == 0x2028 || n == 0x2029 || n == 0x202F || n == 0x205F ||
    n == 0x3000

def strip (cs : List Char) : List Char :=
  ((cs.dropWhile isSpace).reverse.dropWhile isSpace).reverse

section

/-! Which characters beyond ASCII are decimal digits is a parameter. -/

variable (foreignDigit : Char → Option Nat)

def digitValue (c : Char) : Option Nat :=
  if isDigit c then some (c.toNat - 48) else if c.toNat < 128 then .none else foreignDigit c

/-- The number that digits denote, where an underscore may stand between two of them. -/
def readDigits : Bool → Nat → List Char → Option Nat
  | true, n, []   => some n
  | false, _, []  => .none
  | last, n, c :: cs =>
      if c = '_' then if last then readDigits false n cs else .none
      else match digitValue foreignDigit c with
        | some d => readDigits true (10 * n + d) cs
        | .none  => .none

/-- `int(s)`, or `none` where it raises. -/
def int (s : String) : Option Int :=
  match strip s.toList with
  | '+' :: cs => (readDigits foreignDigit false 0 cs).map Int.ofNat
  | '-' :: cs => (readDigits foreignDigit false 0 cs).map fun n => -Int.ofNat n
  | cs        => (readDigits foreignDigit false 0 cs).map Int.ofNat

variable {foreignDigit}

theorem readDigits_chars {last : Bool} {n m : Nat} {cs : List Char}
    (h : readDigits foreignDigit last n cs = some m) :
    ∀ c ∈ cs, c = '_' ∨ digitValue foreignDigit c ≠ .none := by
  induction cs generalizing last n with
  | nil => exact fun _ h => nomatch h
  | cons c cs ih =>
      rw [List.forall_mem_cons]
      rw [readDigits] at h
      split at h
      · rename_i hc
        split at h
        · exact ⟨.inl hc, ih h⟩
        · cases h
      · split at h
        · rename_i d hd
          exact ⟨.inr (by rw [hd]; exact Option.some_ne_none d), ih h⟩
        · cases h

theorem mem_strip {c : Char} {cs : List Char} (hc : isSpace c = false) (h : c ∈ cs) :
    c ∈ strip cs := by
  have hdrop : ∀ {ds : List Char}, c ∈ ds → c ∈ ds.dropWhile isSpace := by
    intro ds
    induction ds with
    | nil => exact id
    | cons d ds ih =>
        intro hmem
        by_cases hd : isSpace d = true
        · rw [List.dropWhile_cons_of_pos hd]
          rcases List.mem_cons.mp hmem with rfl | hmem
          · rw [hc] at hd
            cases hd
          · exact ih hmem
        · rw [List.dropWhile_cons_of_neg hd]
          exact hmem
  exact List.mem_reverse.mpr (hdrop (List.mem_reverse.mpr (hdrop h)))

/-- A text is read as an integer only if it has nothing but space, signs, underscores and digits. -/
theorem int_eq_none {s : String} {c : Char} (hmem : c ∈ s.toList) (hspace : isSpace c = false)
    (hsign : c ≠ '+' ∧ c ≠ '-' ∧ c ≠ '_') (hdigit : digitValue foreignDigit c = .none) :
    int foreignDigit s = .none := by
  have hstripped := mem_strip hspace hmem
  have hnone : ∀ cs, c ∈ cs → readDigits foreignDigit false 0 cs = .none := by
    intro cs hcs
    cases hread : readDigits foreignDigit false 0 cs with
    | none => rfl
    | some n =>
        rcases readDigits_chars hread c hcs with hc | hc
        · exact absurd hc hsign.2.2
        · exact absurd hdigit hc
  unfold int
  split
  · rename_i cs hcs
    rw [hcs] at hstripped
    rw [hnone cs ((List.mem_cons.mp hstripped).resolve_left hsign.1)]
    rfl
  · rename_i cs hcs
    rw [hcs] at hstripped
    rw [hnone cs ((List.mem_cons.mp hstripped).resolve_left hsign.2.1)]
    rfl
  · rw [hnone _ hstripped]
    rfl

theorem readDigits_digits {ds : List Char} (hds : ∀ c ∈ ds, isDigit c = true) (n : Nat) :
    readDigits foreignDigit true n ds =
      some (ds.foldl (fun n d => 10 * n + (d.toNat - 48)) n) := by
  induction ds generalizing n with
  | nil => rfl
  | cons d ds ih =>
      obtain ⟨hd, hds⟩ := List.forall_mem_cons.mp hds
      have hne : d ≠ '_' := by
        rintro rfl
        cases hd
      rw [readDigits, if_neg hne, digitValue, if_pos hd]
      exact ih hds _

/-- `int(str(n))`. -/
theorem int_toString (n : Nat) : int foreignDigit (toString n) = some (n : Int) := by
  have hdigits : ∀ c ∈ (toString n).toList, isDigit c = true :=
    fun c hc => Js.isDigit_of_mem_toString hc
  have hspace : ∀ ds : List Char, (∀ c ∈ ds, isDigit c = true) → ds.dropWhile isSpace = ds := by
    intro ds hds
    cases ds with
    | nil => rfl
    | cons d ds =>
        have hd : ('0' ≤ d && d ≤ '9') = true := (List.forall_mem_cons.mp hds).1
        have hbounds : 48 ≤ d.toNat ∧ d.toNat ≤ 57 := by
          simp only [Bool.and_eq_true, decide_eq_true_eq] at hd
          exact hd
        have hnot : isSpace d = false := by
          unfold isSpace
          simp
          omega
        rw [List.dropWhile_cons_of_neg (by simp [hnot])]
  have hstrip : strip (toString n).toList = (toString n).toList := by
    unfold strip
    rw [hspace _ hdigits, hspace _ fun c hc => hdigits c (List.mem_reverse.mp hc),
      List.reverse_reverse]
  have hvalue : (toString n).toList.foldl (fun n d => 10 * n + (d.toNat - 48)) 0 = n :=
    Js.digitsValue_toString n
  unfold int
  rw [hstrip]
  cases htext : (toString n).toList with
  | nil => exact absurd htext (Js.toString_ne_nil n)
  | cons d ds =>
      rw [htext] at hdigits hvalue
      obtain ⟨hd, hds⟩ := List.forall_mem_cons.mp hdigits
      have hplus : d ≠ '+' := by
        rintro rfl
        cases hd
      have hminus : d ≠ '-' := by
        rintro rfl
        cases hd
      have hne : d ≠ '_' := by
        rintro rfl
        cases hd
      have hread : readDigits foreignDigit false 0 (d :: ds) = some n := by
        rw [readDigits, if_neg hne, digitValue, if_pos hd]
        exact (readDigits_digits hds _).trans (congrArg some hvalue)
      simp [hplus, hminus, hread]

end

end MapProtocol.Py
