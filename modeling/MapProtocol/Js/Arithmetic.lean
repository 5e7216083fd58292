import MapProtocol.Js.Doubles
import MapProtocol.Js.JsonLine
import MapProtocol.Js.Numbers

/-!
# Sums of numbers, and their texts

`a + b`, `values.reduce((a, b) => a + b, 0)` and `String(n)`. The text of a number has the fewest
digits that are read back as it, and no quotes.
-/

namespace MapProtocol.Js

/-- The number that a double stands for: where it is too large, an infinity. -/
def Number.ofDouble (q : Rat) : Number :=
  if isFinite q then .finite q else if q < 0 then .negInfinity else .infinity

/-- `a + b`. -/
def Number.add : Number → Number → Number
  | .nan, _                 => .nan
  | _, .nan                 => .nan
  | .finite p, .finite q    => .ofDouble (toDouble (p + q))
  | .infinity, .negInfinity => .nan
  | .negInfinity, .infinity => .nan
  | .finite _, b            => b
  | a, _                    => a

/-- `values.reduce((a, b) => a + b, 0)`. -/
def sum (values : List Number) : Number := values.foldl Number.add (.finite 0)

/-! ## Text -/

/-- The two integers next to a number, the closer one first; where both are as close, the even one. -/
def nearby (q : Rat) : List Nat :=
  let below := ⌊q⌋.toNat
  let rest := q - below
  if 2 * rest < 1 ∨ 2 * rest = 1 ∧ below % 2 = 0 then [below, below + 1] else [below + 1, below]

/-- As few digits, with a power of ten, as are read back as a positive double. Seventeen digits
always are. -/
def shortest (q : Rat) : Nat × Int :=
  let scale := Int.log 10 q
  ((List.range 18).findSome? fun k =>
    let e := scale + 1 - k
    ((nearby (q / 10 ^ e)).find? fun (s : Nat) => toDouble (s * 10 ^ e) = q).map fun s => (s, e)).getD
      (0, 0)

/-- `String(q)`, for a double. -/
def doubleToString (q : Rat) : String :=
  if q = 0 then "0"
  else
    let (digits, e) := shortest |q|
    let text := (toString digits).toList
    (if q < 0 then "-" else "") ++ layoutNumber text (text.length + e)

/-- `String(n)`. -/
def Number.text : Number → String
  | .nan         => "NaN"
  | .negInfinity => "-Infinity"
  | .finite q    => doubleToString q
  | .infinity    => "Infinity"

example : [toDouble (1 / 10), toDouble (1 / 3), -2.5, 10 ^ 21, toDouble (10 ^ 23)].map doubleToString =
    ["0.1", "0.3333333333333333", "-2.5", "1e+21", "1e+23"] := by decide +kernel

theorem Number.quote_notMem_text (n : Number) : '"' ∉ n.text.toList := by
  cases n with
  | nan => decide
  | negInfinity => decide
  | infinity => decide
  | finite q =>
      show '"' ∉ (doubleToString q).toList
      unfold doubleToString
      split
      · decide
      · have hlayout : '"' ∉ (layoutNumber (toString (shortest |q|).1).toList
            ((toString (shortest |q|).1).toList.length + (shortest |q|).2)).toList :=
          notMem_layoutNumber (by decide) (by decide) (notMem_toString (by decide) _) _
        dsimp only
        split <;> simpa using hlayout

end MapProtocol.Js
