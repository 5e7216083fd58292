import MapProtocol.Js.JsonNumbers

/-!
# Numbers made of other values

`Number(v)`, and the order of numbers. Numbers that are finite are exact here: what a double cannot
hold does not occur.
-/

namespace MapProtocol.Js

inductive Number where
  | nan
  | negInfinity
  | finite (q : Rat)
  | infinity
  deriving DecidableEq

namespace Number

/-- `a < b`. -/
def lt : Number → Number → Bool
  | .nan, _                 => false
  | _, .nan                 => false
  | _, .negInfinity         => false
  | .negInfinity, _         => true
  | .infinity, _            => false
  | .finite _, .infinity    => true
  | .finite p, .finite q    => p < q

/-- `a <= b`. -/
def le (a b : Number) : Bool := a.lt b || (a == b && a != .nan)

end Number

/-- A decimal literal without a sign, whose whole part or fraction may be left out. -/
def readDecimal (cs : List Char) : Option Rat :=
  let (whole, cs) := cs.span isDigit
  let (fraction, cs) := match cs with
    | '.' :: cs => cs.span isDigit
    | cs        => ([], cs)
  if whole = [] ∧ fraction = [] then none
  else match parseExponent cs with
    | some (e, []) => some (digitsValue (whole ++ fraction) * (10 : Rat) ^ (e - fraction.length))
    | _            => none

def readPrefixed (base : Nat) (cs : List Char) : Number :=
  match cs.mapM hexValue with
  | some (d :: ds) =>
      if (d :: ds).all (· < base) then .finite ((d :: ds).foldl (fun n d => base * n + d) 0) else .nan
  | _              => .nan

def readSigned (negative : Bool) (cs : List Char) : Number :=
  if cs = "Infinity".toList then if negative then .negInfinity else .infinity
  else match readDecimal cs with
    | some q => .finite (if negative then -q else q)
    | none   => .nan

/-- `Number(s)`. -/
def stringToNumber (s : String) : Number :=
  match (trim s).toList with
  | []               => .finite 0
  | '0' :: 'x' :: cs => readPrefixed 16 cs
  | '0' :: 'X' :: cs => readPrefixed 16 cs
  | '0' :: 'o' :: cs => readPrefixed 8 cs
  | '0' :: 'O' :: cs => readPrefixed 8 cs
  | '0' :: 'b' :: cs => readPrefixed 2 cs
  | '0' :: 'B' :: cs => readPrefixed 2 cs
  | '+' :: cs        => readSigned false cs
  | '-' :: cs        => readSigned true cs
  | cs               => readSigned false cs

mutual

/-- Does `String(v)` throw? A `toString` of the value's own is no function. -/
def throwsAsText : JsValue → Bool
  | .arr xs => someThrowsAsText xs
  | .obj es => JsObject.has es "toString"
  | _       => false

def someThrowsAsText : List JsValue → Bool
  | []      => false
  | v :: vs => throwsAsText v || someThrowsAsText vs

end

/-- `Number(v)`, or `none` where it throws. -/
def toNumber : JsValue → Option Number
  | .undefined      => some .nan
  | .null           => some (.finite 0)
  | .bool b         => some (.finite (if b then 1 else 0))
  | .num q          => some (.finite q)
  | .str s          => some (stringToNumber s)
  | .arr xs         =>
      if throwsAsText (.arr xs) then none else some (stringToNumber (toText (.arr xs)))
  | .obj es         => if throwsAsText (.obj es) then none else some .nan
  | .inherited name => some (if name = "Array.prototype" then .finite 0 else .nan)

example : stringToNumber " 0x1F " = .finite 31 ∧ stringToNumber "-.5e1" = .finite (-5) ∧
    stringToNumber "1_0" = .nan := by decide +kernel

end MapProtocol.Js
