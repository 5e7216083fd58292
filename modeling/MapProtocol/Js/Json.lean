import MapProtocol.Js.Value
import Mathlib.Data.Rat.Lemmas

/-!
# JSON text

`stringify` is `JSON.stringify` without indentation: `undefined` properties are dropped,
`undefined` array elements become `null`, numbers are written as `Number.prototype.toString`
writes them. `parse` is `JSON.parse`. The parser is a recursive descent over the characters. A path
of calls spends at most two units of fuel for each character it has read, and the fuel of `parse`
allows for that.
-/

namespace MapProtocol.Js

/-! ## Numbers -/

/-- The decimal digits of a positive number without its trailing zeros, and how many of these there
were. -/
def stripZeros : Nat → Nat → Nat × Nat
  | 0, n        => (n, 0)
  | fuel + 1, n =>
      if n % 10 = 0 ∧ n ≠ 0 then
        let (m, k) := stripZeros fuel (n / 10)
        (m, k + 1)
      else (n, 0)

/-- The least number of decimal places that makes `q` an integer, if at most `fuel` do. -/
def decimalPlaces : Nat → Rat → Option Nat
  | 0, q        => if q.den = 1 then some 0 else none
  | fuel + 1, q => if q.den = 1 then some 0 else (decimalPlaces fuel (q * 10)).map (· + 1)

/-- `k` digits `digits` standing for `digits · 10 ^ (point - k)`, laid out as `Number::toString`
does. -/
def layoutNumber (digits : List Char) (point : Int) : String :=
  let k : Int := digits.length
  if k ≤ point ∧ point ≤ 21 then
    String.ofList (digits ++ List.replicate (point - k).toNat '0')
  else if 0 < point ∧ point ≤ 21 then
    String.ofList (digits.take point.toNat ++ '.' :: digits.drop point.toNat)
  else if -6 < point ∧ point ≤ 0 then
    String.ofList ('0' :: '.' :: (List.replicate (-point).toNat '0' ++ digits))
  else
    let e := point - 1
    let exponent := (if 0 ≤ e then "e+" else "e-") ++ toString e.natAbs
    match digits with
    | []      => "0"
    | [d]     => String.ofList [d] ++ exponent
    | d :: ds => String.ofList (d :: '.' :: ds) ++ exponent

/-- `n.toString()`. A number with no finite decimal expansion, which no JSON text and no double
denotes, is written as a fraction. -/
def numberToString (q : Rat) : String :=
  if q = 0 then "0"
  else
    let sign := if q < 0 then "-" else ""
    match decimalPlaces q.den.log2 q with
    | none        => sign ++ toString q.num.natAbs ++ "/" ++ toString q.den
    | some places =>
        let scaled := (q * 10 ^ places).num.natAbs
        let (digits, zeros) := stripZeros scaled.log2.succ scaled
        let text := (toString digits).toList
        sign ++ layoutNumber text (text.length + zeros - places)

/-! ## Writing -/

def hexDigit (n : Nat) : Char := "0123456789abcdef".toList.getD n '0'

def escapeChar (c : Char) : List Char :=
  if c = '"' then ['\\', '"']
  else if c = '\\' then ['\\', '\\']
  else if c.toNat = 8 then ['\\', 'b']
  else if c.toNat = 9 then ['\\', 't']
  else if c.toNat = 10 then ['\\', 'n']
  else if c.toNat = 12 then ['\\', 'f']
  else if c.toNat = 13 then ['\\', 'r']
  else if c.toNat < 32 then ['\\', 'u', '0', '0', hexDigit (c.toNat / 16), hexDigit (c.toNat % 16)]
  else [c]

def quote (s : String) : String :=
  String.ofList ('"' :: (s.toList.flatMap escapeChar ++ ['"']))

/-- The texts between brackets. -/
def commaSeparated : List String → String
  | []      => ""
  | [s]     => s
  | s :: ss => s ++ "," ++ commaSeparated ss

mutual

/-- `JSON.stringify(v)`; `none` is its `undefined`. -/
def stringify? : JsValue → Option String
  | .undefined   => none
  | .inherited _ => none
  | .null        => some "null"
  | .bool b      => some (if b then "true" else "false")
  | .num n       => some (numberToString n)
  | .str s       => some (quote s)
  | .arr xs      => some ("[" ++ commaSeparated (stringifyElements xs) ++ "]")
  | .obj es      => some ("\x7b" ++ commaSeparated (stringifyMembers es) ++ "\x7d")

def stringifyElements : List JsValue → List String
  | []      => []
  | v :: vs => (stringify? v).getD "null" :: stringifyElements vs

def stringifyMembers : List (String × JsValue) → List String
  | []           => []
  | (k, v) :: es =>
      match stringify? v with
      | none   => stringifyMembers es
      | some t => (quote k ++ ":" ++ t) :: stringifyMembers es

end

mutual

/-- A value in a template literal, for objects without a `toString` of their own. -/
def toText : JsValue → String
  | .undefined      => "undefined"
  | .null           => "null"
  | .bool b         => if b then "true" else "false"
  | .num n          => numberToString n
  | .str s          => s
  | .arr xs         => commaSeparated (toTexts xs)
  | .obj _          => "[object Object]"
  | .inherited name => "function " ++ name ++ "() \x7b [native code] \x7d"

def toTexts : List JsValue → List String
  | []               => []
  | .undefined :: vs => "" :: toTexts vs
  | .null :: vs      => "" :: toTexts vs
  | v :: vs          => toText v :: toTexts vs

end

/-- `JSON.stringify(o)` for an object. -/
def stringify (o : JsObject) : String := (stringify? (.obj o)).getD "undefined"

/-! ## Reading -/

def isJsonSpace (c : Char) : Bool := c = ' ' || c = '\t' || c = '\n' || c = '\r'

def skipSpace (cs : List Char) : List Char := cs.dropWhile isJsonSpace

def isDigit (c : Char) : Bool := '0' ≤ c && c ≤ '9'

def digitsValue (ds : List Char) : Nat := ds.foldl (fun n d => 10 * n + (d.toNat - 48)) 0

def hexValue (c : Char) : Option Nat :=
  if '0' ≤ c ∧ c ≤ '9' then some (c.toNat - 48)
  else if 'a' ≤ c ∧ c ≤ 'f' then some (c.toNat - 87)
  else if 'A' ≤ c ∧ c ≤ 'F' then some (c.toNat - 55)
  else none

def hex4 (a b c d : Char) : Option Nat := do
  let a ← hexValue a
  let b ← hexValue b
  let c ← hexValue c
  let d ← hexValue d
  return ((a * 16 + b) * 16 + c) * 16 + d

/-- The UTF-16 code units of a string as characters; a lone surrogate becomes U+FFFD. -/
def decodeUnits : List Nat → List Char
  | hi :: lo :: us =>
      if 0xD800 ≤ hi ∧ hi < 0xDC00 ∧ 0xDC00 ≤ lo ∧ lo < 0xE000 then
        Char.ofNat (0x10000 + (hi - 0xD800) * 0x400 + (lo - 0xDC00)) :: decodeUnits us
      else (if 0xD800 ≤ hi ∧ hi < 0xE000 then '\uFFFD' else Char.ofNat hi) :: decodeUnits (lo :: us)
  | [u] => [if 0xD800 ≤ u ∧ u < 0xE000 then '\uFFFD' else Char.ofNat u]
  | []  => []

def unitsOf (c : Char) : List Nat :=
  if c.toNat < 0x10000 then [c.toNat]
  else [0xD800 + (c.toNat - 0x10000) / 0x400, 0xDC00 + (c.toNat - 0x10000) % 0x400]

/-- The code units of a string literal after its opening quote, and what follows the closing one. -/
def parseUnits : List Char → Option (List Nat × List Char)
  | []               => none
  | '"' :: cs        => some ([], cs)
  | '\\' :: 'u' :: a :: b :: c :: d :: cs =>
      match hex4 a b c d, parseUnits cs with
      | some u, some (us, rest) => some (u :: us, rest)
      | _, _                    => none
  | '\\' :: e :: cs  =>
      let unit : Option Nat :=
        if e = '"' ∨ e = '\\' ∨ e = '/' then some e.toNat
        else if e = 'b' then some 8
        else if e = 't' then some 9
        else if e = 'n' then some 10
        else if e = 'f' then some 12
        else if e = 'r' then some 13
        else none
      match unit, parseUnits cs with
      | some u, some (us, rest) => some (u :: us, rest)
      | _, _                    => none
  | c :: cs          =>
      if c.toNat < 32 then none
      else match parseUnits cs with
        | some (us, rest) => some (unitsOf c ++ us, rest)
        | none            => none

/-- A string literal after its opening quote. -/
def parseString (cs : List Char) : Option (String × List Char) :=
  (parseUnits cs).map fun (us, rest) => (String.ofList (decodeUnits us), rest)

def parseNumber (cs : List Char) : Option (Rat × List Char) :=
  let (negative, cs) := match cs with
    | '-' :: cs => (true, cs)
    | cs        => (false, cs)
  let (whole, cs) := cs.span isDigit
  -- JSON allows no leading zero
  if whole = [] ∨ (whole.head? = some '0' ∧ whole.length > 1) then none
  else
    let fraction? := match cs with
      | '.' :: cs =>
          let (ds, rest) := cs.span isDigit
          if ds = [] then none else some (ds, rest)
      | cs => some ([], cs)
    match fraction? with
    | none                => none
    | some (fraction, cs) =>
        let exponent? : Option (Int × List Char) := match cs with
          | c :: cs =>
              if c = 'e' ∨ c = 'E' then
                let (minus, cs) := match cs with
                  | '-' :: cs => (true, cs)
                  | '+' :: cs => (false, cs)
                  | cs        => (false, cs)
                let (ds, rest) := cs.span isDigit
                if ds = [] then none
                else some (if minus then -(digitsValue ds : Int) else digitsValue ds, rest)
              else some (0, c :: cs)
          | [] => some (0, [])
        match exponent? with
        | none        => none
        | some (e, rest) =>
            -- the digits without the point, scaled by the exponent
            let scale := e - fraction.length
            let magnitude : Rat := digitsValue (whole ++ fraction)
            let value := if 0 ≤ scale then magnitude * 10 ^ scale.toNat
              else magnitude / 10 ^ (-scale).toNat
            some (if negative then -value else value, rest)

mutual

def parseValue : Nat → List Char → Option (JsValue × List Char)
  | 0, _         => none
  | fuel + 1, cs =>
      match skipSpace cs with
      | 'n' :: 'u' :: 'l' :: 'l' :: rest        => some (.null, rest)
      | 't' :: 'r' :: 'u' :: 'e' :: rest        => some (.bool true, rest)
      | 'f' :: 'a' :: 'l' :: 's' :: 'e' :: rest => some (.bool false, rest)
      | '"' :: rest => (parseString rest).map fun (s, rest) => (.str s, rest)
      | '[' :: rest =>
          match skipSpace rest with
          | ']' :: rest => some (.arr [], rest)
          | rest        => (parseElements fuel rest).map fun (vs, rest) => (.arr vs, rest)
      | '\x7b' :: rest =>
          match skipSpace rest with
          | '\x7d' :: rest => some (.obj [], rest)
          | rest           =>
              (parseMembers fuel rest).map fun (es, rest) => (.obj (JsObject.spread [] es), rest)
      | rest => (parseNumber rest).map fun (n, rest) => (.num n, rest)

def parseElements : Nat → List Char → Option (List JsValue × List Char)
  | 0, _         => none
  | fuel + 1, cs =>
      match parseValue fuel cs with
      | none           => none
      | some (v, rest) =>
          match skipSpace rest with
          | ',' :: rest => (parseElements fuel rest).map fun (vs, rest) => (v :: vs, rest)
          | ']' :: rest => some ([v], rest)
          | _           => none

def parseMembers : Nat → List Char → Option (List (String × JsValue) × List Char)
  | 0, _         => none
  | fuel + 1, cs =>
      match skipSpace cs with
      | '"' :: rest =>
          match parseString rest with
          | none           => none
          | some (k, rest) =>
              match skipSpace rest with
              | ':' :: rest =>
                  match parseValue fuel rest with
                  | none           => none
                  | some (v, rest) =>
                      match skipSpace rest with
                      | ',' :: rest =>
                          (parseMembers fuel rest).map fun (es, rest) => ((k, v) :: es, rest)
                      | '\x7d' :: rest => some ([(k, v)], rest)
                      | _              => none
              | _ => none
      | _ => none

end

/-- `JSON.parse(text)`; `none` where it throws a `SyntaxError`. -/
def parse (text : String) : Option JsValue :=
  match parseValue (2 * text.toList.length + 2) text.toList with
  | some (v, rest) => if skipSpace rest = [] then some v else none
  | none           => none

end MapProtocol.Js
