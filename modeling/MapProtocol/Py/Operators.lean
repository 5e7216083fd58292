import MapProtocol.Js.Numbers
import MapProtocol.Lib.OrderedMap
import MapProtocol.Py.Json

/-!
# Python operators

Truth, `==`, `in` and `float` on the values that come from JSON. `True` and `False` are the numbers
one and zero.
-/

namespace MapProtocol.Py

open Js (Number)

namespace Value

def number? : Value → Option Rat
  | .bool b  => some (if b then 1 else 0)
  | .int n   => some n
  | .float q => some q
  | _        => .none

/-- `bool(v)`. -/
def truthy : Value → Bool
  | .none    => false
  | .bool b  => b
  | .int n   => n != 0
  | .float q => q != 0
  | .str s   => s != ""
  | .list xs => !xs.isEmpty
  | .dict es => !es.isEmpty

mutual

/-- `v == w`. -/
def equals : Value → Value → Bool
  | .none, .none       => true
  | .str s, .str t     => s == t
  | .list xs, .list ys => equalElements xs ys
  | .dict es, .dict fs => es.length == fs.length && equalMembers es fs
  | .bool b, w         => some (if b then 1 else 0) == w.number?
  | .int n, w          => some (n : Rat) == w.number?
  | .float q, w        => some q == w.number?
  | _, _               => false

def equalElements : List Value → List Value → Bool
  | [], []           => true
  | v :: vs, w :: ws => equals v w && equalElements vs ws
  | _, _             => false

def equalMembers : List (String × Value) → List (String × Value) → Bool
  | [], _            => true
  | (k, v) :: es, fs =>
      (match OrderedMap.getEntries k fs with
        | some w => equals v w
        | .none  => false) && equalMembers es fs

end

def hashable : Value → Bool
  | .list _ => false
  | .dict _ => false
  | _       => true

/-- `v in container`, or `none` where it raises. -/
def isIn (v container : Value) : Option Bool :=
  match container with
  | .list xs => some (xs.any fun x => equals x v)
  | .str t   =>
      match v with
      | .str s => some (Js.includes t s)
      | _      => .none
  | .dict es =>
      match v with
      | .str k => some (OrderedMap.getEntries k es).isSome
      | v      => if v.hashable then some false else .none
  | _        => .none

end Value

/-- A text that is there and not empty. -/
def given (s : Option String) : Option String := s.filter (· ≠ "")

/-! ## Reading a float -/

/-- The text without the underscores that stand between two digits. -/
def dropUnderscores : Bool → List Char → Option (List Char)
  | _, []      => some []
  | last, c :: cs =>
      if c = '_' then
        if last && cs.head?.any Js.isDigit then dropUnderscores false cs else .none
      else (dropUnderscores (Js.isDigit c) cs).map (c :: ·)

def readSigned (negative : Bool) (cs : List Char) : Option Number :=
  let name := cs.map Char.toLower
  if name = "inf".toList ∨ name = "infinity".toList then
    some (if negative then .negInfinity else .infinity)
  else if name = "nan".toList then some .nan
  else ((dropUnderscores false cs).bind Js.readDecimal).map fun q =>
    .finite (if negative then -q else q)

/-- `float(s)`, or `none` where it raises. -/
def readFloat (foreignDigit : Char → Option Nat) (s : String) : Option Number :=
  let ascii := (strip s.toList).map fun c =>
    match digitValue foreignDigit c with
    | some d => Nat.digitChar d
    | .none  => c
  match ascii with
  | '+' :: cs => readSigned false cs
  | '-' :: cs => readSigned true cs
  | cs        => readSigned false cs

/-- `float(v)`, or `none` where it raises. -/
def float (foreignDigit : Char → Option Nat) : Value → Option Number
  | .str s => readFloat foreignDigit s
  | v      => v.number?.map .finite

mutual

/-- The same value in JavaScript. -/
def Value.toJs : Value → Js.JsValue
  | .none    => .null
  | .bool b  => .bool b
  | .int n   => .num n
  | .float q => .num q
  | .str s   => .str s
  | .list xs => .arr (elementsToJs xs)
  | .dict es => .obj (membersToJs es)

def elementsToJs : List Value → List Js.JsValue
  | []      => []
  | v :: vs => v.toJs :: elementsToJs vs

def membersToJs : List (String × Value) → List (String × Js.JsValue)
  | []           => []
  | (k, v) :: es => (k, v.toJs) :: membersToJs es

end

example : Value.equals (.list [.bool true, .str "a"]) (.list [.float 1, .str "a"]) = true ∧
    readFloat (fun _ => .none) " 1_000.5 " = some (.finite (2001 / 2)) := by decide +kernel

end MapProtocol.Py
