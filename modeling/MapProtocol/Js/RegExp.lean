import MapProtocol.Lib.Glob

/-!
# Regular expressions

`new RegExp(text)` for the texts the program builds from globs: `^…$` around plain characters, `\.`
and `.*`. Such an expression tests what the glob matches, except that `.` covers no line
terminator. What the engine makes of any other text is a parameter. `regExpB` also reads the
brackets that stand for themselves on the web: `]`, `}`, and a `{` that opens no quantifier.
-/

namespace MapProtocol.Js

/-- `SyntaxCharacter`: what does not stand for itself in an expression. -/
def isSyntaxCharacter (c : Char) : Bool :=
  decide (c ∈ ['^', '$', '\\', '.', '*', '+', '?', '(', ')', '[', ']', '{', '}', '|'])

def isLineTerminator (c : Char) : Bool :=
  decide (c ∈ [Char.ofNat 0x0A, Char.ofNat 0x0D, Char.ofNat 0x2028, Char.ofNat 0x2029])

/-- The characters that `.` covers. -/
def dotCovers (c : Char) : Bool := !isLineTerminator c

/-- The glob in an expression after its `^`, where there is nothing else in it. `literal c cs`: does
`c` stand for itself before the characters `cs`? -/
def readBody (literal : Char → List Char → Bool) : List Char → Option (List (GlobToken Char))
  | []                => none
  | ['$']             => some []
  | '\\' :: '.' :: cs => (readBody literal cs).map (.letter '.' :: ·)
  | '.' :: '*' :: cs  => (readBody literal cs).map (.star :: ·)
  | c :: cs           => if literal c cs then (readBody literal cs).map (.letter c :: ·) else none

def readGlob (literal : Char → List Char → Bool) (text : String) :
    Option (List (GlobToken Char)) :=
  match text.toList with
  | '^' :: cs => readBody literal cs
  | _         => none

/-- `new RegExp(text)`, as the test it performs or the error it throws. -/
def regExpWith (literal : Char → List Char → Bool) (rest : String → Except String (String → Bool))
    (text : String) : Except String (String → Bool) :=
  match readGlob literal text with
  | some glob => .ok fun s => globMatch dotCovers glob s.toList
  | none      => rest text

/-- A character without a meaning of its own stands for itself before all others. -/
def isPlainCharacter (c : Char) (_ : List Char) : Bool := !isSyntaxCharacter c

def regExp (rest : String → Except String (String → Bool)) (text : String) :
    Except String (String → Bool) :=
  regExpWith isPlainCharacter rest text

/-- A character that stands for itself is read as itself. -/
theorem readBody_literal {literal : Char → List Char → Bool} {c : Char} {cs : List Char}
    (hdollar : literal '$' cs = false) (hslash : literal '\\' cs = false)
    (hdot : literal '.' cs = false) (hc : literal c cs = true) :
    readBody literal (c :: cs) = (readBody literal cs).map (.letter c :: ·) := by
  have hne : ∀ d, literal d cs = false → c ≠ d := by
    rintro d hd rfl
    rw [hd] at hc
    cases hc
  have hdollar := hne '$' hdollar
  have hslash := hne '\\' hslash
  have hdot := hne '.' hdot
  rw [readBody.eq_def]
  split
  · contradiction
  · rename_i h
    exact absurd (List.cons.inj h).1 hdollar
  · rename_i h
    exact absurd (List.cons.inj h).1 hslash
  · rename_i h
    exact absurd (List.cons.inj h).1 hdot
  · rename_i h
    obtain ⟨rfl, rfl⟩ := List.cons.inj h
    rw [if_pos hc]

/-! ## Brackets that stand for themselves -/

/-- The characters left after a run of decimal digits. -/
def afterDigits (cs : List Char) : List Char := cs.dropWhile Char.isDigit

/-- Do the characters after the first number of a quantifier close it? -/
def closesQuantifier : List Char → Bool
  | '}' :: _  => true
  | ',' :: cs => (afterDigits cs).head? == some '}'
  | _         => false

/-- Does a `{` before these characters open a quantifier: `{n}`, `{n,}` or `{n,m}`? -/
def opensQuantifier (cs : List Char) : Bool :=
  cs.head?.any Char.isDigit && closesQuantifier (afterDigits cs)

/-- `ExtendedPatternCharacter`: what stands for itself before the characters that follow it. -/
def isPatternCharacter (c : Char) (cs : List Char) : Bool :=
  !decide (c ∈ ['^', '$', '\\', '.', '*', '+', '?', '(', ')', '[', '|']) &&
    !(c == '{' && opensQuantifier cs)

/-- `new RegExp(text)`, with the brackets that stand for themselves. -/
def regExpB (rest : String → Except String (String → Bool)) (text : String) :
    Except String (String → Bool) :=
  regExpWith isPatternCharacter rest text

end MapProtocol.Js
