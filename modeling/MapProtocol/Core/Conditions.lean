import MapProtocol.Core.Policy
import MapProtocol.Js.RegExp
import MapProtocol.Lib.Checks
import MapProtocol.Lib.FirstMatch

/-!
# Policy conditions and their meaning

`Condition` is the syntax of the type `PolicyCondition`: each node one operator, with scalar operands
for `eq`, `neq` and `in`. `Condition.toJs` writes a condition as the object the compiler reads, and
`Condition.HoldsWith` gives its meaning by recursion over the syntax. The meaning depends on how a
property is read: a condition means what it says where a path reads own properties only
(`JsValue.ownProperty`), while the compiled condition reads prototypes as well (`JsValue.property`).
-/

namespace MapProtocol

open Js

/-! ## Syntax -/

inductive Scalar where
  | null
  | bool (b : Bool)
  | num (n : Rat)
  | str (s : String)
  deriving DecidableEq

def Scalar.toJs : Scalar → JsValue
  | .null   => .null
  | .bool b => .bool b
  | .num n  => .num n
  | .str s  => .str s

/-- The operand of `in`: a list, or a scalar, which contains nothing. -/
inductive Members where
  | list (values : List Scalar)
  | scalar (value : Scalar)
  deriving DecidableEq

def Members.toJs : Members → JsValue
  | .list values  => .arr (values.map Scalar.toJs)
  | .scalar value => value.toJs

def Members.values : Members → List Scalar
  | .list values => values
  | .scalar _    => []

inductive OrderOperator where
  | gt
  | gte
  | lt
  | lte
  deriving DecidableEq

def OrderOperator.text : OrderOperator → String
  | .gt  => "gt"
  | .gte => "gte"
  | .lt  => "lt"
  | .lte => "lte"

def OrderOperator.Compares : OrderOperator → Rat → Rat → Prop
  | .gt, a, b  => a > b
  | .gte, a, b => a ≥ b
  | .lt, a, b  => a < b
  | .lte, a, b => a ≤ b

inductive Condition where
  | always
  | never
  | eq (path : String) (value : Scalar)
  | neq (path : String) (value : Scalar)
  | order (op : OrderOperator) (path : String) (value : JsValue)
  | member (path : String) (values : Members)
  | and (conditions : List Condition)
  | or (conditions : List Condition)
  | not (condition : Condition)
  | field (path : String)

namespace Condition

variable {v : JsValue} {value : Scalar} {cs : List Condition}

/-- Induction over conditions, with a hypothesis for each operand of `and` and `or`. -/
theorem induction {motive : Condition → Prop} (always : motive .always) (never : motive .never)
    (eq : ∀ path value, motive (.eq path value)) (neq : ∀ path value, motive (.neq path value))
    (order : ∀ op path value, motive (.order op path value))
    (member : ∀ path values, motive (.member path values))
    (and : ∀ cs, (∀ c ∈ cs, motive c) → motive (.and cs))
    (or : ∀ cs, (∀ c ∈ cs, motive c) → motive (.or cs))
    (not : ∀ c, motive c → motive (.not c)) (field : ∀ path, motive (.field path))
    (c : Condition) : motive c :=
  @Condition.rec motive (fun cs => ∀ c ∈ cs, motive c) always never eq neq order member and or not
    field (fun _ h => absurd h List.not_mem_nil)
    (fun _ _ hc hcs => List.forall_mem_cons.mpr ⟨hc, hcs⟩) c

mutual

def toJs : Condition → JsValue
  | .always              => .obj [("always", .bool true)]
  | .never               => .obj [("never", .bool true)]
  | .eq path value       => .obj [("eq", .arr [.str path, value.toJs])]
  | .neq path value      => .obj [("neq", .arr [.str path, value.toJs])]
  | .order op path value => .obj [(op.text, .arr [.str path, value])]
  | .member path values  => .obj [("in", .arr [.str path, values.toJs])]
  | .and cs              => .obj [("and", .arr (allToJs cs))]
  | .or cs               => .obj [("or", .arr (allToJs cs))]
  | .not c               => .obj [("not", c.toJs)]
  | .field path          => .obj [("$field", .str path)]

def allToJs : List Condition → List JsValue
  | []      => []
  | c :: cs => c.toJs :: allToJs cs

end

/-- A comparison or a field reference: what reads the intent. -/
def IsLeaf : Condition → Prop
  | .eq _ _ | .neq _ _ | .order _ _ _ | .member _ _ | .field _ => True
  | _                                                          => False

/-! ## Meaning -/

/-- The value at a dotted path, given how one property is read. -/
def readPath (read : JsValue → String → JsValue) (intent : JsValue) (path : String) : JsValue :=
  (split path '.').foldl read intent

section Meaning

variable (read : JsValue → String → JsValue) (intent : JsValue)

mutual

def HoldsWith : Condition → Prop
  | .always              => True
  | .never               => False
  | .eq path value       => readPath read intent path = value.toJs
  | .neq path value      => readPath read intent path ≠ value.toJs
  | .order op path value =>
      ∃ a b, readPath read intent path = .num a ∧ value = .num b ∧ op.Compares a b
  | .member path values  => ∃ value ∈ values.values, readPath read intent path = value.toJs
  | .and cs              => AllHold cs
  | .or cs               => AnyHolds cs
  | .not c               => ¬ c.HoldsWith
  | .field path          => (readPath read intent path).truthy = true

def AllHold : List Condition → Prop
  | []      => True
  | c :: cs => c.HoldsWith ∧ AllHold cs

def AnyHolds : List Condition → Prop
  | []      => False
  | c :: cs => c.HoldsWith ∨ AnyHolds cs

end

end Meaning

abbrev Holds (intent : JsValue) (c : Condition) : Prop := c.HoldsWith JsValue.ownProperty intent

section

variable {read : JsValue → String → JsValue} {intent : JsValue}

@[simp] theorem allHold_iff {cs : List Condition} :
    AllHold read intent cs ↔ ∀ c ∈ cs, c.HoldsWith read intent := by
  induction cs with
  | nil => simp [AllHold]
  | cons c cs ih => simp [AllHold, ih]

@[simp] theorem anyHolds_iff {cs : List Condition} :
    AnyHolds read intent cs ↔ ∃ c ∈ cs, c.HoldsWith read intent := by
  induction cs with
  | nil => simp [AnyHolds]
  | cons c cs ih => simp [AnyHolds, ih]

end

/-! ## Compiling

The compiled condition reads a path with the properties that objects inherit. -/

theorem strictEquals_scalar :
    v.strictEquals value.toJs = true ↔ v = value.toJs := by
  cases value <;> cases v <;> simp [JsValue.strictEquals, Scalar.toJs]

theorem strictEquals_comm (v w : JsValue) : v.strictEquals w = w.strictEquals v := by
  cases v <;> cases w <;> simp only [JsValue.strictEquals] <;> exact BEq.comm

theorem evaluateOp_eq :
    evaluateOp "eq" v value.toJs = true ↔ v = value.toJs := by
  simp [evaluateOp, strictEquals_scalar]

theorem evaluateOp_neq :
    evaluateOp "neq" v value.toJs = true ↔ v ≠ value.toJs := by
  simp [evaluateOp, ← strictEquals_scalar]

theorem evaluateOp_order {op : OrderOperator} {v value : JsValue} :
    evaluateOp op.text v value = true ↔ ∃ a b, v = .num a ∧ value = .num b ∧ op.Compares a b := by
  have hnumber : ∀ u : JsValue, ∀ a, u.asNumber = some a → u = .num a := by
    intro u a h
    cases u <;> cases h
    rfl
  cases ha : v.asNumber with
  | none =>
      refine iff_of_false ?_ ?_
      · cases op <;> simp [evaluateOp, OrderOperator.text, ha]
      · rintro ⟨a, b, rfl, -, -⟩
        cases ha
  | some a =>
      obtain rfl := hnumber v a ha
      cases hb : value.asNumber with
      | none =>
          refine iff_of_false ?_ ?_
          · cases op <;> simp [evaluateOp, OrderOperator.text, hb]
          · rintro ⟨a, b, -, rfl, -⟩
            cases hb
      | some b =>
          obtain rfl := hnumber value b hb
          cases op <;> simp [evaluateOp, OrderOperator.text, OrderOperator.Compares, ha, hb]

theorem evaluateOp_member {values : Members} :
    evaluateOp "in" v values.toJs = true ↔ ∃ value ∈ values.values, v = value.toJs := by
  cases values with
  | list values =>
      simp [evaluateOp, Members.toJs, Members.values, strictEquals_comm _ v, strictEquals_scalar]
  | scalar value =>
      cases value <;> simp [evaluateOp, Members.toJs, Members.values, Scalar.toJs]

theorem compile_comparison {op : String} (hop : op ∈ comparisonOperators) (path : String)
    (value : JsValue) :
    compileCondition (.obj [(op, .arr [.str path, value])]) =
      .ok fun intent => evaluateOp op (readPath JsValue.property intent path) value := by
  simp only [comparisonOperators, List.mem_cons, List.not_mem_nil, or_false] at hop
  rcases hop with rfl | rfl | rfl | rfl | rfl | rfl | rfl <;> rfl

theorem compile_and (cs : List Condition) :
    compileCondition (Condition.and cs).toJs =
      (compileElements (allToJs cs)).map fun es intent => es.all fun e => e intent := by
  rfl

theorem compile_or (cs : List Condition) :
    compileCondition (Condition.or cs).toJs =
      (compileElements (allToJs cs)).map fun es intent => es.any fun e => e intent := by
  rfl

theorem compile_not (c : Condition) :
    compileCondition (Condition.not c).toJs =
      (compileCondition c.toJs).map fun e intent => !e intent := by
  rfl

/-- The compiled form of a condition: it tests the meaning, prototypes included. -/
def Tests (c : Condition) (e : Evaluator) : Prop :=
  ∀ intent, e intent = true ↔ c.HoldsWith JsValue.property intent

theorem compileElements_allToJs (h : ∀ c ∈ cs, ∃ e, compileCondition c.toJs = .ok e ∧ c.Tests e) :
    ∃ es, compileElements (allToJs cs) = .ok es ∧ List.Forall₂ Tests cs es := by
  induction cs with
  | nil => exact ⟨[], rfl, .nil⟩
  | cons c cs ih =>
      obtain ⟨⟨e, hcompiled, he⟩, hcs⟩ := List.forall_mem_cons.mp h
      obtain ⟨es, hcompileds, hes⟩ := ih hcs
      refine ⟨e :: es, ?_, .cons he hes⟩
      simp only [compileCondition] at hcompiled
      simp [allToJs, compileElements, hcompiled, hcompileds]

theorem all_tests {es : List Evaluator} (h : List.Forall₂ Tests cs es) (intent : JsValue) :
    (es.all fun e => e intent) = true ↔ ∀ c ∈ cs, c.HoldsWith JsValue.property intent := by
  induction h with
  | nil => simp
  | cons he _ ih => simp [← he intent, ← ih]

theorem any_tests {es : List Evaluator} (h : List.Forall₂ Tests cs es) (intent : JsValue) :
    (es.any fun e => e intent) = true ↔ ∃ c ∈ cs, c.HoldsWith JsValue.property intent := by
  induction h with
  | nil => simp
  | cons he _ ih => simp [← he intent, ← ih]

/-- Every condition compiles, to a test of its meaning with prototypes read. -/
theorem compile_toJs (c : Condition) : ∃ e, compileCondition c.toJs = .ok e ∧ c.Tests e := by
  induction c using Condition.induction with
  | always => exact ⟨_, rfl, fun _ => by simp [HoldsWith]⟩
  | never => exact ⟨_, rfl, fun _ => by simp [HoldsWith]⟩
  | eq path value =>
      exact ⟨_, compile_comparison (by decide) path _, fun _ => evaluateOp_eq⟩
  | neq path value =>
      exact ⟨_, compile_comparison (by decide) path _, fun _ => evaluateOp_neq⟩
  | order op path value =>
      have hop : op.text ∈ comparisonOperators := by cases op <;> decide
      exact ⟨_, compile_comparison hop path value, fun _ => evaluateOp_order⟩
  | member path values =>
      exact ⟨_, compile_comparison (by decide) path _, fun _ => evaluateOp_member⟩
  | and cs ih =>
      obtain ⟨es, hcompiled, hes⟩ := compileElements_allToJs ih
      refine ⟨_, by rw [compile_and, hcompiled]; rfl, fun intent => ?_⟩
      rw [all_tests hes, HoldsWith, allHold_iff]
  | or cs ih =>
      obtain ⟨es, hcompiled, hes⟩ := compileElements_allToJs ih
      refine ⟨_, by rw [compile_or, hcompiled]; rfl, fun intent => ?_⟩
      rw [any_tests hes, HoldsWith, anyHolds_iff]
  | not c ih =>
      obtain ⟨e, hcompiled, he⟩ := ih
      refine ⟨_, by rw [compile_not, hcompiled]; rfl, fun intent => ?_⟩
      rw [HoldsWith, ← he intent]
      simp
  | field path => exact ⟨_, rfl, fun _ => Iff.rfl⟩

/-! ## Conditions that are read alike

`and` and `or` stop early, so only the leaves they get to have to be read alike. -/

section Reading

variable (intent : JsValue)

mutual

/-- Does each comparison and field reference that is evaluated come out the same, whether or not
prototypes are read? -/
def ReadsAlike : Condition → Prop
  | .always => True
  | .never  => True
  | .and cs => AllReadAlike cs
  | .or cs  => AnyReadAlike cs
  | .not c  => c.ReadsAlike
  | c       => c.HoldsWith JsValue.property intent ↔ c.Holds intent

/-- The operands of `and`, which are evaluated up to the first that does not hold. -/
def AllReadAlike : List Condition → Prop
  | []      => True
  | c :: cs => c.ReadsAlike ∧ (c.Holds intent → AllReadAlike cs)

/-- The operands of `or`, which are evaluated up to the first that holds. -/
def AnyReadAlike : List Condition → Prop
  | []      => True
  | c :: cs => c.ReadsAlike ∧ (¬ c.Holds intent → AnyReadAlike cs)

end

end Reading

variable {intent : JsValue}

theorem allReadAlike_iff : AllReadAlike intent cs ↔
    UpToFirst (fun c => ¬ c.Holds intent) (ReadsAlike intent) cs := by
  induction cs with
  | nil => exact Iff.rfl
  | cons c cs ih => simp only [AllReadAlike, UpToFirst, ih, not_not]

theorem anyReadAlike_iff : AnyReadAlike intent cs ↔
    UpToFirst (Holds intent) (ReadsAlike intent) cs := by
  induction cs with
  | nil => exact Iff.rfl
  | cons c cs ih => simp only [AnyReadAlike, UpToFirst, ih]

theorem IsLeaf.readsAlike_iff {c : Condition} (h : c.IsLeaf) :
    c.ReadsAlike intent ↔ (c.HoldsWith JsValue.property intent ↔ c.Holds intent) := by
  cases c with
  | always => cases h
  | never => cases h
  | and cs => cases h
  | or cs => cases h
  | not c => cases h
  | eq path value => exact Iff.rfl
  | neq path value => exact Iff.rfl
  | order op path value => exact Iff.rfl
  | member path values => exact Iff.rfl
  | field path => exact Iff.rfl

theorem ReadsAlike.holdsWith_iff {c : Condition} (h : c.ReadsAlike intent) :
    c.HoldsWith JsValue.property intent ↔ c.Holds intent := by
  induction c using Condition.induction with
  | always => simp [Holds, HoldsWith]
  | never => simp [Holds, HoldsWith]
  | eq path value => exact h
  | neq path value => exact h
  | order op path value => exact h
  | member path values => exact h
  | and cs ih =>
      simp only [Holds, HoldsWith, allHold_iff]
      exact ((allReadAlike_iff.mp h).mono ih).forall_congr
  | or cs ih =>
      simp only [Holds, HoldsWith, anyHolds_iff]
      exact ((anyReadAlike_iff.mp h).mono ih).exists_congr
  | not c ih => exact not_congr (ih h)
  | field path => exact h

end Condition

end MapProtocol
