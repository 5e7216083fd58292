import MapProtocol.Core.Conditions

/-!
# The grammar of conditions

A condition is written as an object with one member, the operator. `read` gives the condition that a
value writes, where each operator has the operands that it reads: a path and a scalar for `eq` and
`neq`, a path and a number for the orders, a path and a list of scalars for `in`. Nothing of a value
that can be read is left out (`read_iff`).
-/

namespace MapProtocol

open Js

namespace Condition

variable {v : JsValue} {key : String} {c : Condition}

mutual

/-- The operators read their operands: an order compares with a number, `in` looks into a list. -/
def readable : Condition → Bool
  | .order _ _ (.num _)   => true
  | .order _ _ _          => false
  | .member _ (.list _)   => true
  | .member _ (.scalar _) => false
  | .and cs               => allReadable cs
  | .or cs                => allReadable cs
  | .not c                => c.readable
  | _                     => true

def allReadable : List Condition → Bool
  | []      => true
  | c :: cs => c.readable && allReadable cs

end

def scalarOf : JsValue → Option Scalar
  | .null   => some .null
  | .bool b => some (.bool b)
  | .num n  => some (.num n)
  | .str s  => some (.str s)
  | _       => none

def scalarsOf : List JsValue → Option (List Scalar)
  | []      => some []
  | v :: vs => (scalarOf v).bind fun value => (scalarsOf vs).map (value :: ·)

/-- `[path, value]`, for a path. -/
def pairOf : JsValue → Option (String × JsValue)
  | .arr [.str path, value] => some (path, value)
  | _                       => none

def readEq (v : JsValue) : Option Condition :=
  (pairOf v).bind fun (path, value) => (scalarOf value).map (.eq path)

def readNeq (v : JsValue) : Option Condition :=
  (pairOf v).bind fun (path, value) => (scalarOf value).map (.neq path)

def readOrder (op : OrderOperator) (v : JsValue) : Option Condition :=
  (pairOf v).bind fun (path, value) => value.asNumber.map fun n => .order op path (.num n)

def readIn (v : JsValue) : Option Condition :=
  (pairOf v).bind fun (path, value) =>
    match value with
    | .arr xs => (scalarsOf xs).map fun values => .member path (.list values)
    | _       => none

/-- A marker with the value `true`. -/
def readMarker (c : Condition) (v : JsValue) : Option Condition :=
  if v.strictEquals (.bool true) then some c else none

/-- The operators whose operands are no conditions, with what they read. -/
def leafReaders : List (String × (JsValue → Option Condition)) :=
  [("always", readMarker .always), ("never", readMarker .never), ("eq", readEq), ("neq", readNeq),
    ("gt", readOrder .gt), ("gte", readOrder .gte), ("lt", readOrder .lt), ("lte", readOrder .lte),
    ("in", readIn), ("$field", fun v => v.asString.map .field)]

def readLeaf (key : String) (v : JsValue) : Option Condition :=
  (OrderedMap.getEntries key leafReaders).bind fun reader => reader v

mutual

/-- The condition that a value writes, if it writes one. -/
def read : JsValue → Option Condition
  | .obj [(key, v)] =>
      if key = "and" then (readList v).map .and
      else if key = "or" then (readList v).map .or
      else if key = "not" then (read v).map .not
      else readLeaf key v
  | _               => none

def readList : JsValue → Option (List Condition)
  | .arr xs => readAll xs
  | _       => none

def readAll : List JsValue → Option (List Condition)
  | []      => some []
  | v :: vs => (read v).bind fun c => (readAll vs).map (c :: ·)

end

/-! ## Reading what was written -/

theorem scalarOf_eq {value : Scalar} (h : scalarOf v = some value) : value.toJs = v := by
  cases v <;> cases h <;> rfl

theorem scalarOf_toJs (value : Scalar) : scalarOf value.toJs = some value := by
  cases value <;> rfl

theorem scalarsOf_eq {vs : List JsValue} {values : List Scalar} (h : scalarsOf vs = some values) :
    values.map Scalar.toJs = vs := by
  induction vs generalizing values with
  | nil =>
      cases h
      rfl
  | cons v vs ih =>
      obtain ⟨value, hvalue, hrest⟩ := Option.bind_eq_some_iff.mp h
      obtain ⟨rest, hvalues, rfl⟩ := Option.map_eq_some_iff.mp hrest
      rw [List.map_cons, scalarOf_eq hvalue, ih hvalues]

theorem scalarsOf_toJs (values : List Scalar) : scalarsOf (values.map Scalar.toJs) = some values := by
  induction values with
  | nil => rfl
  | cons value values ih => simp [scalarsOf, scalarOf_toJs, ih]

theorem pairOf_eq {v value : JsValue} {path : String} (h : pairOf v = some (path, value)) :
    v = .arr [.str path, value] := by
  unfold pairOf at h
  split at h
  · cases h
    rfl
  · cases h

/-- What is read is what is written: no operand is left out. -/
def Writes (c : Condition) (key : String) (v : JsValue) : Prop :=
  c.readable = true ∧ c.toJs = .obj [(key, v)]

theorem readMarker_writes {c d : Condition} (hd : d.Writes key (.bool true))
    (h : readMarker d v = some c) : c.Writes key v := by
  unfold readMarker at h
  split at h
  · rename_i htrue
    cases h
    have hv : v = .bool true := by
      cases v <;> simp [JsValue.strictEquals] at htrue ⊢
      exact htrue
    rw [hv]
    exact hd
  · cases h

theorem readEq_writes (h : readEq v = some c) : c.Writes "eq" v := by
  obtain ⟨⟨path, value⟩, hpair, hvalue⟩ := Option.bind_eq_some_iff.mp h
  obtain ⟨scalar, hscalar, rfl⟩ := Option.map_eq_some_iff.mp hvalue
  rw [pairOf_eq hpair, ← scalarOf_eq hscalar]
  exact ⟨rfl, rfl⟩

theorem readNeq_writes (h : readNeq v = some c) : c.Writes "neq" v := by
  obtain ⟨⟨path, value⟩, hpair, hvalue⟩ := Option.bind_eq_some_iff.mp h
  obtain ⟨scalar, hscalar, rfl⟩ := Option.map_eq_some_iff.mp hvalue
  rw [pairOf_eq hpair, ← scalarOf_eq hscalar]
  exact ⟨rfl, rfl⟩

theorem readOrder_writes {op : OrderOperator} (h : readOrder op v = some c) :
    c.Writes op.text v := by
  obtain ⟨⟨path, value⟩, hpair, hvalue⟩ := Option.bind_eq_some_iff.mp h
  obtain ⟨n, hn, rfl⟩ := Option.map_eq_some_iff.mp hvalue
  have hvalue : value = .num n := by cases value <;> cases hn; rfl
  rw [pairOf_eq hpair, hvalue]
  exact ⟨rfl, rfl⟩

theorem readIn_writes (h : readIn v = some c) : c.Writes "in" v := by
  obtain ⟨⟨path, value⟩, hpair, hvalue⟩ := Option.bind_eq_some_iff.mp h
  cases value with
  | arr xs =>
      obtain ⟨values, hvalues, rfl⟩ := Option.map_eq_some_iff.mp hvalue
      rw [pairOf_eq hpair, ← scalarsOf_eq hvalues]
      exact ⟨rfl, rfl⟩
  | _ => cases hvalue

theorem leafReaders_write {reader : JsValue → Option Condition}
    (hreader : (key, reader) ∈ leafReaders) (h : reader v = some c) :
    c.Writes key v := by
  simp only [leafReaders, List.mem_cons, Prod.mk.injEq, List.not_mem_nil, or_false] at hreader
  rcases hreader with ⟨rfl, rfl⟩ | ⟨rfl, rfl⟩ | ⟨rfl, rfl⟩ | ⟨rfl, rfl⟩ | ⟨rfl, rfl⟩ | ⟨rfl, rfl⟩ |
    ⟨rfl, rfl⟩ | ⟨rfl, rfl⟩ | ⟨rfl, rfl⟩ | ⟨rfl, rfl⟩
  · exact readMarker_writes ⟨rfl, rfl⟩ h
  · exact readMarker_writes ⟨rfl, rfl⟩ h
  · exact readEq_writes h
  · exact readNeq_writes h
  · exact readOrder_writes h
  · exact readOrder_writes h
  · exact readOrder_writes h
  · exact readOrder_writes h
  · exact readIn_writes h
  · obtain ⟨path, hpath, rfl⟩ := Option.map_eq_some_iff.mp h
    have hv : v = .str path := by cases v <;> cases hpath; rfl
    rw [hv]
    exact ⟨rfl, rfl⟩

theorem readLeaf_writes (h : readLeaf key v = some c) :
    c.Writes key v := by
  obtain ⟨reader, hreader, hread⟩ := Option.bind_eq_some_iff.mp h
  have hnodup : (leafReaders.map Prod.fst).Nodup := by
    show ["always", "never", "eq", "neq", "gt", "gte", "lt", "lte", "in", "$field"].Nodup
    decide
  exact leafReaders_write ((OrderedMap.getEntries_eq_some hnodup).mp hreader) hread

mutual

theorem read_eq : ∀ v c, read v = some c → c.readable = true ∧ c.toJs = v
  | .obj [(key, v)], c, h => by
      rw [read] at h
      split at h
      · rename_i hkey
        obtain ⟨cs, hcs, rfl⟩ := Option.map_eq_some_iff.mp h
        obtain ⟨hreadable, hv⟩ := readList_eq v cs hcs
        exact ⟨hreadable, by rw [toJs, hv, hkey]⟩
      · split at h
        · rename_i hkey
          obtain ⟨cs, hcs, rfl⟩ := Option.map_eq_some_iff.mp h
          obtain ⟨hreadable, hv⟩ := readList_eq v cs hcs
          exact ⟨hreadable, by rw [toJs, hv, hkey]⟩
        · split at h
          · rename_i hkey
            obtain ⟨d, hd, rfl⟩ := Option.map_eq_some_iff.mp h
            obtain ⟨hreadable, hv⟩ := read_eq v d hd
            exact ⟨hreadable, by rw [toJs, hv, hkey]⟩
          · exact readLeaf_writes h
  | .obj [], _, h            => by simp [read] at h
  | .obj (_ :: _ :: _), _, h => by simp [read] at h
  | .arr _, _, h             => by simp [read] at h
  | .undefined, _, h         => by simp [read] at h
  | .null, _, h              => by simp [read] at h
  | .bool _, _, h            => by simp [read] at h
  | .num _, _, h             => by simp [read] at h
  | .str _, _, h             => by simp [read] at h
  | .inherited _, _, h       => by simp [read] at h

theorem readList_eq : ∀ v cs, readList v = some cs →
    allReadable cs = true ∧ .arr (allToJs cs) = v
  | .arr xs, cs, h       => by
      obtain ⟨hreadable, hxs⟩ := readAll_eq xs cs h
      exact ⟨hreadable, by rw [hxs]⟩
  | .obj _, _, h         => by cases h
  | .undefined, _, h     => by cases h
  | .null, _, h          => by cases h
  | .bool _, _, h        => by cases h
  | .num _, _, h         => by cases h
  | .str _, _, h         => by cases h
  | .inherited _, _, h   => by cases h

theorem readAll_eq : ∀ xs cs, readAll xs = some cs → allReadable cs = true ∧ allToJs cs = xs
  | [], cs, h      => by
      cases h
      exact ⟨rfl, rfl⟩
  | v :: xs, cs, h => by
      obtain ⟨c, hc, hrest⟩ := Option.bind_eq_some_iff.mp h
      obtain ⟨rest, hcs, rfl⟩ := Option.map_eq_some_iff.mp hrest
      obtain ⟨hreadable, hv⟩ := read_eq v c hc
      obtain ⟨hreadables, hxs⟩ := readAll_eq xs rest hcs
      exact ⟨by rw [allReadable, hreadable, hreadables]; rfl, by rw [allToJs, hv, hxs]⟩

end

/-! ## Writing what can be read -/

theorem readAll_allToJs {cs : List Condition}
    (h : ∀ c ∈ cs, c.readable = true → read c.toJs = some c) (hcs : allReadable cs = true) :
    readAll (allToJs cs) = some cs := by
  induction cs with
  | nil => rfl
  | cons c cs ih =>
      rw [allReadable, Bool.and_eq_true] at hcs
      rw [allToJs, readAll, h c List.mem_cons_self hcs.1,
        ih (fun d hd => h d (List.mem_cons_of_mem _ hd)) hcs.2]
      rfl

theorem read_toJs (h : c.readable = true) : read c.toJs = some c := by
  induction c using Condition.induction with
  | always => rfl
  | never => rfl
  | eq path value =>
      show (scalarOf value.toJs).map (Condition.eq path) = _
      rw [scalarOf_toJs]
      rfl
  | neq path value =>
      show (scalarOf value.toJs).map (Condition.neq path) = _
      rw [scalarOf_toJs]
      rfl
  | order op path value =>
      cases value with
      | num n => cases op <;> rfl
      | _ => cases h
  | member path values =>
      cases values with
      | list values =>
          show (scalarsOf (values.map Scalar.toJs)).map (fun values => member path (.list values)) = _
          rw [scalarsOf_toJs]
          rfl
      | scalar value => cases h
  | and cs ih =>
      show (readAll (allToJs cs)).map Condition.and = _
      rw [readAll_allToJs ih h]
      rfl
  | or cs ih =>
      show (readAll (allToJs cs)).map Condition.or = _
      rw [readAll_allToJs ih h]
      rfl
  | not c ih =>
      show (read c.toJs).map Condition.not = _
      rw [ih h]
      rfl
  | field path => rfl

/-- **A value is of the grammar exactly if it can be read.** -/
theorem read_iff :
    (read v).isSome = true ↔ ∃ c : Condition, c.readable = true ∧ c.toJs = v := by
  constructor
  · intro h
    obtain ⟨c, hc⟩ := Option.isSome_iff_exists.mp h
    exact ⟨c, read_eq v c hc⟩
  · rintro ⟨c, hreadable, rfl⟩
    rw [read_toJs hreadable]
    rfl

end Condition

end MapProtocol
