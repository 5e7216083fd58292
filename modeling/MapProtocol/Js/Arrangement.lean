import MapProtocol.Js.Places

/-!
# Arranging a JSON value

The numbers of a value may be mapped, and the members of its objects put into an order. The one maps
the shapes at all places (`shapeAt_mapNumbers`), the other leaves them as they are (`shapeAt_ordered`).
-/

namespace MapProtocol.Js

/-! ## Mapping numbers -/

section MapNumbers

variable (f : Rat → Rat)

mutual

def mapNumbers : JsValue → JsValue
  | .num q  => .num (f q)
  | .arr xs => .arr (mapElements xs)
  | .obj es => .obj (mapMembers es)
  | v       => v

def mapElements : List JsValue → List JsValue
  | []      => []
  | v :: vs => mapNumbers v :: mapElements vs

def mapMembers : List (String × JsValue) → List (String × JsValue)
  | []           => []
  | (k, v) :: es => (k, mapNumbers v) :: mapMembers es

end

def Shape.map : Shape → Shape
  | .num q => .num (f q)
  | s      => s

theorem mapElements_eq (vs : List JsValue) : mapElements f vs = vs.map (mapNumbers f) := by
  induction vs with
  | nil => rfl
  | cons v vs ih => rw [mapElements, ih, List.map_cons]

theorem mapMembers_eq (es : List (String × JsValue)) :
    mapMembers f es = es.map fun e => (e.1, mapNumbers f e.2) := by
  induction es with
  | nil => rfl
  | cons e es ih => rw [mapMembers, ih, List.map_cons]

theorem getEntries_map {α β : Type} (g : α → β) (k : String) (es : List (String × α)) :
    OrderedMap.getEntries k (es.map fun e => (e.1, g e.2)) = (OrderedMap.getEntries k es).map g := by
  induction es with
  | nil => rfl
  | cons e es ih =>
      obtain ⟨a, v⟩ := e
      by_cases ha : a = k <;> simp [OrderedMap.getEntries, ha, ih]

theorem shape?_mapNumbers (v : JsValue) : shape? (mapNumbers f v) = (shape? v).map (Shape.map f) := by
  cases v <;> simp [mapNumbers, shape?, Shape.map, mapElements_eq]

theorem child?_mapNumbers (v : JsValue) (step : PlaceStep) :
    child? (mapNumbers f v) step = (child? v step).map (mapNumbers f) := by
  cases v with
  | arr xs => cases step <;> simp [mapNumbers, child?, mapElements_eq]
  | obj es => cases step <;> simp [mapNumbers, child?, mapMembers_eq, getEntries_map]
  | _ => cases step <;> rfl

/-- **The numbers are mapped, and nothing else.** -/
theorem shapeAt_mapNumbers (v : JsValue) (place : Place) :
    shapeAt (mapNumbers f v) place = (shapeAt v place).map (Shape.map f) := by
  induction place generalizing v with
  | nil => exact shape?_mapNumbers f v
  | cons step place ih =>
      show (child? (mapNumbers f v) step).bind _ = Option.map _ ((child? v step).bind _)
      rw [child?_mapNumbers]
      cases child? v step with
      | none => rfl
      | some w => exact ih w

mutual

theorem isJson_mapNumbers {f : Rat → Rat} (hf : ∀ q, Decimal (f q)) :
    ∀ v, IsJson v → IsJson (mapNumbers f v)
  | .undefined, h   => h
  | .inherited _, h => h
  | .null, h        => h
  | .bool _, h      => h
  | .num q, _       => hf q
  | .str _, h       => h
  | .arr xs, h      => areJson_mapElements hf xs h
  | .obj es, h      => by
      refine ⟨?_, haveJson_mapMembers hf es h.2⟩
      rw [mapMembers_eq, List.map_map]
      exact h.1

theorem areJson_mapElements {f : Rat → Rat} (hf : ∀ q, Decimal (f q)) :
    ∀ vs, AreJson vs → AreJson (mapElements f vs)
  | [], _      => trivial
  | v :: vs, h => ⟨isJson_mapNumbers hf v h.1, areJson_mapElements hf vs h.2⟩

theorem haveJson_mapMembers {f : Rat → Rat} (hf : ∀ q, Decimal (f q)) :
    ∀ es, HaveJson es → HaveJson (mapMembers f es)
  | [], _           => trivial
  | (_, v) :: es, h => ⟨isJson_mapNumbers hf v h.1, haveJson_mapMembers hf es h.2⟩

end

end MapNumbers

/-! ## Ordering members -/

section Sorted

variable (r : String → String → Prop) [DecidableRel r]

/-- The order of members that one of their names gives. -/
def MemberOrder (a b : String × JsValue) : Prop := r a.1 b.1

instance : DecidableRel (MemberOrder r) := fun a b => inferInstanceAs (Decidable (r a.1 b.1))

mutual

/-- The value, with the members of every object in order. -/
def ordered : JsValue → JsValue
  | .arr xs => .arr (orderedElements xs)
  | .obj es => .obj ((orderedMembers es).insertionSort (MemberOrder r))
  | v       => v

def orderedElements : List JsValue → List JsValue
  | []      => []
  | v :: vs => ordered v :: orderedElements vs

def orderedMembers : List (String × JsValue) → List (String × JsValue)
  | []           => []
  | (k, v) :: es => (k, ordered v) :: orderedMembers es

end

theorem orderedElements_eq (vs : List JsValue) : orderedElements r vs = vs.map (ordered r) := by
  induction vs with
  | nil => rfl
  | cons v vs ih => rw [orderedElements, ih, List.map_cons]

theorem orderedMembers_eq (es : List (String × JsValue)) :
    orderedMembers r es = es.map fun e => (e.1, ordered r e.2) := by
  induction es with
  | nil => rfl
  | cons e es ih => rw [orderedMembers, ih, List.map_cons]

theorem sorted_orderedMembers (es : List (String × JsValue)) :
    (orderedMembers r es).insertionSort (MemberOrder r) =
      (es.insertionSort (MemberOrder r)).map fun e => (e.1, ordered r e.2) := by
  rw [orderedMembers_eq]
  exact (List.map_insertionSort (MemberOrder r) (MemberOrder r) (fun e => (e.1, ordered r e.2)) es
    fun _ _ _ _ => Iff.rfl).symm

theorem getEntries_perm {es fs : List (String × JsValue)} (h : es.Perm fs)
    (hnodup : (es.map Prod.fst).Nodup) (k : String) :
    OrderedMap.getEntries k es = OrderedMap.getEntries k fs := by
  have hnodup' : (fs.map Prod.fst).Nodup := (h.map Prod.fst).nodup_iff.mp hnodup
  refine Option.ext fun v => ?_
  rw [OrderedMap.getEntries_eq_some hnodup, OrderedMap.getEntries_eq_some hnodup', h.mem_iff]

theorem child?_ordered {v : JsValue} (h : IsJson v) (step : PlaceStep) :
    child? (ordered r v) step = (child? v step).map (ordered r) := by
  cases v with
  | arr xs => cases step <;> simp [ordered, child?, orderedElements_eq]
  | obj es =>
      cases step with
      | element i => rfl
      | member k =>
          have hperm := List.perm_insertionSort (MemberOrder r) (orderedMembers r es)
          have hnodup : ((orderedMembers r es).map Prod.fst).Nodup := by
            rw [orderedMembers_eq, List.map_map]
            exact h.1
          show OrderedMap.getEntries k _ = (OrderedMap.getEntries k es).map (ordered r)
          rw [getEntries_perm hperm ((hperm.map Prod.fst).nodup_iff.mpr hnodup), orderedMembers_eq,
            getEntries_map]
  | _ => cases step <;> rfl

theorem isJson_child {v w : JsValue} (h : IsJson v) {step : PlaceStep} (hw : child? v step = some w) :
    IsJson w := by
  cases v with
  | arr xs =>
      cases step with
      | element i => exact areJson_iff.mp h w (List.mem_of_getElem? hw)
      | member k => cases hw
  | obj es =>
      cases step with
      | element i => cases hw
      | member k => exact haveJson_iff.mp h.2 (k, w) ((OrderedMap.getEntries_eq_some h.1).mp hw)
  | _ => cases step <;> cases hw

/-- **Nothing but the order of members changes.** -/
theorem shapeAt_ordered {v : JsValue} (h : IsJson v) (place : Place) :
    shapeAt (ordered r v) place = shapeAt v place := by
  induction place generalizing v with
  | nil => cases v <;> simp [shapeAt, ordered, shape?, orderedElements_eq]
  | cons step place ih =>
      show (child? (ordered r v) step).bind _ = (child? v step).bind _
      rw [child?_ordered r h]
      cases hw : child? v step with
      | none => rfl
      | some w => exact ih (isJson_child h hw)

mutual

theorem isJson_ordered : ∀ v, IsJson v → IsJson (ordered r v)
  | .undefined, h   => h
  | .inherited _, h => h
  | .null, h        => h
  | .bool _, h      => h
  | .num _, h       => h
  | .str _, h       => h
  | .arr xs, h      => areJson_ordered xs h
  | .obj es, h      => by
      have hperm := List.perm_insertionSort (MemberOrder r) (orderedMembers r es)
      refine ⟨(hperm.map Prod.fst).nodup_iff.mpr ?_, haveJson_iff.mpr fun e he => ?_⟩
      · rw [orderedMembers_eq, List.map_map]
        exact h.1
      · exact haveJson_iff.mp (haveJson_ordered es h.2) e (hperm.mem_iff.mp he)

theorem areJson_ordered : ∀ vs, AreJson vs → AreJson (orderedElements r vs)
  | [], _      => trivial
  | v :: vs, h => ⟨isJson_ordered v h.1, areJson_ordered vs h.2⟩

theorem haveJson_ordered : ∀ es, HaveJson es → HaveJson (orderedMembers r es)
  | [], _           => trivial
  | (_, v) :: es, h => ⟨isJson_ordered v h.1, haveJson_ordered es h.2⟩

end

instance [Std.Total r] : Std.Total (MemberOrder r) := ⟨fun a b => Std.Total.total (r := r) a.1 b.1⟩

instance [IsTrans String r] : IsTrans (String × JsValue) (MemberOrder r) :=
  ⟨fun _ _ _ hab hbc => IsTrans.trans (r := r) _ _ _ hab hbc⟩

mutual

/-- An ordered value is in order. -/
theorem ordered_isOrdered [Std.Total r] [IsTrans String r] : ∀ v, Ordered r (ordered r v)
  | .undefined   => trivial
  | .inherited _ => trivial
  | .null        => trivial
  | .bool _      => trivial
  | .num _       => trivial
  | .str _       => trivial
  | .arr xs      => orderedElements_isOrdered xs
  | .obj es      => by
      have hperm := List.perm_insertionSort (MemberOrder r) (orderedMembers r es)
      refine ⟨?_, orderedMembers_iff.mpr fun e he => ?_⟩
      · exact List.pairwise_map.mpr (List.pairwise_insertionSort (MemberOrder r) _)
      · exact orderedMembers_iff.mp (orderedMembers_isOrdered es) e (hperm.mem_iff.mp he)

theorem orderedElements_isOrdered [Std.Total r] [IsTrans String r] :
    ∀ vs, OrderedElements r (orderedElements r vs)
  | []      => trivial
  | v :: vs => ⟨ordered_isOrdered v, orderedElements_isOrdered vs⟩

theorem orderedMembers_isOrdered [Std.Total r] [IsTrans String r] :
    ∀ es, OrderedMembers r (orderedMembers r es)
  | []           => trivial
  | (_, v) :: es => ⟨ordered_isOrdered v, orderedMembers_isOrdered es⟩

end

/-- **Values that are equal up to the order of members are equal once they are in order.** -/
theorem ordered_eq_of_sameJson [Std.Total r] [IsTrans String r]
    (hr : ∀ a b, r a b → r b a → a = b) {v w : JsValue} (hv : IsJson v)
    (hw : IsJson w) (h : SameJson v w) : ordered r v = ordered r w := by
  refine eq_of_sameJson hr _ _ (isJson_ordered r v hv) (isJson_ordered r w hw)
    (ordered_isOrdered r v) (ordered_isOrdered r w) fun place => ?_
  rw [shapeAt_ordered r hv, shapeAt_ordered r hw]
  exact h place

end Sorted

end MapProtocol.Js
