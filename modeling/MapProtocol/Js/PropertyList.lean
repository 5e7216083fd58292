import MapProtocol.Js.Places

/-!
# Writing the members of a list

`JSON.stringify` with a list of names as its second argument writes of every object, at every depth,
the members of the list, in the order of the list. So what is written of a value is what stands at
the places on whose path every name is of the list (`stringifyListed_eq_iff`).
-/

namespace MapProtocol.Js

variable {es : List (String × JsValue)}

/-- The members whose names are listed, in the order of the list. -/
def pick (names : List String) (es : List (String × JsValue)) : List (String × JsValue) :=
  names.filterMap fun k => (OrderedMap.getEntries k es).map fun v => (k, v)

mutual

/-- What is written of a value. No name of the list is one that objects inherit. -/
def listed (names : List String) : JsValue → JsValue
  | .arr xs => .arr (listedElements names xs)
  | .obj es => .obj (pick names (listedMembers names es))
  | v       => v

def listedElements (names : List String) : List JsValue → List JsValue
  | []      => []
  | v :: vs => listed names v :: listedElements names vs

def listedMembers (names : List String) : List (String × JsValue) → List (String × JsValue)
  | []           => []
  | (k, v) :: es =>
      if (shape? v).isSome then (k, listed names v) :: listedMembers names es
      else listedMembers names es

end

/-- `JSON.stringify(v, names)`; `none` is its `undefined`. -/
def stringifyListed (names : List String) (v : JsValue) : Option String := stringify? (listed names v)

/-- A step of a path that the list leads to. -/
def listedStep (names : List String) : PlaceStep → Bool
  | .member k  => k ∈ names
  | .element _ => true

/-- Is what stands at the place written? -/
def covered (names : List String) (place : Place) : Bool := place.all (listedStep names)

/-- The shape at a place, if it is written. -/
def coveredShape (names : List String) (v : JsValue) (place : Place) : Option Shape :=
  if covered names place then shapeAt v place else none

/-- An object of JSON values, of which some may be `undefined`. -/
def IsRecord (es : List (String × JsValue)) : Prop :=
  (es.map Prod.fst).Nodup ∧ ∀ e ∈ es, e.2 = .undefined ∨ IsJson e.2

/-! ## Reading what is listed -/

variable {names : List String}

theorem getEntries_pick (names : List String) (es : List (String × JsValue)) (k : String) :
    OrderedMap.getEntries k (pick names es) =
      if k ∈ names then OrderedMap.getEntries k es else none := by
  unfold pick
  induction names with
  | nil => rfl
  | cons a names ih =>
      cases hget : OrderedMap.getEntries a es with
      | none =>
          rw [List.filterMap_cons_none (by rw [hget]; rfl), ih]
          by_cases hk : k = a
          · rw [hk, hget, ite_self, ite_self]
          · simp [hk]
      | some v =>
          rw [List.filterMap_cons_some (by rw [hget]; rfl), OrderedMap.getEntries, ih]
          by_cases hk : a = k
          · simp [← hk, hget]
          · simp [hk, Ne.symm hk]

theorem keys_pick_sublist (names : List String) (es : List (String × JsValue)) :
    ((pick names es).map Prod.fst).Sublist names := by
  unfold pick
  induction names with
  | nil => exact List.Sublist.slnil
  | cons a names ih =>
      cases hget : OrderedMap.getEntries a es with
      | none =>
          rw [List.filterMap_cons_none (by rw [hget]; rfl)]
          exact ih.cons a
      | some v =>
          rw [List.filterMap_cons_some (by rw [hget]; rfl)]
          exact ih.cons_cons a

theorem listedElements_eq (names : List String) (xs : List JsValue) :
    listedElements names xs = xs.map (listed names) := by
  induction xs with
  | nil => rfl
  | cons v xs ih => rw [listedElements, ih, List.map_cons]

theorem listedMembers_eq (names : List String) (es : List (String × JsValue)) :
    listedMembers names es =
      (es.filter fun e => (shape? e.2).isSome).map fun e => (e.1, listed names e.2) := by
  induction es with
  | nil => rfl
  | cons e es ih =>
      obtain ⟨k, v⟩ := e
      rw [listedMembers, ih]
      by_cases hv : (shape? v).isSome = true
      · simp [hv]
      · simp [hv]

theorem mem_of_mem_pick (hnodup : (es.map Prod.fst).Nodup) {e : String × JsValue}
    (h : e ∈ pick names es) : e ∈ es := by
  obtain ⟨k, -, hget⟩ := List.mem_filterMap.mp h
  obtain ⟨v, hv, rfl⟩ := Option.map_eq_some_iff.mp hget
  exact (OrderedMap.getEntries_eq_some hnodup).mp hv

theorem keys_listedMembers_nodup (h : (es.map Prod.fst).Nodup) :
    ((listedMembers names es).map Prod.fst).Nodup := by
  rw [listedMembers_eq, List.map_map]
  exact (List.filter_sublist.map Prod.fst).nodup h

theorem getEntries_listedMembers (h : (es.map Prod.fst).Nodup) (k : String) :
    OrderedMap.getEntries k (listedMembers names es) =
      ((OrderedMap.getEntries k es).filter fun v => (shape? v).isSome).map (listed names) := by
  apply Option.ext
  intro w
  rw [OrderedMap.getEntries_eq_some (keys_listedMembers_nodup h), listedMembers_eq]
  simp only [List.mem_map, List.mem_filter, Option.map_eq_some_iff, Option.filter_eq_some_iff,
    OrderedMap.getEntries_eq_some h, Prod.mk.injEq]
  constructor
  · rintro ⟨⟨_, v⟩, hmem, rfl, rfl⟩
    exact ⟨v, hmem, rfl⟩
  · rintro ⟨v, hmem, rfl⟩
    exact ⟨(k, v), hmem, rfl, rfl⟩

theorem shapeAt_eq_none {v : JsValue} (h : shape? v = none) (place : Place) :
    shapeAt v place = none := by
  cases place with
  | nil => exact h
  | cons step place => cases v <;> first | rfl | cases h

theorem coveredShape_cons (v : JsValue) (step : PlaceStep) (place : Place) :
    coveredShape names v (step :: place) =
      if listedStep names step then (child? v step).bind fun w => coveredShape names w place
      else none := by
  unfold coveredShape covered
  rw [List.all_cons]
  by_cases hstep : listedStep names step = true
  · by_cases hplace : place.all (listedStep names) = true
    · simp [hstep, hplace, shapeAt]
    · simp [hstep, hplace]
  · simp [hstep]

/-- An object is written as its members are. -/
theorem shapeAt_listed_obj (h : (es.map Prod.fst).Nodup)
    (hes : ∀ e ∈ es, ∀ place, shapeAt (listed names e.2) place = coveredShape names e.2 place)
    (place : Place) :
    shapeAt (listed names (.obj es)) place = coveredShape names (.obj es) place := by
  cases place with
  | nil => rfl
  | cons step place =>
      rw [coveredShape_cons, listed, shapeAt]
      cases step with
      | element i => simp [child?, listedStep]
      | member k =>
          simp only [child?, listedStep, getEntries_pick, getEntries_listedMembers h,
            decide_eq_true_eq]
          by_cases hk : k ∈ names
          · rw [if_pos hk, if_pos hk]
            cases hget : OrderedMap.getEntries k es with
            | none => rfl
            | some v =>
                have hv := hes (k, v) ((OrderedMap.getEntries_eq_some h).mp hget) place
                by_cases hshape : (shape? v).isSome = true
                · simpa [Option.filter, hshape] using hv
                · rw [Option.not_isSome_iff_eq_none] at hshape
                  simp [Option.filter, hshape, coveredShape, shapeAt_eq_none hshape]
          · rw [if_neg hk, if_neg hk]
            rfl

theorem shapeAt_listed_scalar {v : JsValue} (hlisted : listed names v = v)
    (hchild : ∀ step, child? v step = none) (place : Place) :
    shapeAt (listed names v) place = coveredShape names v place := by
  rw [hlisted]
  cases place with
  | nil => rfl
  | cons step place =>
      rw [coveredShape_cons, shapeAt, hchild, Option.bind_none, Option.bind_none, ite_self]

mutual

/-- **What is written of a value is what its covered places hold.** -/
theorem shapeAt_listed : ∀ v, IsJson v → ∀ place,
    shapeAt (listed names v) place = coveredShape names v place
  | .undefined, h, _     => absurd h id
  | .inherited _, h, _   => absurd h id
  | .null, _, place      => shapeAt_listed_scalar rfl (fun _ => rfl) place
  | .bool _, _, place    => shapeAt_listed_scalar rfl (fun _ => rfl) place
  | .num _, _, place     => shapeAt_listed_scalar rfl (fun _ => rfl) place
  | .str _, _, place     => shapeAt_listed_scalar rfl (fun _ => rfl) place
  | .obj es, h, place    => shapeAt_listed_obj h.1 (shapeAt_listedMembers es h.2) place
  | .arr xs, h, []       => by simp [listed, shapeAt, shape?, coveredShape, covered, listedElements_eq]
  | .arr xs, h, .element i :: place => by
      rw [coveredShape_cons, listed, shapeAt, listedElements_eq]
      simp only [child?, listedStep, List.getElem?_map, if_true]
      cases hi : xs[i]? with
      | none => rfl
      | some v => exact shapeAt_listedElements xs h v (List.mem_of_getElem? hi) place
  | .arr xs, h, .member k :: place => by
      rw [coveredShape_cons, listed, shapeAt]
      simp [child?]

theorem shapeAt_listedElements : ∀ xs, AreJson xs → ∀ v ∈ xs, ∀ place,
    shapeAt (listed names v) place = coveredShape names v place
  | [], _, _, hv, _          => by cases hv
  | x :: xs, h, v, hv, place => by
      rcases List.mem_cons.mp hv with heq | hv
      · rw [heq]
        exact shapeAt_listed x h.1 place
      · exact shapeAt_listedElements xs h.2 v hv place

theorem shapeAt_listedMembers : ∀ es, HaveJson es → ∀ e ∈ es, ∀ place,
    shapeAt (listed names e.2) place = coveredShape names e.2 place
  | [], _, _, he, _               => by cases he
  | (_, v) :: es, h, e, he, place => by
      rcases List.mem_cons.mp he with heq | he
      · rw [heq]
        exact shapeAt_listed v h.1 place
      · exact shapeAt_listedMembers es h.2 e he place

end

theorem shapeAt_listed_record (h : IsRecord es) (place : Place) :
    shapeAt (listed names (.obj es)) place = coveredShape names (.obj es) place := by
  refine shapeAt_listed_obj h.1 (fun e he place => ?_) place
  rcases h.2 e he with heq | hjson
  · rw [heq]
    exact shapeAt_listed_scalar rfl (fun _ => rfl) place
  · exact shapeAt_listed e.2 hjson place

/-! ## What is listed is JSON, in the order of the list -/

theorem IsRecord.member {es : List (String × JsValue)} (h : IsRecord es) {e : String × JsValue}
    (he : e ∈ es) (hshape : (shape? e.2).isSome = true) : IsJson e.2 := by
  refine (h.2 e he).resolve_left fun heq => ?_
  rw [heq] at hshape
  cases hshape

theorem isJson_listed_obj (hnames : names.Nodup) (h : (es.map Prod.fst).Nodup)
    (hes : ∀ e ∈ es, (shape? e.2).isSome = true → IsJson (listed names e.2)) :
    IsJson (listed names (.obj es)) := by
  refine ⟨(keys_pick_sublist names _).nodup hnames, haveJson_iff.mpr fun e he => ?_⟩
  have hmem := mem_of_mem_pick (keys_listedMembers_nodup h) he
  rw [listedMembers_eq] at hmem
  obtain ⟨e, hfilter, rfl⟩ := List.mem_map.mp hmem
  obtain ⟨hkept, hshape⟩ := List.mem_filter.mp hfilter
  exact hes e hkept hshape

mutual

theorem isJson_listed (hnames : names.Nodup) : ∀ v, IsJson v → IsJson (listed names v)
  | .undefined, h   => absurd h id
  | .inherited _, h => absurd h id
  | .null, _        => trivial
  | .bool _, _      => trivial
  | .num _, h       => h
  | .str _, _       => trivial
  | .arr xs, h      => isJson_listedElements hnames xs h
  | .obj es, h      =>
      isJson_listed_obj hnames h.1 fun e he _ => isJson_listedMembers hnames es h.2 e he

theorem isJson_listedElements (hnames : names.Nodup) : ∀ xs, AreJson xs →
    AreJson (listedElements names xs)
  | [], _      => trivial
  | v :: xs, h => ⟨isJson_listed hnames v h.1, isJson_listedElements hnames xs h.2⟩

theorem isJson_listedMembers (hnames : names.Nodup) : ∀ es, HaveJson es →
    ∀ e ∈ es, IsJson (listed names e.2)
  | [], _, _, he           => by cases he
  | (_, v) :: es, h, e, he => by
      rcases List.mem_cons.mp he with heq | he
      · rw [heq]
        exact isJson_listed hnames v h.1
      · exact isJson_listedMembers hnames es h.2 e he

end

theorem isJson_listed_record (hnames : names.Nodup) (h : IsRecord es) :
    IsJson (listed names (.obj es)) :=
  isJson_listed_obj hnames h.1 fun e he hshape => isJson_listed hnames e.2 (h.member he hshape)

mutual

theorem ordered_listed {r : String → String → Prop} (hnames : names.Pairwise r) :
    ∀ v, Ordered r (listed names v)
  | .undefined   => trivial
  | .inherited _ => trivial
  | .null        => trivial
  | .bool _      => trivial
  | .num _       => trivial
  | .str _       => trivial
  | .arr xs      => ordered_listedElements hnames xs
  | .obj es      => by
      refine ⟨hnames.sublist (keys_pick_sublist names _), orderedMembers_iff.mpr fun e he => ?_⟩
      obtain ⟨k, -, hget⟩ := List.mem_filterMap.mp he
      obtain ⟨v, hv, rfl⟩ := Option.map_eq_some_iff.mp hget
      exact ordered_listedMembers hnames es k v hv

theorem ordered_listedElements {r : String → String → Prop} (hnames : names.Pairwise r) :
    ∀ xs, OrderedElements r (listedElements names xs)
  | []      => trivial
  | v :: xs => ⟨ordered_listed hnames v, ordered_listedElements hnames xs⟩

theorem ordered_listedMembers {r : String → String → Prop} (hnames : names.Pairwise r) :
    ∀ es k v, OrderedMap.getEntries k (listedMembers names es) = some v → Ordered r v
  | [], _, _, hget           => by cases hget
  | (l, w) :: es, k, v, hget => by
      rw [listedMembers] at hget
      split at hget
      · rw [OrderedMap.getEntries] at hget
        split at hget
        · cases hget
          exact ordered_listed hnames w
        · exact ordered_listedMembers hnames es k v hget
      · exact ordered_listedMembers hnames es k v hget

end

/-- **Two objects have one text under their lists exactly if they hold the same at covered places.** -/
theorem stringifyListed_eq_iff {r : String → String → Prop} (hr : ∀ a b, r a b → r b a → a = b)
    {names names' : List String} (hnodup : names.Nodup) (hnodup' : names'.Nodup)
    (hnames : names.Pairwise r) (hnames' : names'.Pairwise r) {es fs : List (String × JsValue)}
    (hes : IsRecord es) (hfs : IsRecord fs) :
    stringifyListed names (.obj es) = stringifyListed names' (.obj fs) ↔
      ∀ place, coveredShape names (.obj es) place = coveredShape names' (.obj fs) place := by
  have hv := isJson_listed_record hnodup hes
  have hw := isJson_listed_record hnodup' hfs
  constructor
  · intro heq place
    obtain ⟨t, ht⟩ := hv.text
    have ht' : stringify? (listed names' (.obj fs)) = some t := heq.symm.trans ht
    have hsame : listed names (.obj es) = listed names' (.obj fs) :=
      Option.some.inj ((parse_stringify? hv ht).symm.trans (parse_stringify? hw ht'))
    rw [← shapeAt_listed_record hes, ← shapeAt_listed_record hfs, hsame]
  · intro h
    refine congrArg stringify? (eq_of_sameJson hr _ _ hv hw (ordered_listed hnames _)
      (ordered_listed hnames' _) fun place => ?_)
    rw [shapeAt_listed_record hes, shapeAt_listed_record hfs, h place]

end MapProtocol.Js
