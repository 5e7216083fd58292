import MapProtocol.Js.JsonRoundTrip
import Mathlib.Data.List.Sort

/-!
# Places in a JSON value

A place is a path of member names and element indices. Two values are equal up to the order of the
members of their objects if they have the same shape at every place (`SameJson`); where the members of
every object stand in one fixed order, that is equality (`eq_of_sameJson`).
-/

namespace MapProtocol.Js

inductive PlaceStep where
  | member (k : String)
  | element (i : Nat)
  deriving DecidableEq

abbrev Place := List PlaceStep

/-- What a value is, apart from its elements and members. -/
inductive Shape where
  | null
  | bool (b : Bool)
  | num (n : Rat)
  | str (s : String)
  | arr (length : Nat)
  | obj
  deriving DecidableEq

def shape? : JsValue → Option Shape
  | .undefined   => none
  | .inherited _ => none
  | .null        => some .null
  | .bool b      => some (.bool b)
  | .num n       => some (.num n)
  | .str s       => some (.str s)
  | .arr xs      => some (.arr xs.length)
  | .obj _       => some .obj

def child? : JsValue → PlaceStep → Option JsValue
  | .obj es, .member k  => OrderedMap.getEntries k es
  | .arr xs, .element i => xs[i]?
  | _, _                => none

/-- The shape of what stands at a place, if something does. -/
def shapeAt : JsValue → Place → Option Shape
  | v, []            => shape? v
  | v, step :: place => (child? v step).bind fun w => shapeAt w place

/-- The values are equal up to the order of members. -/
def SameJson (v w : JsValue) : Prop := ∀ place, shapeAt v place = shapeAt w place

theorem SameJson.refl (v : JsValue) : SameJson v v := fun _ => rfl

theorem SameJson.symm {v w : JsValue} (h : SameJson v w) : SameJson w v := fun place => (h place).symm

theorem SameJson.trans {u v w : JsValue} (h : SameJson u v) (h' : SameJson v w) : SameJson u w :=
  fun place => (h place).trans (h' place)

theorem IsJson.shape {v : JsValue} (h : IsJson v) : (shape? v).isSome = true := by
  cases v with
  | undefined => exact absurd h id
  | inherited name => exact absurd h id
  | null => rfl
  | bool b => rfl
  | num q => rfl
  | str s => rfl
  | arr xs => rfl
  | obj es => rfl

theorem haveJson_iff {es : List (String × JsValue)} : HaveJson es ↔ ∀ e ∈ es, IsJson e.2 := by
  induction es with
  | nil => simp [HaveJson]
  | cons e es ih => simp [HaveJson, ih]

/-! ## Ordered members -/

section Ordered

variable (r : String → String → Prop)

mutual

/-- The members of every object stand in order. -/
def Ordered : JsValue → Prop
  | .arr xs => OrderedElements xs
  | .obj es => (es.map Prod.fst).Pairwise r ∧ OrderedMembers es
  | _       => True

def OrderedElements : List JsValue → Prop
  | []      => True
  | v :: vs => Ordered v ∧ OrderedElements vs

def OrderedMembers : List (String × JsValue) → Prop
  | []           => True
  | (_, v) :: es => Ordered v ∧ OrderedMembers es

end

variable {r}

theorem orderedMembers_iff {es : List (String × JsValue)} :
    OrderedMembers r es ↔ ∀ e ∈ es, Ordered r e.2 := by
  induction es with
  | nil => simp [OrderedMembers]
  | cons e es ih => simp [OrderedMembers, ih]

theorem mem_keys_iff_shapeAt {es : List (String × JsValue)} (h : IsJson (.obj es)) (k : String) :
    k ∈ es.map Prod.fst ↔ (shapeAt (.obj es) [.member k]).isSome = true := by
  cases hget : OrderedMap.getEntries k es with
  | none => simp [shapeAt, child?, hget, OrderedMap.getEntries_eq_none.mp hget]
  | some v =>
      have hentry := (OrderedMap.getEntries_eq_some h.1).mp hget
      have hv : IsJson v := haveJson_iff.mp h.2 (k, v) hentry
      have hmem : k ∈ es.map Prod.fst := List.mem_map.mpr ⟨(k, v), hentry, rfl⟩
      simp only [shapeAt, child?, hget, Option.bind_some, hmem, hv.shape]

theorem keys_eq_of_sameJson (hr : ∀ a b, r a b → r b a → a = b) {es fs : List (String × JsValue)}
    (hes : IsJson (.obj es)) (hfs : IsJson (.obj fs)) (ho : Ordered r (.obj es))
    (ho' : Ordered r (.obj fs)) (h : SameJson (.obj es) (.obj fs)) :
    es.map Prod.fst = fs.map Prod.fst := by
  have hperm : (es.map Prod.fst).Perm (fs.map Prod.fst) := by
    refine (List.perm_ext_iff_of_nodup hes.1 hfs.1).mpr fun k => ?_
    rw [mem_keys_iff_shapeAt hes, mem_keys_iff_shapeAt hfs, h [.member k]]
  exact hperm.eq_of_pairwise (fun a b _ _ => hr a b) ho.1 ho'.1

mutual

/-- **In one order of members, values that are equal up to this order are equal.** -/
theorem eq_of_sameJson (hr : ∀ a b, r a b → r b a → a = b) : ∀ v w, IsJson v → IsJson w →
    Ordered r v → Ordered r w → SameJson v w → v = w
  | .undefined, _, h, _, _, _, _   => absurd h id
  | .inherited _, _, h, _, _, _, _ => absurd h id
  | .null, w, _, _, _, _, h        => by
      have hw := h []
      cases w <;> simp [shapeAt, shape?] at hw ⊢
  | .bool b, w, _, _, _, _, h      => by
      have hw := h []
      cases w <;> simp [shapeAt, shape?] at hw ⊢
      exact hw
  | .num q, w, _, _, _, _, h       => by
      have hw := h []
      cases w <;> simp [shapeAt, shape?] at hw ⊢
      exact hw
  | .str s, w, _, _, _, _, h       => by
      have hw := h []
      cases w <;> simp [shapeAt, shape?] at hw ⊢
      exact hw
  | .arr xs, w, hv, hw, ho, ho', h => by
      have hshape := h []
      cases w with
      | arr ys =>
          have hlength : xs.length = ys.length := by simpa [shapeAt, shape?] using hshape
          rw [elements_eq_of_sameJson hr xs ys hv hw ho ho' hlength]
          intro i v w hi hi' place
          have hplace := h (.element i :: place)
          simpa [shapeAt, child?, hi, hi'] using hplace
      | _ => simp [shapeAt, shape?] at hshape
  | .obj es, w, hv, hw, ho, ho', h => by
      have hshape := h []
      cases w with
      | obj fs =>
          have hkeys := keys_eq_of_sameJson hr hv hw ho ho' h
          rw [members_eq_of_sameJson hr es fs hv.2 hw.2 ho.2 ho'.2 hkeys]
          intro k v w hk hk' place
          have hplace := h (.member k :: place)
          rw [← OrderedMap.getEntries_eq_some hv.1] at hk
          rw [← OrderedMap.getEntries_eq_some hw.1] at hk'
          simpa [shapeAt, child?, hk, hk'] using hplace
      | _ => simp [shapeAt, shape?] at hshape

theorem elements_eq_of_sameJson (hr : ∀ a b, r a b → r b a → a = b) : ∀ xs ys, AreJson xs →
    AreJson ys → OrderedElements r xs → OrderedElements r ys → xs.length = ys.length →
      (∀ (i : Nat) v w, xs[i]? = some v → ys[i]? = some w → SameJson v w) → xs = ys
  | [], ys, _, _, _, _, hlength, _                  => (List.length_eq_zero_iff.mp hlength.symm).symm
  | _ :: _, [], _, _, _, _, hlength, _              => by simp at hlength
  | v :: xs, w :: ys, hv, hw, ho, ho', hlength, h => by
      have hhead := eq_of_sameJson hr v w hv.1 hw.1 ho.1 ho'.1 (h 0 v w rfl rfl)
      have htail := elements_eq_of_sameJson hr xs ys hv.2 hw.2 ho.2 ho'.2
        (Nat.succ.inj hlength) fun i => h (i + 1)
      rw [hhead, htail]

theorem members_eq_of_sameJson (hr : ∀ a b, r a b → r b a → a = b) : ∀ es fs, HaveJson es →
    HaveJson fs → OrderedMembers r es → OrderedMembers r fs → es.map Prod.fst = fs.map Prod.fst →
      (∀ k v w, (k, v) ∈ es → (k, w) ∈ fs → SameJson v w) → es = fs
  | [], fs, _, _, _, _, hkeys, _                              =>
      (List.map_eq_nil_iff.mp hkeys.symm).symm
  | _ :: _, [], _, _, _, _, hkeys, _                          => by simp at hkeys
  | (k, v) :: es, (l, w) :: fs, hv, hw, ho, ho', hkeys, h => by
      obtain ⟨hkey, hnames⟩ := List.cons.inj hkeys
      obtain rfl : k = l := hkey
      have hhead := eq_of_sameJson hr v w hv.1 hw.1 ho.1 ho'.1
        (h k v w List.mem_cons_self List.mem_cons_self)
      have htail := members_eq_of_sameJson hr es fs hv.2 hw.2 ho.2 ho'.2 hnames
        fun k v w hk hk' => h k v w (List.mem_cons_of_mem _ hk) (List.mem_cons_of_mem _ hk')
      rw [hhead, htail]

end

end Ordered

end MapProtocol.Js
