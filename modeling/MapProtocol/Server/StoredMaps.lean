import MapProtocol.Security.Wire
import MapProtocol.Server.Alerts
import MapProtocol.Server.AdminRoutes
import MapProtocol.Server.RateLimiter
import MapProtocol.Server.State

/-!
# Stored maps

The runtime controls, the rate limits and the alerts in memory are maps. A file holds them as JSON
objects, or as a list of records, and they are read back entry by entry. Not every key comes back: the
empty one is passed over where controls are read, and the assignment to `__proto__` by which the
events of a tenant are stored makes no property.
-/

namespace MapProtocol

open Js SlidingWindow

/-! ## Objects -/

/-- The index that a property name is, if it is one. -/
def propertyIndex (key : String) : Option Nat :=
  key.toNat?.filter fun n => toString n = key ∧ n < 4294967295

/-- `Object.fromEntries`, for keys that differ: the indices come first. -/
def fromEntries (es : JsObject) : JsObject :=
  ((es.filter fun e => (propertyIndex e.1).isSome).mergeSort fun a b =>
    decide ((propertyIndex a.1).getD 0 ≤ (propertyIndex b.1).getD 0)) ++
  es.filter fun e => !(propertyIndex e.1).isSome

theorem fromEntries_perm (es : JsObject) : (fromEntries es).Perm es := by
  have hsplit := List.filter_append_perm (fun e => (propertyIndex e.1).isSome) es
  unfold fromEntries
  generalize (es.filter fun e => (propertyIndex e.1).isSome) = indices at hsplit ⊢
  exact ((List.mergeSort_perm indices _).append_right _).trans hsplit

theorem nodup_fromEntries {es : JsObject} (h : (es.map Prod.fst).Nodup) :
    ((fromEntries es).map Prod.fst).Nodup :=
  ((fromEntries_perm es).map Prod.fst).nodup_iff.mpr h

theorem getEntries_fromEntries {es : JsObject} (h : (es.map Prod.fst).Nodup) (key : String) :
    OrderedMap.getEntries key (fromEntries es) = OrderedMap.getEntries key es := by
  apply Option.ext
  intro v
  rw [OrderedMap.getEntries_eq_some (nodup_fromEntries h), OrderedMap.getEntries_eq_some h,
    (fromEntries_perm es).mem_iff]

def mapToJs {ν : Type} (toJs : ν → JsValue) (m : OrderedMap String ν) : JsObject :=
  fromEntries (m.entries.map fun e => (e.1, toJs e.2))

/-- A map read from an object, entry by entry; what does not decode is passed over. -/
def hydrateMap {ν : Type} (decode : String → JsValue → Option ν) (es : JsObject) :
    OrderedMap String ν :=
  es.foldl (fun m e =>
    match decode e.1 e.2 with
    | none   => m
    | some v => m.set e.1 v) .empty

section

variable {ν : Type}

theorem get_foldl_decode (decode : String → JsValue → Option ν) {es : JsObject}
    (h : (es.map Prod.fst).Nodup) (m : OrderedMap String ν) (key : String) :
    (es.foldl (fun m e =>
      match decode e.1 e.2 with
      | none   => m
      | some v => m.set e.1 v) m).get key =
        ((OrderedMap.getEntries key es).bind (decode key)).or (m.get key) := by
  induction es generalizing m with
  | nil => rfl
  | cons e es ih =>
      obtain ⟨k, v⟩ := e
      obtain ⟨hk, hes⟩ := List.nodup_cons.mp h
      rw [List.foldl_cons, ih hes, OrderedMap.getEntries]
      by_cases hkey : k = key
      · subst hkey
        rw [if_pos rfl, OrderedMap.getEntries_eq_none.mpr hk]
        cases hdecode : decode k v with
        | none => simp [hdecode]
        | some w => simp [hdecode]
      · rw [if_neg hkey]
        cases hdecode : decode k v with
        | none => rfl
        | some w =>
            dsimp only
            rw [OrderedMap.get_set_ne _ hkey]

theorem get_hydrateMap (decode : String → JsValue → Option ν) {es : JsObject}
    (h : (es.map Prod.fst).Nodup) (key : String) :
    (hydrateMap decode es).get key = (OrderedMap.getEntries key es).bind (decode key) :=
  (get_foldl_decode decode h _ key).trans (Option.or_none)

/-- **What is read at a key is what its value decodes to**, once it has been through JSON. -/
theorem get_hydrate_mapToJs (toJs : ν → JsValue) (decode : String → JsValue → Option ν)
    (m : OrderedMap String ν) (key : String) :
    (hydrateMap decode (jsonCopyMembers (mapToJs toJs m))).get key =
      (m.get key).bind fun v => (jsonCopy? (toJs v)).bind (decode key) := by
  have hkeys : ((m.entries.map fun e => (e.1, toJs e.2)).map Prod.fst).Nodup := by
    simpa [Function.comp_def] using m.nodup
  have hobject := nodup_fromEntries hkeys
  have hget : OrderedMap.getEntries key (m.entries.map fun e => (e.1, toJs e.2)) =
      (m.get key).map toJs := by
    show _ = (OrderedMap.getEntries key m.entries).map toJs
    induction m.entries with
    | nil => rfl
    | cons e es ih =>
        rw [List.map_cons, OrderedMap.getEntries, OrderedMap.getEntries, ih]
        split <;> rfl
  unfold mapToJs
  rw [get_hydrateMap _ ((jsonCopyMembers_keys _).nodup hobject),
    getEntries_jsonCopyMembers key hobject, getEntries_fromEntries hkeys, hget]
  cases m.get key <;> rfl

end

end MapProtocol
