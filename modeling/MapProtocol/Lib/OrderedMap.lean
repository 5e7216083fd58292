import Mathlib.Algebra.Ring.Nat
import Mathlib.Data.List.Nodup
import Mathlib.Data.List.Lookmap

/-!
# Insertion-ordered maps

`OrderedMap κ ν` is the map of a language whose maps remember the order in which their keys came:
`set` on a present key replaces the value where it stands, `set` on a new key appends it, `delete`
removes the entry, and iteration follows insertion order. The entries carry the proof that no key
occurs twice, so every lookup is exact.
-/

namespace MapProtocol

/-- An insertion-ordered map: its entries in order, no key twice. -/
structure OrderedMap (κ : Type*) (ν : Type*) where
  entries : List (κ × ν)
  nodup   : (entries.map Prod.fst).Nodup

namespace OrderedMap

variable {κ ν : Type*} [DecidableEq κ]
variable {v : ν} {es : List (κ × ν)} {k : κ} {m : OrderedMap κ ν}

/-- Replace the value at `k` where it stands, or append the entry. -/
def setEntries (k : κ) (v : ν) : List (κ × ν) → List (κ × ν)
  | []           => [(k, v)]
  | (a, b) :: es => if a = k then (k, v) :: es else (a, b) :: setEntries k v es

/-- The value at `k` in a list of entries. -/
def getEntries (k : κ) : List (κ × ν) → Option ν
  | []           => none
  | (a, b) :: es => if a = k then some b else getEntries k es

/-- Drop the entry at `k`. -/
def deleteEntries (k : κ) : List (κ × ν) → List (κ × ν)
  | []           => []
  | (a, b) :: es => if a = k then es else (a, b) :: deleteEntries k es

theorem mem_keys_setEntries {k a : κ} :
    a ∈ (setEntries k v es).map Prod.fst ↔ a = k ∨ a ∈ es.map Prod.fst := by
  induction es with
  | nil => simp [setEntries]
  | cons e es ih =>
      obtain ⟨b, w⟩ := e
      by_cases hb : b = k
      · simp [setEntries, hb]
      · simp only [setEntries, hb, if_false, List.map_cons, List.mem_cons, ih]
        tauto

theorem nodup_setEntries (k : κ) (v : ν) (h : (es.map Prod.fst).Nodup) :
    ((setEntries k v es).map Prod.fst).Nodup := by
  induction es with
  | nil => simp [setEntries]
  | cons e es ih =>
      obtain ⟨b, w⟩ := e
      simp only [List.map_cons, List.nodup_cons] at h
      by_cases hb : b = k
      · subst hb
        simpa [setEntries] using h
      · simp only [setEntries, hb, if_false, List.map_cons, List.nodup_cons]
        refine ⟨fun hmem => ?_, ih h.2⟩
        rcases mem_keys_setEntries.mp hmem with hk | hk
        · exact hb hk
        · exact h.1 hk

theorem deleteEntries_sublist (k : κ) (es : List (κ × ν)) :
    (deleteEntries k es).Sublist es := by
  induction es with
  | nil => exact List.Sublist.refl _
  | cons e es ih =>
      obtain ⟨b, w⟩ := e
      by_cases hb : b = k
      · simp [deleteEntries, hb]
      · simpa [deleteEntries, hb] using ih

theorem nodup_deleteEntries (k : κ) (h : (es.map Prod.fst).Nodup) :
    ((deleteEntries k es).map Prod.fst).Nodup :=
  ((deleteEntries_sublist k es).map Prod.fst).nodup h

def empty : OrderedMap κ ν := ⟨[], List.nodup_nil⟩

instance : Inhabited (OrderedMap κ ν) := ⟨empty⟩

/-- The value stored at `k`. -/
def get (m : OrderedMap κ ν) (k : κ) : Option ν := getEntries k m.entries

/-- Store `v` at `k`. -/
def set (m : OrderedMap κ ν) (k : κ) (v : ν) : OrderedMap κ ν :=
  ⟨setEntries k v m.entries, nodup_setEntries k v m.nodup⟩

/-- Remove the entry at `k`. -/
def delete (m : OrderedMap κ ν) (k : κ) : OrderedMap κ ν :=
  ⟨deleteEntries k m.entries, nodup_deleteEntries k m.nodup⟩

/-- The stored values, in insertion order. -/
def values (m : OrderedMap κ ν) : List ν := m.entries.map Prod.snd

omit [DecidableEq κ] in
theorem ext {m n : OrderedMap κ ν} (h : m.entries = n.entries) : m = n := by
  cases m; cases n; simp_all

@[simp] theorem get_empty (k : κ) : (empty : OrderedMap κ ν).get k = none := rfl

omit [DecidableEq κ] in
@[simp] theorem values_empty : (empty : OrderedMap κ ν).values = [] := rfl

theorem getEntries_setEntries (k a : κ) (v : ν) (es : List (κ × ν)) :
    getEntries a (setEntries k v es) = if k = a then some v else getEntries a es := by
  induction es with
  | nil => simp [setEntries, getEntries]
  | cons e es ih =>
      obtain ⟨b, w⟩ := e
      by_cases hb : b = k
      · subst hb
        by_cases ha : b = a <;> simp [setEntries, getEntries, ha]
      · simp only [setEntries, hb, if_false, getEntries, ih]
        by_cases ha : b = a
        · subst ha
          simp [Ne.symm hb]
        · simp [ha]

theorem get_set (m : OrderedMap κ ν) (k a : κ) (v : ν) :
    (m.set k v).get a = if k = a then some v else m.get a :=
  getEntries_setEntries k a v m.entries

/-- Storing what is stored changes nothing, the order included. -/
theorem setEntries_self (h : getEntries k es = some v) :
    setEntries k v es = es := by
  induction es with
  | nil => cases h
  | cons e es ih =>
      obtain ⟨b, w⟩ := e
      by_cases hb : b = k
      · simp only [getEntries, hb, if_true, Option.some.injEq] at h
        simp [setEntries, hb, h]
      · simp only [getEntries, hb, if_false] at h
        simp [setEntries, hb, ih h]

theorem set_self (h : m.get k = some v) : m.set k v = m :=
  ext (setEntries_self h)

@[simp] theorem get_set_self (m : OrderedMap κ ν) (k : κ) (v : ν) :
    (m.set k v).get k = some v := by simp [get_set]

theorem get_set_ne (m : OrderedMap κ ν) {k a : κ} (h : k ≠ a) (v : ν) :
    (m.set k v).get a = m.get a := by simp [get_set, h]

theorem getEntries_eq_none :
    getEntries k es = none ↔ k ∉ es.map Prod.fst := by
  induction es with
  | nil => simp [getEntries]
  | cons e es ih =>
      obtain ⟨b, w⟩ := e
      by_cases hb : b = k
      · simp [getEntries, hb]
      · simp [getEntries, hb, ih, Ne.symm hb]

theorem isSome_get_iff :
    (m.get k).isSome = true ↔ k ∈ m.entries.map Prod.fst := by
  rw [Option.isSome_iff_ne_none, get, ne_eq, getEntries_eq_none, not_not]

theorem getEntries_deleteEntries (k a : κ) (h : (es.map Prod.fst).Nodup) :
    getEntries a (deleteEntries k es) = if k = a then none else getEntries a es := by
  induction es with
  | nil => simp [deleteEntries, getEntries]
  | cons e es ih =>
      obtain ⟨b, w⟩ := e
      simp only [List.map_cons, List.nodup_cons] at h
      by_cases hb : b = k
      · subst hb
        by_cases ha : b = a
        · subst ha
          simpa [deleteEntries] using getEntries_eq_none.mpr h.1
        · simp [deleteEntries, getEntries, ha]
      · simp only [deleteEntries, hb, if_false, getEntries, ih h.2]
        by_cases ha : b = a
        · subst ha
          simp [Ne.symm hb]
        · simp [ha]

theorem get_delete (m : OrderedMap κ ν) (k a : κ) :
    (m.delete k).get a = if k = a then none else m.get a :=
  getEntries_deleteEntries k a m.nodup

/-- What a map holds after many `set`s was set, or was there before. -/
theorem get_foldl_set (h : (es.foldl (fun m e => m.set e.1 e.2) m).get k = some v) :
    (k, v) ∈ es ∨ m.get k = some v := by
  induction es generalizing m with
  | nil => exact .inr h
  | cons e es ih =>
      rcases ih h with hmem | hget
      · exact .inl (List.mem_cons_of_mem _ hmem)
      · rw [get_set] at hget
        split at hget
        · rename_i hk
          cases hget
          exact .inl (hk ▸ List.mem_cons_self)
        · exact .inr hget

theorem getEntries_eq_some (h : (es.map Prod.fst).Nodup) :
    getEntries k es = some v ↔ (k, v) ∈ es := by
  induction es with
  | nil => simp [getEntries]
  | cons e es ih =>
      obtain ⟨b, w⟩ := e
      simp only [List.map_cons, List.nodup_cons] at h
      by_cases hb : b = k
      · subst hb
        have habsent : ∀ u, (b, u) ∉ es := fun u hu => h.1 (List.mem_map.mpr ⟨_, hu, rfl⟩)
        simp [getEntries, habsent, eq_comm]
      · simp [getEntries, hb, ih h.2, Ne.symm hb]

theorem get_eq_some :
    m.get k = some v ↔ (k, v) ∈ m.entries := getEntries_eq_some m.nodup

/-- A stored value is stored at some key, and conversely. -/
theorem mem_values : v ∈ m.values ↔ ∃ k, m.get k = some v := by
  simp [values, get_eq_some]

/-- What is stored after a `set` is the value set, or was stored before. -/
theorem mem_values_set {v u : ν} (h : u ∈ (m.set k v).values) :
    u = v ∨ u ∈ m.values := by
  obtain ⟨a, ha⟩ := mem_values.mp h
  rw [get_set] at ha
  split at ha
  · exact .inl (Option.some.inj ha).symm
  · exact .inr (mem_values.mpr ⟨a, ha⟩)

/-- A `delete` stores nothing new. -/
theorem mem_values_delete {u : ν} (h : u ∈ (m.delete k).values) :
    u ∈ m.values := by
  obtain ⟨a, ha⟩ := mem_values.mp h
  rw [get_delete] at ha
  split at ha
  · cases ha
  · exact mem_values.mpr ⟨a, ha⟩

/-! ## Sums of stored numbers -/

theorem sum_setEntries (k : κ) (v : Nat) (es : List (κ × Nat)) :
    ((setEntries k v es).map Prod.snd).sum + (getEntries k es).getD 0 =
      (es.map Prod.snd).sum + v := by
  induction es with
  | nil => simp [setEntries, getEntries]
  | cons e es ih =>
      obtain ⟨b, w⟩ := e
      by_cases hb : b = k
      · simp [setEntries, getEntries, hb]
        omega
      · simp only [setEntries, getEntries, hb, if_false, List.map_cons, List.sum_cons]
        omega

theorem sum_deleteEntries (k : κ) (es : List (κ × Nat)) :
    ((deleteEntries k es).map Prod.snd).sum + (getEntries k es).getD 0 =
      (es.map Prod.snd).sum := by
  induction es with
  | nil => simp [deleteEntries, getEntries]
  | cons e es ih =>
      obtain ⟨b, w⟩ := e
      by_cases hb : b = k
      · simp [deleteEntries, getEntries, hb]
        omega
      · simp only [deleteEntries, getEntries, hb, if_false, List.map_cons, List.sum_cons]
        omega

theorem sum_set (m : OrderedMap κ Nat) (k : κ) (v : Nat) :
    (m.set k v).values.sum + (m.get k).getD 0 = m.values.sum + v :=
  sum_setEntries k v m.entries

theorem sum_delete (m : OrderedMap κ Nat) (k : κ) :
    (m.delete k).values.sum + (m.get k).getD 0 = m.values.sum :=
  sum_deleteEntries k m.entries

/-! ## The order of the entries -/

/-- A key that is new goes to the end. -/
theorem setEntries_of_get_none (h : getEntries k es = none) :
    setEntries k v es = es ++ [(k, v)] := by
  induction es with
  | nil => rfl
  | cons e es ih =>
      obtain ⟨b, w⟩ := e
      by_cases hb : b = k
      · simp [getEntries, hb] at h
      · simp only [getEntries, hb, if_false] at h
        simp [setEntries, hb, ih h]

theorem values_set_of_get_none (h : m.get k = none) :
    (m.set k v).values = m.values ++ [v] := by
  simp [values, set, setEntries_of_get_none h]

/-- Looking the keys up in order gives the stored values. -/
theorem filterMap_get_keys (m : OrderedMap κ ν) :
    (m.entries.map Prod.fst).filterMap m.get = m.values := by
  rw [List.filterMap_map, values, ← List.filterMap_eq_map]
  refine List.filterMap_congr fun e he => ?_
  exact get_eq_some.mpr he

/-- Removing the entry that was just appended restores the map. -/
theorem delete_set_of_get_none (h : m.get k = none) :
    (m.set k v).delete k = m := by
  apply ext
  show deleteEntries k (setEntries k v m.entries) = m.entries
  rw [setEntries_of_get_none h]
  have hk : getEntries k m.entries = none := h
  generalize m.entries = es at hk ⊢
  induction es with
  | nil => simp [deleteEntries]
  | cons e es ih =>
      obtain ⟨b, w⟩ := e
      by_cases hb : b = k
      · simp [getEntries, hb] at hk
      · simp only [getEntries, hb, if_false] at hk
        simp [deleteEntries, hb, ih hk]

/-! ## Entries up to their order -/

theorem keys_setEntries (k : κ) (v : ν) (es : List (κ × ν)) :
    (setEntries k v es).map Prod.fst =
      if k ∈ es.map Prod.fst then es.map Prod.fst else es.map Prod.fst ++ [k] := by
  induction es with
  | nil => rfl
  | cons e es ih =>
      obtain ⟨a, b⟩ := e
      by_cases ha : a = k
      · simp [setEntries, ha]
      · rw [setEntries, if_neg ha, List.map_cons, ih, List.map_cons]
        by_cases hk : k ∈ es.map Prod.fst
        · rw [if_pos hk, if_pos (List.mem_cons_of_mem _ hk)]
        · rw [if_neg hk, if_neg (List.not_mem_cons_of_ne_of_not_mem (Ne.symm ha) hk),
            List.cons_append]

theorem keys_deleteEntries (k : κ) (es : List (κ × ν)) :
    (deleteEntries k es).map Prod.fst = (es.map Prod.fst).erase k := by
  induction es with
  | nil => rfl
  | cons e es ih =>
      obtain ⟨a, b⟩ := e
      by_cases ha : a = k
      · simp [deleteEntries, ha]
      · rw [deleteEntries, if_neg ha, List.map_cons, ih, List.map_cons,
          List.erase_cons_tail (by simpa using ha)]

theorem length_set (m : OrderedMap κ ν) (k : κ) (v : ν) : (m.set k v).entries.length =
    if m.get k = none then m.entries.length + 1 else m.entries.length := by
  have hkeys := congrArg List.length (keys_setEntries k v m.entries)
  rw [List.length_map] at hkeys
  show (setEntries k v m.entries).length = if getEntries k m.entries = none then _ else _
  rw [hkeys]
  by_cases hk : k ∈ m.entries.map Prod.fst
  · rw [if_pos hk, if_neg (fun hnone => getEntries_eq_none.mp hnone hk), List.length_map]
  · rw [if_neg hk, if_pos (getEntries_eq_none.mpr hk), List.length_append, List.length_map,
      List.length_singleton]

/-- A map of at most `n` keys stays so, unless it has them all and gets another. -/
theorem length_set_le {n : Nat} (hwithin : m.entries.length ≤ n)
    (hroom : ¬ (m.get k = none ∧ m.entries.length = n)) (v : ν) :
    (m.set k v).entries.length ≤ n := by
  rw [length_set]
  split
  · rename_i hnew
    have hne : m.entries.length ≠ n := fun hfull => hroom ⟨hnew, hfull⟩
    omega
  · exact hwithin

theorem length_delete (h : m.get k ≠ none) :
    (m.delete k).entries.length + 1 = m.entries.length := by
  have hk : k ∈ m.entries.map Prod.fst := isSome_get_iff.mp (Option.isSome_iff_ne_none.mpr h)
  have hkeys := congrArg List.length (keys_deleteEntries k m.entries)
  rw [List.length_map, List.length_erase_of_mem hk, List.length_map] at hkeys
  have hpos := List.length_pos_of_mem hk
  rw [List.length_map] at hpos
  show (deleteEntries k m.entries).length + 1 = _
  omega

theorem filter_of_notMem (h : k ∉ es.map Prod.fst) :
    es.filter (fun e => e.1 ≠ k) = es := by
  rw [List.filter_eq_self]
  intro e he
  refine decide_eq_true ?_
  rintro rfl
  exact h (List.mem_map_of_mem he)

theorem deleteEntries_eq_filter (h : (es.map Prod.fst).Nodup) :
    deleteEntries k es = es.filter fun e => e.1 ≠ k := by
  induction es with
  | nil => rfl
  | cons e es ih =>
      obtain ⟨a, b⟩ := e
      obtain ⟨ha, hes⟩ := List.nodup_cons.mp h
      by_cases hak : a = k
      · subst hak
        rw [deleteEntries, if_pos rfl, List.filter_cons_of_neg (by simp), filter_of_notMem ha]
      · rw [deleteEntries, if_neg hak, List.filter_cons_of_pos (by simpa using hak), ih hes]

/-- After a write the entry stands beside those of the other keys. -/
theorem setEntries_perm (k : κ) (v : ν) (h : (es.map Prod.fst).Nodup) :
    (setEntries k v es).Perm ((k, v) :: es.filter fun e => e.1 ≠ k) := by
  induction es with
  | nil => exact List.Perm.refl _
  | cons e es ih =>
      obtain ⟨a, b⟩ := e
      obtain ⟨ha, hes⟩ := List.nodup_cons.mp h
      by_cases hak : a = k
      · subst hak
        rw [setEntries, if_pos rfl, List.filter_cons_of_neg (by simp), filter_of_notMem ha]
      · rw [setEntries, if_neg hak, List.filter_cons_of_pos (by simpa using hak)]
        exact ((ih hes).cons (a, b)).trans (List.Perm.swap _ _ _)

/-- Two maps have the same entries exactly if they store the same at each key. -/
theorem perm_iff_get {m n : OrderedMap κ ν} :
    m.entries.Perm n.entries ↔ ∀ k, m.get k = n.get k := by
  rw [List.perm_ext_iff_of_nodup (List.Nodup.of_map _ m.nodup) (List.Nodup.of_map _ n.nodup)]
  constructor
  · intro h k
    apply Option.ext
    intro v
    rw [get_eq_some, get_eq_some]
    exact h (k, v)
  · rintro h ⟨k, v⟩
    rw [← get_eq_some, ← get_eq_some, h k]

/-- Many `set`s at different keys: each key holds what was set there, or what it held before. -/
theorem get_foldl_set_of_nodup (h : (es.map Prod.fst).Nodup) (m : OrderedMap κ ν) (k : κ) :
    (es.foldl (fun m e => m.set e.1 e.2) m).get k = (getEntries k es).or (m.get k) := by
  induction es generalizing m with
  | nil => rfl
  | cons e es ih =>
      obtain ⟨a, v⟩ := e
      obtain ⟨ha, hes⟩ := List.nodup_cons.mp h
      rw [List.foldl_cons, ih hes, get_set, getEntries]
      by_cases hak : a = k
      · subst hak
        rw [if_pos rfl, if_pos rfl, getEntries_eq_none.mpr ha]
        rfl
      · rw [if_neg hak, if_neg hak]

/-! ## Restriction -/

/-- The entries whose value meets `p`, in the order of the map. -/
def filter (p : ν → Bool) (m : OrderedMap κ ν) : OrderedMap κ ν :=
  ⟨m.entries.filter fun e => p e.2, (List.filter_sublist.map Prod.fst).nodup m.nodup⟩

theorem get_filter (p : ν → Bool) (m : OrderedMap κ ν) (k : κ) :
    (m.filter p).get k = (m.get k).filter p := by
  apply Option.ext
  intro v
  rw [get_eq_some]
  show (k, v) ∈ m.entries.filter _ ↔ _
  rw [List.mem_filter, ← get_eq_some, Option.filter_eq_some_iff]

omit [DecidableEq κ] in
theorem values_filter (p : ν → Bool) (m : OrderedMap κ ν) :
    (m.filter p).values = m.values.filter p := by
  show (m.entries.filter _).map Prod.snd = _
  unfold values
  rw [List.filter_map]
  rfl

/-- A write among the values that meet `p` is one to the restriction. -/
theorem filter_set_of_pos {p : ν → Bool} (hv : p v = true)
    (hold : ∀ u, m.get k = some u → p u = true) : (m.set k v).filter p = (m.filter p).set k v := by
  apply ext
  show (setEntries k v m.entries).filter _ = setEntries k v (m.entries.filter _)
  replace hold : ∀ u, getEntries k m.entries = some u → p u = true := hold
  generalize m.entries = es at hold
  induction es with
  | nil => simp [setEntries, hv]
  | cons e es ih =>
      obtain ⟨a, u⟩ := e
      by_cases ha : a = k
      · have hu : p u = true := hold u (by simp [getEntries, ha])
        simp [setEntries, ha, hv, hu]
      · rw [getEntries, if_neg ha] at hold
        rw [setEntries, if_neg ha, List.filter_cons, List.filter_cons, ih hold]
        split
        · rw [setEntries, if_neg ha]
        · rfl

/-- A write outside the values that meet `p` leaves the restriction. -/
theorem filter_set_of_neg {p : ν → Bool} (hv : p v = false)
    (hold : ∀ u, m.get k = some u → p u = false) : (m.set k v).filter p = m.filter p := by
  apply ext
  show (setEntries k v m.entries).filter _ = m.entries.filter _
  replace hold : ∀ u, getEntries k m.entries = some u → p u = false := hold
  generalize m.entries = es at hold
  induction es with
  | nil => simp [setEntries, hv]
  | cons e es ih =>
      obtain ⟨a, u⟩ := e
      by_cases ha : a = k
      · have hu : p u = false := hold u (by simp [getEntries, ha])
        simp [setEntries, ha, hv, hu]
      · rw [getEntries, if_neg ha] at hold
        rw [setEntries, if_neg ha, List.filter_cons, List.filter_cons, ih hold]

/-! ## Mapped values -/

/-- The map with `f` applied to each value. -/
def mapValues (f : ν → ν) (m : OrderedMap κ ν) : OrderedMap κ ν :=
  ⟨m.entries.map fun e => (e.1, f e.2), by simpa [Function.comp_def] using m.nodup⟩

@[simp] theorem get_mapValues (f : ν → ν) (m : OrderedMap κ ν) (k : κ) :
    (m.mapValues f).get k = (m.get k).map f := by
  show getEntries k (m.entries.map fun e => (e.1, f e.2)) = (getEntries k m.entries).map f
  induction m.entries with
  | nil => rfl
  | cons e es ih =>
      rw [List.map_cons, getEntries, getEntries, ih]
      split <;> rfl

end OrderedMap

end MapProtocol
