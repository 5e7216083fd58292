import MapProtocol.Lib.FirstMatch
import MapProtocol.Lib.OrderedMap

/-!
# An index of the latest records

Records are kept under keys, and beside them an index has one key for each group of records. A write
of a record names its key for its group, and removing a record removes what the index has for its
group. The index is right as long as it names the record of each group that was written last, of
those that are kept (`Indexed`). It stays right under a write exactly if the record that is
overwritten is not one that the index names for another group (`indexed_put`), and under a removal
exactly if the group has no other record (`indexed_drop`).
-/

namespace MapProtocol

/-- The records, the index, and what was written, the latest first. -/
structure Shelf (κ τ ρ : Type) where
  records : OrderedMap κ ρ
  index   : OrderedMap τ κ
  written : List (κ × ρ)

namespace Shelf

variable {κ τ ρ : Type} [DecidableEq κ] [DecidableEq τ] (group : ρ → Option τ)

/-- Write a record, and name it for its group. -/
def put (s : Shelf κ τ ρ) (k : κ) (r : ρ) : Shelf κ τ ρ where
  records := s.records.set k r
  index   := match group r with
    | some t => s.index.set t k
    | none   => s.index
  written := (k, r) :: s.written

/-- Remove a record, and what the index has for its group. -/
def drop (s : Shelf κ τ ρ) (k : κ) : Shelf κ τ ρ where
  records := s.records.delete k
  index   := match (s.records.get k).bind group with
    | some t => s.index.delete t
    | none   => s.index
  written := s.written

/-- The write of a record of the group that is still kept. -/
def Standing (s : Shelf κ τ ρ) (t : τ) (e : κ × ρ) : Prop :=
  s.records.get e.1 = some e.2 ∧ group e.2 = some t

/-- Of the records of the group that are kept, the one that was written last. -/
def Latest (s : Shelf κ τ ρ) (t : τ) (e : Option (κ × ρ)) : Prop :=
  FirstMatch (s.Standing group t) s.written e

/-- A search by group finds the record that was written last, and nothing only where there is none. -/
structure Finds (s : Shelf κ τ ρ) (find : τ → Option ρ) : Prop where
  latest  : ∀ t r, find t = some r → ∃ k, s.Latest group t (some (k, r))
  missing : ∀ t, find t = none → ∀ k r, s.records.get k = some r → group r ≠ some t

structure Indexed (s : Shelf κ τ ρ) : Prop where
  written : ∀ k r, s.records.get k = some r → (k, r) ∈ s.written
  names   : ∀ t, ∃ e, s.Latest group t e ∧ s.index.get t = e.map Prod.fst

/-- The record under the key is the latest of no group that `r` is not of. -/
def Replaceable (s : Shelf κ τ ρ) (k : κ) (r : ρ) : Prop :=
  ∀ old t, s.records.get k = some old → group old = some t → group r ≠ some t →
    ¬ s.Latest group t (some (k, old))

/-- No other record is of the group of the record under the key. -/
def Alone (records : OrderedMap κ ρ) (k : κ) : Prop :=
  ∀ r t, records.get k = some r → group r = some t →
    ∀ l other, l ≠ k → records.get l = some other → group other ≠ some t

/-- The search through the index. -/
def lookup (s : Shelf κ τ ρ) (t : τ) : Option ρ := (s.index.get t).bind s.records.get

variable {group} {s : Shelf κ τ ρ} {k : κ} {r : ρ} {t : τ}

omit [DecidableEq τ] in
/-- What is found is of the group. -/
theorem Finds.group_eq {find : τ → Option ρ} (h : s.Finds group find) (hfind : find t = some r) :
    group r = some t := by
  obtain ⟨k, hlatest⟩ := h.latest t r hfind
  exact (FirstMatch.holds hlatest).2

/-- **An index that is right finds the latest records.** -/
theorem Indexed.finds (h : s.Indexed group) : s.Finds group s.lookup := by
  constructor
  · intro t r hfind
    obtain ⟨e, hlatest, hindex⟩ := h.names t
    obtain ⟨k, hk, hr⟩ := Option.bind_eq_some_iff.mp hfind
    rw [hindex] at hk
    obtain ⟨⟨k', r'⟩, rfl, rfl⟩ := Option.map_eq_some_iff.mp hk
    have hstands : s.records.get k' = some r' := (FirstMatch.holds hlatest).1
    rw [hstands] at hr
    cases hr
    exact ⟨k', hlatest⟩
  · intro t hfind k r hr hgroup
    obtain ⟨e, hlatest, hindex⟩ := h.names t
    cases e with
    | none => exact FirstMatch.none_iff.mp hlatest (k, r) (h.written k r hr) ⟨hr, hgroup⟩
    | some e =>
        have hstands := (FirstMatch.holds hlatest).1
        unfold lookup at hfind
        rw [hindex, Option.map_some, Option.bind_some, hstands] at hfind
        cases hfind

theorem indexed_of_empty (hrecords : ∀ k, s.records.get k = none)
    (hindex : ∀ t, s.index.get t = none) : s.Indexed group := by
  constructor
  · intro k r h
    rw [hrecords] at h
    cases h
  · intro t
    refine ⟨none, FirstMatch.none_iff.mpr fun e _ he => ?_, hindex t⟩
    have hget := he.1
    rw [hrecords] at hget
    cases hget

/-- Only records that are kept are named. -/
theorem Indexed.kept (h : s.Indexed group) (hindex : s.index.get t = some k) :
    ∃ r, s.records.get k = some r ∧ group r = some t := by
  obtain ⟨e, hlatest, he⟩ := h.names t
  rw [hindex] at he
  obtain ⟨⟨l, r⟩, rfl, hl⟩ := Option.map_eq_some_iff.mp he.symm
  have hstands : s.Standing group t (l, r) := FirstMatch.holds hlatest
  cases hl
  exact ⟨r, hstands⟩

/-! ## Writing -/

theorem written_put (h : ∀ k r, s.records.get k = some r → (k, r) ∈ s.written) :
    ∀ l u, (s.put group k r).records.get l = some u → (l, u) ∈ (s.put group k r).written := by
  intro l u hget
  show (l, u) ∈ (k, r) :: s.written
  have hset : (s.records.set k r).get l = some u := hget
  rw [OrderedMap.get_set] at hset
  split at hset
  · rename_i hk
    cases hset
    rw [hk]
    exact List.mem_cons_self ..
  · exact List.mem_cons_of_mem _ (h l u hset)

/-- A record is written over no other, in a group that it is not of. -/
theorem standing_of_put (hr : group r ≠ some t) {e : κ × ρ}
    (h : (s.put group k r).Standing group t e) : e.1 ≠ k ∧ s.Standing group t e := by
  obtain ⟨hget, hgroup⟩ := h
  have hset : (s.records.set k r).get e.1 = some e.2 := hget
  rw [OrderedMap.get_set] at hset
  split at hset
  · cases hset
    exact absurd hgroup hr
  · rename_i hk
    exact ⟨Ne.symm hk, hset, hgroup⟩

theorem standing_put {e : κ × ρ} (hk : e.1 ≠ k) (h : s.Standing group t e) :
    (s.put group k r).Standing group t e := by
  refine ⟨?_, h.2⟩
  show (s.records.set k r).get e.1 = some e.2
  rw [OrderedMap.get_set_ne _ (Ne.symm hk)]
  exact h.1

theorem index_put (t : τ) : (s.put group k r).index.get t =
    if group r = some t then some k else s.index.get t := by
  show (match group r with | some t => s.index.set t k | none => s.index).get t = _
  cases hgroup : group r with
  | none => simp
  | some u => simp [OrderedMap.get_set]

/-- The latest record of another group stays the latest. -/
theorem latest_put (hr : group r ≠ some t) {e : Option (κ × ρ)} (hlatest : s.Latest group t e)
    (hkept : ∀ x, e = some x → x.1 ≠ k) : (s.put group k r).Latest group t e := by
  refine .later (fun h => hr h.2) ?_
  refine FirstMatch.narrow (fun x _ hx => (standing_of_put hr hx).2) hlatest fun x hx => ?_
  subst hx
  exact standing_put (hkept x rfl) (FirstMatch.holds hlatest)

theorem indexed_put (h : s.Indexed group) (hover : s.Replaceable group k r) :
    (s.put group k r).Indexed group := by
  refine ⟨written_put h.written, fun t => ?_⟩
  by_cases hr : group r = some t
  · refine ⟨some (k, r), .here ⟨?_, hr⟩, ?_⟩
    · show (s.records.set k r).get k = some r
      exact OrderedMap.get_set_self ..
    · rw [index_put, if_pos hr]
      rfl
  · obtain ⟨e, hlatest, hindex⟩ := h.names t
    refine ⟨e, latest_put hr hlatest ?_, by rw [index_put, if_neg hr, hindex]⟩
    rintro ⟨l, old⟩ rfl hl
    cases hl
    obtain ⟨hold, hgroup⟩ := FirstMatch.holds hlatest
    exact hover old t hold hgroup hr hlatest

/-- A search that finds the latest records after a write has not lost the one that was overwritten. -/
theorem replaceable_of_finds (h : s.Indexed group)
    (hfinds : (s.put group k r).Finds group (s.put group k r).lookup) :
    s.Replaceable group k r := by
  intro old t hold hgroup hr hlatest
  obtain ⟨e, he, hindex⟩ := h.names t
  obtain rfl := FirstMatch.unique he hlatest
  have hfound : (s.put group k r).lookup t = some r := by
    show ((s.put group k r).index.get t).bind (s.records.set k r).get = some r
    rw [index_put, if_neg hr, hindex]
    exact OrderedMap.get_set_self ..
  exact hr (hfinds.group_eq hfound)

/-! ## Removing -/

theorem standing_drop {e : κ × ρ} :
    (s.drop group k).Standing group t e ↔ e.1 ≠ k ∧ s.Standing group t e := by
  unfold Standing
  show (s.records.delete k).get e.1 = some e.2 ∧ _ ↔ _
  rw [OrderedMap.get_delete]
  by_cases hk : k = e.1
  · simp [hk]
  · rw [if_neg hk]
    simp [Ne.symm hk]

theorem index_drop (t : τ) : (s.drop group k).index.get t =
    if (s.records.get k).bind group = some t then none else s.index.get t := by
  show (match (s.records.get k).bind group with
    | some t => s.index.delete t | none => s.index).get t = _
  cases hgroup : (s.records.get k).bind group with
  | none => simp
  | some u => simp [OrderedMap.get_delete]

theorem indexed_drop (h : s.Indexed group) (halone : Alone group s.records k) :
    (s.drop group k).Indexed group := by
  constructor
  · intro l u hget
    have hdelete : (s.records.delete k).get l = some u := hget
    rw [OrderedMap.get_delete] at hdelete
    split at hdelete
    · cases hdelete
    · exact h.written l u hdelete
  · intro t
    by_cases hgroup : (s.records.get k).bind group = some t
    · refine ⟨none, FirstMatch.none_iff.mpr fun x _ hx => ?_, by rw [index_drop, if_pos hgroup]; rfl⟩
      obtain ⟨old, hold, ht⟩ := Option.bind_eq_some_iff.mp hgroup
      obtain ⟨hne, hstands⟩ := standing_drop.mp hx
      exact halone old t hold ht x.1 x.2 hne hstands.1 hstands.2
    · obtain ⟨e, hlatest, hindex⟩ := h.names t
      refine ⟨e, ?_, by rw [index_drop, if_neg hgroup, hindex]⟩
      refine FirstMatch.narrow (fun x _ hx => (standing_drop.mp hx).2) hlatest fun x hx => ?_
      subst hx
      obtain ⟨hget, ht⟩ := FirstMatch.holds hlatest
      refine standing_drop.mpr ⟨?_, hget, ht⟩
      intro hk
      rw [hk] at hget
      exact hgroup (by rw [hget, Option.bind_some, ht])

/-- A search that finds the latest records after a removal has lost no other record of the group. -/
theorem alone_of_finds (hfinds : (s.drop group k).Finds group (s.drop group k).lookup) :
    Alone group s.records k := by
  intro r t hr hgroup l other hne hother hsame
  have hmissing : (s.drop group k).lookup t = none := by
    unfold lookup
    rw [index_drop, hr, Option.bind_some, if_pos hgroup]
    rfl
  refine hfinds.missing t hmissing l other ?_ hsame
  show (s.records.delete k).get l = some other
  rw [OrderedMap.get_delete, if_neg (Ne.symm hne)]
  exact hother

/-! ## A write within a limit -/

/-- Write a record, and remove the one that has to go, if one has. -/
def putWithin (group : ρ → Option τ) (s : Shelf κ τ ρ) (k : κ) (r : ρ) (gone : Option κ) :
    Shelf κ τ ρ :=
  match gone with
  | some l => (s.put group k r).drop group l
  | none   => s.put group k r

variable {gone : Option κ}

theorem indexed_putWithin (h : s.Indexed group) (hover : s.Replaceable group k r)
    (halone : ∀ l, gone = some l → Alone group (s.records.set k r) l) :
    (s.putWithin group k r gone).Indexed group := by
  have hput := indexed_put h hover
  cases gone with
  | none => exact hput
  | some l => exact indexed_drop hput (halone l rfl)

/-- A record that makes another go is new. -/
theorem keeps_of_finds_putWithin (h : s.Indexed group)
    (hnew : gone ≠ none → s.records.get k = none)
    (hfinds : (s.putWithin group k r gone).Finds group (s.putWithin group k r gone).lookup) :
    s.Replaceable group k r ∧ ∀ l, gone = some l → Alone group (s.records.set k r) l := by
  cases gone with
  | none => exact ⟨replaceable_of_finds h hfinds, nofun⟩
  | some l =>
      refine ⟨fun old t hold => ?_, fun l' heq => ?_⟩
      · exact absurd (hold.symm.trans (hnew (Option.some_ne_none l))) (Option.some_ne_none old)
      · cases heq
        exact alone_of_finds hfinds

end Shelf

end MapProtocol
