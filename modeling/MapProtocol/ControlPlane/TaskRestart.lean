import MapProtocol.ControlPlane.TaskIndex

/-!
# Restarting the task store

A store that is opened again over its backing should hold what it held before. `Mirrors` says that
the backing holds exactly the records of the memory; with a tidy index the reopened store then
answers every lookup as the old one did (`Mirrors.reopened`).

The backings lose different things. The file drops a record with an empty id. The database has no
column for `context_id` and `order_id`, and no statement that deletes a row. Both drop what JSON
does not carry, and neither stores the index, so that a stale key is gone after a restart.
`Survives` is the condition on a call that excludes these.
-/

namespace MapProtocol

open Js

variable {unique : Bool} {table : TaskTable}

/-- JSON gives the result back as it is. -/
def ResultPackage.Plain (result : ResultPackage) : Prop :=
  jsonCopyMembers result.structuredOutput = result.structuredOutput

theorem ResultPackage.Plain.jsonCopy {result : ResultPackage} (h : result.Plain) :
    result.jsonCopy = result := by
  unfold ResultPackage.jsonCopy
  rw [show jsonCopyMembers result.structuredOutput = result.structuredOutput from h]

theorem map_jsonCopy {result : Option ResultPackage} (h : ∀ r ∈ result, r.Plain) :
    result.map ResultPackage.jsonCopy = result := by
  cases result with
  | none => rfl
  | some r => exact congrArg some (h r rfl).jsonCopy

/-- The backing has a place for every field of the record. -/
def TaskBacking.Keeps (backing : TaskBacking) (record : TaskRecord) : Prop :=
  (∀ result ∈ record.result, result.Plain) ∧
    match backing with
    | .memory => False
    | .file _ => record.taskId ≠ ""
    | .db _ _ => record.orderId = none ∧ record.contextId = none

/-! ## The database

An upsert replaces the row of its id, and no row is ever deleted. -/

theorem toRecord_of_toRow {record : TaskRecord} {row : TaskRow} (h : record.toRow = .ok row)
    (hresult : ∀ result ∈ record.result, result.Plain) (horder : record.orderId = none)
    (hcontext : record.contextId = none) : row.toRecord record.taskId = record := by
  obtain ⟨taskId, orderId, contextId, identity, key, capability, agent, status, result, receipt,
    updatedAt⟩ := record
  obtain rfl : orderId = none := horder
  obtain rfl : contextId = none := hcontext
  have hcopy : result.map ResultPackage.jsonCopy = result := map_jsonCopy hresult
  unfold TaskRecord.toRow at h
  cases identity with
  | none => cases h
  | some identity =>
      cases capability with
      | none => cases h
      | some capability =>
          cases agent with
          | none => cases h
          | some agent =>
              cases h
              unfold TaskRow.toRecord
              dsimp only
              rw [hcopy]

theorem get_upsert {table table' : TaskTable} {t : String} {row : TaskRow}
    (h : table.upsert unique t row = .ok table') (a : String) :
    table'.get a = if t = a then some row else table.get a := by
  unfold TaskTable.upsert at h
  simp only [bind_eq_ok, throwIf_eq_ok, pure_eq_ok] at h
  obtain ⟨_, _, rfl⟩ := h
  exact OrderedMap.get_set _ _ _ _

/-- **What the upserts write**: a row for each record, and nothing else. -/
theorem get_upsertAll {records : List TaskRecord} {table table' : TaskTable}
    (h : table.upsertAll unique records = .ok table')
    (hnodup : (records.map TaskRecord.taskId).Nodup) :
    (∀ r ∈ records, ∃ row, r.toRow = .ok row ∧ table'.get r.taskId = some row) ∧
      ∀ t, t ∉ records.map TaskRecord.taskId → table'.get t = table.get t := by
  induction records generalizing table with
  | nil =>
      obtain rfl := Except.ok.inj h
      exact ⟨fun r hr => absurd hr List.not_mem_nil, fun _ _ => rfl⟩
  | cons record records ih =>
      unfold TaskTable.upsertAll at h ih
      rw [List.foldlM_cons] at h
      simp only [bind_eq_ok] at h
      obtain ⟨middle, ⟨row, hrow, hupsert⟩, hrest⟩ := h
      rw [List.map_cons, List.nodup_cons] at hnodup
      obtain ⟨hwritten, hkept⟩ := ih hrest hnodup.2
      have hfirst : table'.get record.taskId = some row := by
        rw [hkept _ hnodup.1, get_upsert hupsert, if_pos rfl]
      refine ⟨fun r hr => ?_, fun t ht => ?_⟩
      · rcases List.mem_cons.mp hr with rfl | hr
        · exact ⟨row, hrow, hfirst⟩
        · exact hwritten r hr
      · rw [List.map_cons, List.mem_cons, not_or] at ht
        rw [hkept t ht.2, get_upsert hupsert, if_neg (Ne.symm ht.1)]

theorem stored_db_ids (unique : Bool) (table : TaskTable) :
    ((TaskBacking.db unique table).stored.map TaskRecord.taskId).Nodup := by
  have hids : (TaskBacking.db unique table).stored.map TaskRecord.taskId =
      table.entries.map Prod.fst := by
    unfold TaskBacking.stored
    rw [List.map_map]
    rfl
  rw [hids]
  exact table.nodup

theorem mem_stored_db {t : String} {r : TaskRecord} :
    r ∈ (TaskBacking.db unique table).stored ∧ r.taskId = t ↔
      ∃ row, table.get t = some row ∧ row.toRecord t = r := by
  unfold TaskBacking.stored
  constructor
  · rintro ⟨hmem, rfl⟩
    obtain ⟨⟨a, row⟩, he, rfl⟩ := List.mem_map.mp hmem
    exact ⟨row, OrderedMap.get_eq_some.mpr he, rfl⟩
  · rintro ⟨row, hget, rfl⟩
    exact ⟨List.mem_map.mpr ⟨(t, row), OrderedMap.get_eq_some.mp hget, rfl⟩, rfl⟩

/-! ## The memory -/

namespace TaskStore

variable {store : TaskStore}

theorem mem_list_iff (hkeyed : ∀ t r, store.get t = some r → r.taskId = t) {t : String}
    {r : TaskRecord} : r ∈ store.list ∧ r.taskId = t ↔ store.get t = some r := by
  constructor
  · rintro ⟨hmem, rfl⟩
    obtain ⟨a, ha⟩ := OrderedMap.mem_values.mp hmem
    rw [hkeyed a r ha]
    exact ha
  · intro hr
    exact ⟨OrderedMap.mem_values.mpr ⟨t, hr⟩, hkeyed t r hr⟩

theorem list_ids_nodup (hkeyed : ∀ t r, store.get t = some r → r.taskId = t) :
    (store.list.map TaskRecord.taskId).Nodup := by
  have hids : store.list.map TaskRecord.taskId = store.tasks.entries.map Prod.fst := by
    unfold list OrderedMap.values
    rw [List.map_map]
    refine List.map_congr_left fun e he => ?_
    exact hkeyed e.1 e.2 (OrderedMap.get_eq_some.mpr he)
  rw [hids]
  exact store.tasks.nodup

theorem Tidy.mem_list (h : Tidy store) {t : String} {r : TaskRecord} :
    r ∈ store.list ∧ r.taskId = t ↔ store.get t = some r := mem_list_iff h.keyed

theorem Tidy.list_ids (h : Tidy store) : (store.list.map TaskRecord.taskId).Nodup :=
  list_ids_nodup h.keyed

/-- **A store opened over the copies of its records** holds the copies. -/
theorem hydrate_copies (hkeyed : ∀ t r, store.get t = some r → r.taskId = t)
    {backing : TaskBacking} (hstored : backing.stored = store.list.map TaskRecord.jsonCopy)
    (t : String) : backing.hydrate.get t = (store.get t).map TaskRecord.jsonCopy := by
  have hids : (backing.stored.map TaskRecord.taskId).Nodup := by
    rw [hstored, List.map_map]
    exact list_ids_nodup hkeyed
  refine Option.ext fun r => (get_foldl_insert hids t r).trans ?_
  rw [hstored, Option.map_eq_some_iff]
  constructor
  · rintro ⟨hmem, hid⟩
    obtain ⟨record, hrecord, rfl⟩ := List.mem_map.mp hmem
    exact ⟨record, (mem_list_iff hkeyed).mp ⟨hrecord, hid⟩, rfl⟩
  · rintro ⟨record, hget, rfl⟩
    obtain ⟨hmem, hid⟩ := (mem_list_iff hkeyed).mpr hget
    exact ⟨List.mem_map_of_mem hmem, hid⟩

theorem Tidy.soundContent (h : Tidy store) {records : List TaskRecord}
    (hids : (records.map TaskRecord.taskId).Nodup)
    (hheld : ∀ r ∈ records, store.get r.taskId = some r) : SoundContent records where
  ids := hids
  keys := by
    have hpairwise := List.pairwise_map.mp hids
    refine hpairwise.imp_of_mem fun {r r'} hr hr' hne k hk hk' => hne ?_
    exact h.unique (hheld r hr) hk (hheld r' hr') hk'
  named r hr k hk := h.named r.taskId r k (hheld r hr) hk

end TaskStore

/-! ## The backing mirrors the memory

The file is written whole after every change, so it is the memory, as JSON keeps it. -/

namespace BackedTaskStore

open TaskStore (All KeepsKeys SoundContent)

variable {b : BackedTaskStore} {l : StoreLabel}

/-- **The backing mirrors the memory**: it holds the records of the store and no others. -/
structure Mirrors (b : BackedTaskStore) : Prop where
  tidy   : b.store.Tidy
  kept   : All (fun _ r => b.backing.Keeps r) b.store
  ids    : (b.backing.stored.map TaskRecord.taskId).Nodup
  stored : ∀ t r, r ∈ b.backing.stored ∧ r.taskId = t ↔ b.store.get t = some r

/-- **A store reopened over its mirror** holds the same records and answers the same lookups. -/
theorem Mirrors.reopened (h : Mirrors b) :
    (∀ t, b.backing.hydrate.get t = b.store.get t) ∧
      ∀ k, b.backing.hydrate.findByIdempotencyKey k = b.store.findByIdempotencyKey k := by
  have hsound : SoundContent b.backing.stored :=
    h.tidy.soundContent h.ids fun r hr => (h.stored r.taskId r).mp ⟨hr, rfl⟩
  obtain ⟨htidy, hget⟩ := TaskStore.hydrate_sound hsound
  have hsame : ∀ t, b.backing.hydrate.get t = b.store.get t := by
    intro t
    refine Option.ext fun r => ?_
    exact (hget t r).trans (h.stored t r)
  refine ⟨hsame, fun k => Option.ext fun r => ?_⟩
  refine (htidy.find k r).trans (Iff.trans ?_ (h.tidy.find k r).symm)
  refine exists_congr fun t => and_congr_left fun _ => ?_
  exact Eq.congr (hsame t) rfl

section Persist

variable {after : TaskStore}

theorem mirrors_memory (htidy : after.Tidy)
    (hkept : All (fun _ r => TaskBacking.memory.Keeps r) after) :
    Mirrors ⟨after, .memory⟩ := by
  have hempty : after.list = [] := by
    refine List.eq_nil_iff_forall_not_mem.mpr fun r hr => ?_
    exact (hkept r.taskId r (htidy.mem_list.mp ⟨hr, rfl⟩)).2
  refine ⟨htidy, hkept, List.nodup_nil, fun t r => ?_⟩
  rw [← htidy.mem_list, hempty]
  exact Iff.rfl

theorem mirrors_file (htidy : after.Tidy) {records : Option (List TaskRecord)}
    (hkept : All (fun _ r => (TaskBacking.file records).Keeps r) after) :
    Mirrors ⟨after, .file (some (after.list.map TaskRecord.jsonCopy))⟩ := by
  have hlist : ∀ r ∈ after.list, (TaskBacking.file records).Keeps r := fun r hr =>
    hkept r.taskId r (htidy.mem_list.mp ⟨hr, rfl⟩)
  have hstored : (TaskBacking.file (some (after.list.map TaskRecord.jsonCopy))).stored =
      after.list := by
    have hcopy : after.list.map TaskRecord.jsonCopy = after.list := by
      refine (List.map_congr_left fun r hr => ?_).trans (List.map_id _)
      unfold TaskRecord.jsonCopy
      rw [map_jsonCopy (hlist r hr).1]
      rfl
    unfold TaskBacking.stored
    rw [hcopy]
    exact List.filter_eq_self.mpr fun r hr => decide_eq_true (hlist r hr).2
  refine ⟨htidy, hkept, ?_, fun t r => ?_⟩
  · rw [hstored]
    exact htidy.list_ids
  · rw [hstored]
    exact htidy.mem_list

/-- The table holds a row for every record, and each row gives its record back. -/
theorem mirrors_db (htidy : after.Tidy) {unique : Bool} {table table' : TaskTable}
    (hupsert : table.upsertAll unique after.list = .ok table')
    (hkept : All (fun _ r => (TaskBacking.db unique table).Keeps r) after)
    (hrows : ∀ t row, table.get t = some row → after.get t ≠ none) :
    Mirrors ⟨after, .db unique table'⟩ := by
  obtain ⟨hwritten, hleft⟩ := get_upsertAll hupsert htidy.list_ids
  refine ⟨htidy, hkept, stored_db_ids unique table', fun t r => ?_⟩
  rw [mem_stored_db]
  have hrecord : ∀ r, after.get t = some r →
      ∃ row, table'.get t = some row ∧ row.toRecord t = r := by
    intro r hr
    obtain ⟨hmem, hid⟩ := htidy.mem_list.mpr hr
    obtain ⟨row, hrow, hget⟩ := hwritten r hmem
    obtain ⟨hplain, horder, hcontext⟩ := hkept t r hr
    rw [hid] at hget
    refine ⟨row, hget, ?_⟩
    rw [← hid]
    exact toRecord_of_toRow hrow hplain horder hcontext
  constructor
  · rintro ⟨row, hget, hr⟩
    cases hafter : after.get t with
    | none =>
        -- the upserts left the row alone, so that it was there before
        have habsent : t ∉ after.list.map TaskRecord.taskId := by
          intro hmem
          obtain ⟨other, hother, hid⟩ := List.mem_map.mp hmem
          rw [htidy.mem_list.mp ⟨hother, hid⟩] at hafter
          cases hafter
        rw [hleft t habsent] at hget
        exact absurd hafter (hrows t row hget)
    | some held =>
        obtain ⟨row', hget', hheld⟩ := hrecord held hafter
        rw [hget] at hget'
        obtain rfl := Option.some.inj hget'
        rw [← hheld, hr]
  · exact hrecord r

/-- `persist` makes the backing a mirror, provided that it has a place for every record and that no
row is left over. -/
theorem mirrors_persist (htidy : after.Tidy) {backing backing' : TaskBacking}
    {fault : Option String} (hpersist : backing.persist fault after = .ok backing')
    (hkept : All (fun _ r => backing.Keeps r) after)
    (hrows : ∀ unique table, backing = .db unique table → ∀ t row, table.get t = some row →
      after.get t ≠ none) : Mirrors ⟨after, backing'⟩ := by
  cases backing with
  | memory =>
      obtain rfl := Except.ok.inj hpersist
      exact mirrors_memory htidy hkept
  | file records =>
      cases fault with
      | some e => cases hpersist
      | none =>
          obtain rfl := Except.ok.inj hpersist
          exact mirrors_file htidy hkept
  | db unique table =>
      cases fault with
      | some e => cases hpersist
      | none =>
          obtain ⟨table', hupsert, rfl⟩ := map_eq_ok.mp hpersist
          exact mirrors_db htidy hupsert hkept (hrows unique table rfl)

end Persist

/-! ## Calls that survive a restart -/

def Returns (b : BackedTaskStore) (l : StoreLabel) : Prop := (b.call l).1 = .ok ()

/-- The backing has a place for what the call leaves in the memory. -/
def FitsBacking (b : BackedTaskStore) : StoreLabel → Prop
  | .write (.save _ _ params) =>
      params.result.Plain ∧
        match b.backing with
        | .memory => False
        | .file _ => params.taskId ≠ ""
        | .db _ _ => params.contextId = none
  | .write (.update _ _ taskId updates) => b.store.get taskId ≠ none →
      (∀ result ∈ updates.result.join, result.Plain) ∧
        match b.backing with
        | .memory => False
        | .file _ => True
        | .db _ _ => updates.orderId.join = none ∧ updates.contextId.join = none
  | .delete _ taskId =>
      match b.backing with
      | .memory => False
      | .file _ => True
      | .db _ _ => b.store.get taskId = none

/-- **The condition on a call**: it keeps the keys, and the backing has a place for what it leaves.
-/
def Survives (b : BackedTaskStore) (l : StoreLabel) : Prop :=
  KeepsKeys b.store l ∧ FitsBacking b l

theorem getD_none_of_join {α : Type} {field : Option (Option α)} (h : field.join = none) :
    field.getD none = none := by
  cases field with
  | none => rfl
  | some v => exact h

/-- The backing has a place for every record that a call leaves. -/
theorem kept_step (h : Mirrors b) (hl : FitsBacking b l) :
    All (fun _ r => b.backing.Keeps r) (b.store.step l) := by
  cases l with
  | write w =>
      cases w with
      | save now fault params =>
          refine (TaskStore.all_save b.store now fault params h.kept).mpr fun _ => ?_
          obtain ⟨hplain, hfits⟩ := hl
          refine ⟨fun result hr => Option.some.inj hr ▸ hplain, ?_⟩
          -- `save` takes no order_id
          cases hb : b.backing with
          | memory => rwa [hb] at hfits
          | file records => rwa [hb] at hfits
          | db unique table => exact ⟨rfl, by rwa [hb] at hfits⟩
      | update now fault t updates =>
          refine (TaskStore.all_update b.store now fault t updates h.kept).mpr
            fun existing hget _ => ?_
          obtain ⟨hplain, hfits⟩ := hl (by rw [hget]; simp)
          obtain ⟨hheld, hplace⟩ := h.kept t existing hget
          refine ⟨fun result hr => ?_, ?_⟩
          · have hgetD : result ∈ updates.result.getD existing.result := hr
            cases hu : updates.result with
            | none =>
                rw [hu] at hgetD
                exact hheld result hgetD
            | some given =>
                rw [hu] at hgetD
                exact hplain result (by rw [hu]; exact hgetD)
          · cases hb : b.backing with
            | memory => rwa [hb] at hfits
            | file records => rwa [hb] at hplace
            | db unique table =>
                -- an update writes the columns that the table lacks only where it brings them
                rw [hb] at hfits hplace
                refine ⟨?_, ?_⟩
                · show updates.orderId.getD existing.orderId = none
                  rw [hplace.1]
                  exact getD_none_of_join hfits.1
                · show updates.contextId.getD existing.contextId = none
                  rw [hplace.2]
                  exact getD_none_of_join hfits.2
  | delete fault t =>
      show All _ (b.store.delete fault t).2
      rcases b.store.delete_cases fault t with ⟨_, heq⟩ | ⟨existing, _, heq⟩
      · rw [heq]
        exact h.kept
      · intro a r hr
        rw [heq] at hr
        have hget : (b.store.tasks.delete t).get a = some r := hr
        rw [OrderedMap.get_delete] at hget
        split at hget
        · cases hget
        · exact h.kept a r hget

/-- No row of a database is left over, since no record is deleted. -/
theorem rows_step {b : BackedTaskStore} {l : StoreLabel} (h : Mirrors b) (hl : FitsBacking b l)
    {unique : Bool} {table : TaskTable} (hb : b.backing = .db unique table) {t : String}
    {row : TaskRow} (hrow : table.get t = some row) : (b.store.step l).get t ≠ none := by
  have hheld : b.store.get t = some (row.toRecord t) := by
    refine (h.stored t _).mp ?_
    rw [hb]
    exact mem_stored_db.mpr ⟨row, hrow, rfl⟩
  have hkept : TaskStore.Kept (fun _ _ => True) b.store (b.store.step l) := by
    cases l with
    | write w =>
        cases w with
        | save now fault params =>
            exact (TaskStore.kept_save _ now fault params fun _ => trivial).mpr
              fun _ _ _ => trivial
        | update now fault t updates =>
            exact (TaskStore.kept_update _ now fault t updates fun _ => trivial).mpr
              fun _ _ _ => trivial
    | delete fault t =>
        unfold FitsBacking at hl
        rw [hb] at hl
        rcases b.store.delete_cases fault t with ⟨_, heq⟩ | ⟨existing, hget, _⟩
        · show TaskStore.Kept (fun _ _ => True) b.store (b.store.delete fault t).2
          rw [heq]
          exact TaskStore.Kept.refl (fun _ => trivial) _
        · rw [show b.store.get t = none from hl] at hget
          cases hget
  obtain ⟨r', hr', _⟩ := hkept t _ hheld
  rw [hr']
  simp

/-- **Every call that returns and survives keeps the mirror.** -/
theorem step_mirrors (h : Mirrors b) (hreturns : Returns b l) (hl : Survives b l) :
    Mirrors (b.step l) := by
  have hafter := b.store.step_eq_change l
  unfold Returns at hreturns
  unfold step
  unfold call at hreturns ⊢
  cases hc : b.store.change l with
  | error e => exact h
  | ok after =>
      cases after with
      | none => exact h
      | some after =>
          rw [hc] at hafter hreturns
          dsimp only at hafter hreturns ⊢
          cases hp : b.backing.persist l.fault after with
          | error e =>
              rw [hp] at hreturns
              cases hreturns
          | ok backing' =>
              have htidy : after.Tidy := by
                rw [← hafter]
                exact h.tidy.step hl.1
              refine mirrors_persist htidy hp ?_ fun unique table hb t row hrow => ?_
              · rw [← hafter]
                exact kept_step h hl.2
              · rw [← hafter]
                exact rows_step h hl.2 hb hrow

/-- The two stores hold the same records and answer the same lookups. -/
def SameRecords (s s' : TaskStore) : Prop :=
  (∀ t, s.get t = s'.get t) ∧ ∀ k, s.findByIdempotencyKey k = s'.findByIdempotencyKey k

/-- **Restart refinement.** Take two backings that mirror the same memory, and a sequence of calls
that return normally and survive over each. After it each backing reopens as the memory before the
restart, and so the two reopen as the same store. -/
theorem restart_refines {backing backing' : TaskBacking} (hstart : Mirrors (create backing))
    (hstart' : Mirrors (create backing')) (hsame : backing.hydrate = backing'.hydrate)
    {ls : List StoreLabel}
    (h : Transition.StepsMeet step (fun b l => Returns b l ∧ Survives b l) (create backing) ls)
    (h' : Transition.StepsMeet step (fun b l => Returns b l ∧ Survives b l) (create backing') ls) :
    SameRecords (Transition.run step (create backing) ls).backing.hydrate
      (Transition.run step (create backing) ls).store ∧
    SameRecords (Transition.run step (create backing') ls).backing.hydrate
      (Transition.run step (create backing') ls).store ∧
    SameRecords (Transition.run step (create backing) ls).backing.hydrate
      (Transition.run step (create backing') ls).backing.hydrate := by
  have hmirrors : Mirrors (Transition.run step (create backing) ls) :=
    Transition.run_invariant (fun b l hb hl => step_mirrors hb hl.1 hl.2) hstart h
  have hmirrors' : Mirrors (Transition.run step (create backing') ls) :=
    Transition.run_invariant (fun b l hb hl => step_mirrors hb hl.1 hl.2) hstart' h'
  have hstores : (Transition.run step (create backing) ls).store =
      (Transition.run step (create backing') ls).store := by
    rw [run_store, run_store]
    exact congrArg (fun s => Transition.run TaskStore.step s ls) hsame
  obtain ⟨hget, hfind⟩ := hmirrors.reopened
  obtain ⟨hget', hfind'⟩ := hmirrors'.reopened
  refine ⟨⟨hget, hfind⟩, ⟨hget', hfind'⟩, fun t => ?_, fun k => ?_⟩
  · rw [hget, hget', hstores]
  · rw [hfind, hfind', hstores]

theorem fresh_mirrors : Mirrors (create (.file none)) ∧ Mirrors (create (.db true .empty)) := by
  have hkept : ∀ backing : TaskBacking, All (fun _ r => backing.Keeps r) TaskStore.empty :=
    fun _ t r hr => absurd hr (by simp [TaskStore.get, TaskStore.empty])
  have hstored : ∀ t r, r ∈ ([] : List TaskRecord) ∧ r.taskId = t ↔
      TaskStore.empty.get t = some r :=
    fun t r => ⟨fun h => absurd h.1 List.not_mem_nil,
      fun h => absurd h (by simp [TaskStore.get, TaskStore.empty])⟩
  exact ⟨⟨TaskStore.tidy_empty, hkept _, List.nodup_nil, hstored⟩,
    ⟨TaskStore.tidy_empty, hkept _, List.nodup_nil, hstored⟩⟩

/-- A saved task comes back from the file and from the database. -/
theorem restart_refines_saved :
    SameRecords
      (Transition.run step (create (.file none))
        [.write (.save 0 none (TaskStore.sampleParams "t" (some "k") "alice" "done"))]).backing.hydrate
      (Transition.run step (create (.db true .empty))
        [.write (.save 0 none (TaskStore.sampleParams "t" (some "k") "alice" "done"))]).backing.hydrate := by
  refine (restart_refines fresh_mirrors.1 fresh_mirrors.2 rfl ?_ ?_).2.2
  · have hid : (TaskStore.sampleParams "t" (some "k") "alice" "done").taskId ≠ "" := by decide
    exact ⟨⟨rfl, ⟨fun _ => ⟨fun _ _ => hid, fun _ _ hget => by cases hget⟩, rfl, hid⟩⟩, trivial⟩
  · have hid : (TaskStore.sampleParams "t" (some "k") "alice" "done").taskId ≠ "" := by decide
    exact ⟨⟨rfl, ⟨fun _ => ⟨fun _ _ => hid, fun _ _ hget => by cases hget⟩, rfl, rfl⟩⟩, trivial⟩

/-- **A restart over the database** brings back a deleted task and forgets a context id. Every call
returned normally, and the file gets both right. -/
theorem restart_differs :
    (Transition.StepsMeet step Returns (create (.db true .empty))
        [.write (.save 0 none (TaskStore.sampleParams "t" none "alice" "done")), .delete none "t"] ∧
      ¬ SameRecords
        (Transition.run step (create (.db true .empty))
          [.write (.save 0 none (TaskStore.sampleParams "t" none "alice" "done")),
            .delete none "t"]).backing.hydrate
        (Transition.run step (create (.db true .empty))
          [.write (.save 0 none (TaskStore.sampleParams "t" none "alice" "done")),
            .delete none "t"]).store) ∧
    Transition.StepsMeet step Returns (create (.db true .empty))
        [.write (.save 0 none
          { TaskStore.sampleParams "t" none "alice" "done" with contextId := some "c" })] ∧
      ¬ SameRecords
        (Transition.run step (create (.db true .empty)) [.write (.save 0 none
          { TaskStore.sampleParams "t" none "alice" "done" with contextId := some "c" })]).backing.hydrate
        (Transition.run step (create (.file none)) [.write (.save 0 none
          { TaskStore.sampleParams "t" none "alice" "done" with
            contextId := some "c" })]).backing.hydrate := by
  refine ⟨⟨⟨rfl, rfl, trivial⟩, fun h => ?_⟩, ⟨rfl, trivial⟩, fun h => ?_⟩
  · have hget := congrArg Option.isSome (h.1 "t")
    exact absurd hget (by decide)
  · have hget := congrArg (fun r => r.bind TaskRecord.contextId) (h.1 "t")
    exact absurd hget (by decide)

end BackedTaskStore

end MapProtocol
