import MapProtocol.ControlPlane.TaskPersistence

/-!
# The idempotency index

`idempotencyIndex` repeats the keys of the records. `Tidy` says that it does so exactly; then a
lookup finds the record that carries a key, and nothing else.

Four calls break it. A `save` over a record with another key leaves the old key in the index, and so
does an update that sets the key to `undefined`. An empty key, or a key of a task whose id is empty,
is stored and never found. `KeepsIndex` excludes these, and `index_agrees` shows that nothing else
needs to be excluded.
-/

namespace MapProtocol

/-- The record has an entry in the index under `k`: an empty key has none. -/
def TaskRecord.Indexed (record : TaskRecord) (k : String) : Prop :=
  k ≠ "" ∧ record.idempotencyKey = some k

theorem TaskRecord.indexed_iff {record : TaskRecord} {key k : String}
    (h : record.idempotencyKey = some key) : record.Indexed k ↔ key ≠ "" ∧ key = k := by
  unfold Indexed
  rw [h, Option.some.injEq]
  exact ⟨fun hk => ⟨hk.2 ▸ hk.1, hk.2⟩, fun hk => ⟨hk.2 ▸ hk.1, hk.2⟩⟩

instance (record : TaskRecord) (k : String) : Decidable (record.Indexed k) :=
  inferInstanceAs (Decidable (_ ∧ _))

namespace TaskStore

variable {store : TaskStore}
variable {t k : String} {existing : TaskRecord} {now : Nat} {records : List TaskRecord}

/-- **The index is tidy.** Records stand under their own ids, and the index maps a key to the id of
the one record that carries it. -/
structure Tidy (store : TaskStore) : Prop where
  keyed : ∀ t r, store.get t = some r → r.taskId = t
  index : ∀ k t, store.idempotencyIndex.get k = some t ↔ ∃ r, store.get t = some r ∧ r.Indexed k
  named : ∀ t r k, store.get t = some r → r.Indexed k → t ≠ ""

theorem tidy_empty : Tidy empty where
  keyed _ _ h := by cases h
  index _ _ := ⟨fun h => absurd h (by simp [empty]), fun ⟨_, h, _⟩ => absurd h (by simp [empty, get])⟩
  named _ _ _ h := by cases h

theorem Tidy.unique (h : Tidy store) {t t' k : String} {r r' : TaskRecord}
    (hr : store.get t = some r) (hk : r.Indexed k) (hr' : store.get t' = some r')
    (hk' : r'.Indexed k) : t = t' := by
  have hindex := (h.index k t).mpr ⟨r, hr, hk⟩
  rw [(h.index k t').mpr ⟨r', hr', hk'⟩] at hindex
  exact (Option.some.inj hindex).symm

/-- **A lookup finds the record that carries the key.** -/
theorem Tidy.find (h : Tidy store) (k : String) (r : TaskRecord) :
    store.findByIdempotencyKey k = some r ↔ ∃ t, store.get t = some r ∧ r.Indexed k := by
  unfold findByIdempotencyKey
  cases hindex : store.idempotencyIndex.get k with
  | none =>
      refine ⟨fun hnone => absurd hnone (by simp), fun ⟨t, hr, hk⟩ => ?_⟩
      rw [(h.index k t).mpr ⟨r, hr, hk⟩] at hindex
      cases hindex
  | some t =>
      obtain ⟨holder, hholder, hk⟩ := (h.index k t).mp hindex
      have hname := h.named t holder k hholder hk
      simp only [hname, if_false]
      constructor
      · intro hr
        have hsame : holder = r := by
          rw [show store.tasks.get t = some holder from hholder] at hr
          exact Option.some.inj hr
        exact ⟨t, hr, hsame ▸ hk⟩
      · rintro ⟨t', hr, hk'⟩
        rw [h.unique hholder hk hr hk']
        exact hr

/-! ## What the calls do to the index

The index is written beside the records. The three ways in which a record changes are three
lemmas. -/

theorem get_index_insert (store : TaskStore) (record : TaskRecord) (k : String) :
    (store.insert record).idempotencyIndex.get k =
      if record.Indexed k then some record.taskId else store.idempotencyIndex.get k := by
  unfold insert
  rcases Option.eq_none_or_eq_some record.idempotencyKey with hkey | ⟨key, hkey⟩
  · simp [TaskRecord.Indexed, hkey]
  · simp only [TaskRecord.indexed_iff hkey]
    by_cases hblank : key = ""
    · simp [hkey, hblank]
    · simp [hkey, hblank, OrderedMap.get_set]

/-- Setting a record keeps the index tidy, when its key is free, replaces the key of the record that
was there, and names a task. -/
theorem Tidy.insert {record : TaskRecord} (h : Tidy store)
    (hfree : ∀ k t r, record.Indexed k → store.get t = some r → r.Indexed k → t = record.taskId)
    (hkeep : ∀ r k, store.get record.taskId = some r → r.Indexed k → record.Indexed k)
    (hnamed : ∀ k, record.Indexed k → record.taskId ≠ "") : Tidy (store.insert record) := by
  constructor
  · intro t r hr
    rw [get_insert] at hr
    split at hr
    · rename_i ht
      obtain rfl := Option.some.inj hr
      exact ht
    · exact h.keyed t r hr
  · intro k t
    rw [get_index_insert]
    by_cases hk : record.Indexed k
    · -- the index names the new record, which is the only one under its key
      rw [if_pos hk]
      constructor
      · rintro ⟨rfl⟩
        exact ⟨record, get_insert_self _ _, hk⟩
      · rintro ⟨r, hr, hrk⟩
        rw [get_insert] at hr
        split at hr
        · rename_i ht
          rw [ht]
        · rw [hfree k t r hk hr hrk]
    · -- the entry is an old one, and not of the record that was replaced
      rw [if_neg hk, h.index]
      refine exists_congr fun r => and_congr_left fun hrk => ?_
      rw [get_insert]
      split
      · rename_i ht
        subst ht
        exact ⟨fun hr => absurd (hkeep r k hr hrk) hk,
          fun hr => absurd (Option.some.inj hr ▸ hrk) hk⟩
      · exact Iff.rfl
  · intro t r k hr hk
    rw [get_insert] at hr
    split at hr
    · rename_i ht
      obtain rfl := Option.some.inj hr
      exact ht ▸ hnamed k hk
    · exact h.named t r k hr hk

/-- Replacing a record by one with the same key keeps the index tidy. -/
theorem Tidy.replace {existing next : TaskRecord} (h : Tidy store)
    (hget : store.get t = some existing) (hid : next.taskId = t)
    (hkey : ∀ k, next.Indexed k ↔ existing.Indexed k) :
    Tidy { store with tasks := store.tasks.set t next } := by
  constructor
  · intro a r hr
    rw [get_update] at hr
    split at hr
    · rename_i ha
      obtain rfl := Option.some.inj hr
      exact hid.trans ha
    · exact h.keyed a r hr
  · intro k a
    refine (h.index k a).trans ?_
    by_cases ha : t = a
    · subst ha
      simp only [get_update, if_true, hget, Option.some.injEq, exists_eq_left']
      exact (hkey k).symm
    · simp only [get_update, ha, if_false]
  · intro a r k hr hk
    rw [get_update] at hr
    split at hr
    · rename_i ha
      obtain rfl := Option.some.inj hr
      exact ha ▸ h.named t existing k hget ((hkey k).mp hk)
    · exact h.named a r k hr hk

/-- Deleting a record with its key keeps the index tidy. -/
theorem Tidy.delete (h : Tidy store) (fault : Option String) (t : String) :
    Tidy (store.delete fault t).2 := by
  rcases store.delete_cases fault t with ⟨_, heq⟩ | ⟨existing, hget, heq⟩
  · rw [heq]
    exact h
  · have hgone : ∀ a, (store.delete fault t).2.get a = if t = a then none else store.get a := by
      intro a
      rw [heq]
      exact OrderedMap.get_delete _ _ _
    have hindex : ∀ k, (store.delete fault t).2.idempotencyIndex.get k =
        if existing.Indexed k then none else store.idempotencyIndex.get k := by
      intro k
      rw [heq]
      rcases Option.eq_none_or_eq_some existing.idempotencyKey with hkey | ⟨key, hkey⟩
      · simp [TaskRecord.Indexed, hkey]
      · simp only [TaskRecord.indexed_iff hkey]
        by_cases hblank : key = ""
        · simp [hkey, hblank]
        · simp [hkey, hblank, OrderedMap.get_delete]
    constructor
    · intro a r hr
      rw [hgone] at hr
      split at hr
      · cases hr
      · exact h.keyed a r hr
    · intro k a
      rw [hindex]
      by_cases hk : existing.Indexed k
      · rw [if_pos hk]
        -- the deleted record was the only one under its key
        refine ⟨fun hnone => (by cases hnone), ?_⟩
        rintro ⟨r, hr, hrk⟩
        rw [hgone] at hr
        split at hr
        · cases hr
        · rename_i ha
          exact absurd (h.unique hget hk hr hrk) ha
      · rw [if_neg hk, h.index]
        refine exists_congr fun r => and_congr_left fun hrk => ?_
        rw [hgone]
        split
        · rename_i ha
          subst ha
          refine ⟨fun hr => ?_, fun hr => by cases hr⟩
          rw [hget] at hr
          exact absurd (Option.some.inj hr ▸ hrk) hk
        · exact Iff.rfl
    · intro a r k hr hk
      rw [hgone] at hr
      split at hr
      · cases hr
      · exact h.named a r k hr hk

/-! ## Calls that keep the index tidy -/

theorem checkSave_key {params : SaveParams} (hok : store.checkSave params = .ok ())
    (hkey : params.idempotencyKey = some k) (hne : k ≠ "")
    (hindex : store.idempotencyIndex.get k = some t) : t = "" ∨ t = params.taskId := by
  have hfree : t ≠ "" → t = params.taskId := by
    unfold checkSave at hok
    cases hget : store.tasks.get params.taskId with
    | none => simpa [hget, hkey, hne, hindex] using hok
    | some existing =>
        simp only [hget, hkey, hne, if_false, hindex, bind_eq_ok, throwIf_eq_ok, not_and,
          not_not] at hok
        obtain ⟨_, _, hfree⟩ := hok
        exact hfree
  by_cases ht : t = ""
  · exact .inl ht
  · exact .inr (hfree ht)

/-- **The condition on a call.** A `save` that goes through names a task under its key and brings
the key that the record holds; an update that goes through does not erase the key. -/
def KeepsKeys (store : TaskStore) : StoreLabel → Prop
  | .write (.save now _ params) => store.checkSave params = .ok () →
      (∀ k, (params.toRecord now).Indexed k → params.taskId ≠ "") ∧
      ∀ existing k, store.get params.taskId = some existing → existing.Indexed k →
        params.idempotencyKey = some k
  | .write (.update _ _ t updates) => ∀ existing k, store.get t = some existing →
      updates.validateTransition existing (updates.nextStatus existing) = .ok () →
      existing.Indexed k → updates.idempotencyKey ≠ some none
  | .delete _ _ => True

/-- An update that goes through leaves the key, unless it erases it. -/
theorem indexed_apply {updates : TaskUpdate} {next : TaskStatus}
    (hok : updates.validateIdentity existing = .ok ())
    (herase : existing.Indexed k → updates.idempotencyKey ≠ some none) :
    (updates.apply existing next now).Indexed k ↔ existing.Indexed k := by
  obtain ⟨_, hrepeats, _⟩ := TaskUpdate.validateIdentity_eq_ok hok
  have hkey : (updates.apply existing next now).idempotencyKey =
      updates.idempotencyKey.getD existing.idempotencyKey := rfl
  unfold TaskRecord.Indexed at herase ⊢
  rw [hkey]
  cases hu : updates.idempotencyKey with
  | none => exact Iff.rfl
  | some given =>
      cases given with
      | none =>
          refine ⟨fun h => absurd h.2 (by simp), fun h => absurd hu (herase h)⟩
      | some v =>
          rw [hrepeats v hu]
          exact Iff.rfl

theorem Tidy.step (h : Tidy store) {l : StoreLabel} (hl : KeepsKeys store l) :
    Tidy (store.step l) := by
  cases l with
  | delete fault t => exact h.delete fault t
  | write w =>
      cases w with
      | save now fault params =>
          show Tidy (store.save now fault params).2
          rcases store.save_cases now fault params with ⟨e, _, heq⟩ | ⟨hcheck, heq⟩
          · rw [heq]
            exact h
          · obtain ⟨hnamed, hkeep⟩ := hl hcheck
            rw [heq]
            refine h.insert (fun k t r hk hr hrk => ?_) (fun r k hr hrk => ?_) hnamed
            · have hindex := (h.index k t).mpr ⟨r, hr, hrk⟩
              rcases checkSave_key hcheck hk.2 hk.1 hindex with ht | ht
              · exact absurd ht (h.named t r k hr hrk)
              · exact ht
            · exact ⟨hrk.1, hkeep r k hr hrk⟩
      | update now fault t updates =>
          show Tidy (store.update now fault t updates).2
          rcases store.update_cases now fault t updates with
            ⟨_, heq⟩ | ⟨existing, e, _, _, heq⟩ | ⟨existing, hget, hcheck, heq⟩
          · rw [heq]
            exact h
          · rw [heq]
            exact h
          · rw [heq]
            refine h.replace hget (h.keyed t existing hget) fun k => ?_
            exact indexed_apply (TaskUpdate.validateTransition_eq_ok hcheck).1
              (hl existing k hget hcheck)

/-! ## Lookups agree with the records

An empty key is no key for the index but one for a record, so the lookups need a little more than
the index does. -/

/-- **The index agrees with the records**: a lookup of a key returns exactly the records that carry
it. -/
def IndexAgrees (store : TaskStore) : Prop :=
  ∀ k r, store.findByIdempotencyKey k = some r ↔
    ∃ t, store.get t = some r ∧ r.idempotencyKey = some k

/-- No record carries the empty key. -/
def NoBlankKey (store : TaskStore) : Prop := ∀ t r, store.get t = some r → r.idempotencyKey ≠ some ""

theorem Tidy.indexAgrees (h : Tidy store) (hblank : NoBlankKey store) : IndexAgrees store := by
  intro k r
  refine (h.find k r).trans (exists_congr fun t => and_congr_right fun hr => ?_)
  refine ⟨fun hk => hk.2, fun hk => ⟨?_, hk⟩⟩
  rintro rfl
  exact hblank t r hr hk

/-- **The condition on a call**, for the lookups: it keeps the keys and saves no empty one. -/
def KeepsIndex (store : TaskStore) (l : StoreLabel) : Prop :=
  KeepsKeys store l ∧
    ∀ now fault params, l = .write (.save now fault params) → store.checkSave params = .ok () →
      params.idempotencyKey ≠ some ""

theorem NoBlankKey.step (h : NoBlankKey store) {l : StoreLabel} (hl : KeepsIndex store l) :
    NoBlankKey (store.step l) := by
  cases l with
  | delete fault t =>
      show NoBlankKey (store.delete fault t).2
      rcases store.delete_cases fault t with ⟨_, heq⟩ | ⟨existing, _, heq⟩
      · rw [heq]
        exact h
      · intro a r hr
        rw [heq] at hr
        have hget : (store.tasks.delete t).get a = some r := hr
        rw [OrderedMap.get_delete] at hget
        split at hget
        · cases hget
        · exact h a r hget
  | write w =>
      cases w with
      | save now fault params =>
          exact (all_save (P := fun _ r => r.idempotencyKey ≠ some "") store now fault params h).mpr
            fun hcheck => hl.2 now fault params rfl hcheck
      | update now fault t updates =>
          refine (all_update (P := fun _ r => r.idempotencyKey ≠ some "") store now fault t updates
            h).mpr fun r hr hcheck => ?_
          have hkey : (updates.apply r (updates.nextStatus r) now).idempotencyKey =
              updates.idempotencyKey.getD r.idempotencyKey := rfl
          -- an update only repeats the key, or erases it
          obtain ⟨_, hrepeats, _⟩ :=
            TaskUpdate.validateIdentity_eq_ok (TaskUpdate.validateTransition_eq_ok hcheck).1
          rw [hkey]
          cases hu : updates.idempotencyKey with
          | none => exact h t r hr
          | some given =>
              cases given with
              | none => exact fun hsome => by cases hsome
              | some v =>
                  have hheld := h t r hr
                  rw [hrepeats v hu] at hheld
                  exact hheld

/-- A `save` that leaves the index in agreement keeps the keys, and saves no empty one. -/
theorem save_of_agrees (h : Tidy store) {params : SaveParams}
    (hagrees : IndexAgrees (store.insert (params.toRecord now))) :
    (∀ k, (params.toRecord now).Indexed k → params.taskId ≠ "") ∧
      (∀ existing k, store.get params.taskId = some existing → existing.Indexed k →
        params.idempotencyKey = some k) ∧ params.idempotencyKey ≠ some "" := by
  have hself := get_insert_self store (params.toRecord now)
  refine ⟨fun k hk hblank => ?_, fun existing k hget hk => ?_, fun hblank => ?_⟩
  · -- the index would name the empty task id, which no lookup follows
    have hfind := (hagrees k (params.toRecord now)).mpr ⟨_, hself, hk.2⟩
    unfold findByIdempotencyKey at hfind
    rw [get_index_insert, if_pos hk] at hfind
    have hid : (params.toRecord now).taskId = "" := hblank
    simp [hid] at hfind
  · -- the old key would still lead to the record, which carries another one
    by_contra hother
    have hnot : ¬ (params.toRecord now).Indexed k := fun h => hother h.2
    have hindex := (h.index k params.taskId).mpr ⟨existing, hget, hk⟩
    have hfound : (store.insert (params.toRecord now)).findByIdempotencyKey k =
        some (params.toRecord now) := by
      unfold findByIdempotencyKey
      rw [get_index_insert, if_neg hnot, hindex]
      simp only [h.named params.taskId existing k hget hk, if_false]
      exact hself
    obtain ⟨_, _, hcarries⟩ := (hagrees k _).mp hfound
    exact hother hcarries
  · -- an empty key is not indexed
    have hfind := (hagrees "" (params.toRecord now)).mpr ⟨_, hself, hblank⟩
    have hnot : ¬ (params.toRecord now).Indexed "" := fun h => h.1 rfl
    unfold findByIdempotencyKey at hfind
    rw [get_index_insert, if_neg hnot] at hfind
    cases hindex : store.idempotencyIndex.get "" with
    | none => simp [hindex] at hfind
    | some t =>
        obtain ⟨_, _, hk⟩ := (h.index "" t).mp hindex
        exact hk.1 rfl

/-- An update that leaves the index in agreement does not erase the key. -/
theorem update_of_agrees (h : Tidy store) {t k : String} {updates : TaskUpdate}
    {existing : TaskRecord} {next : TaskStatus} {now : Nat} (hget : store.get t = some existing)
    (hk : existing.Indexed k)
    (hagrees : IndexAgrees
      ⟨store.tasks.set t (updates.apply existing next now), store.idempotencyIndex⟩) :
    updates.idempotencyKey ≠ some none := by
  intro herase
  have hindex := (h.index k t).mpr ⟨existing, hget, hk⟩
  have hfound : findByIdempotencyKey
      ⟨store.tasks.set t (updates.apply existing next now), store.idempotencyIndex⟩ k =
        some (updates.apply existing next now) := by
    unfold findByIdempotencyKey
    rw [hindex]
    simp only [h.named t existing k hget hk, if_false, OrderedMap.get_set_self]
  obtain ⟨_, _, hcarries⟩ := (hagrees k _).mp hfound
  have hkey : (updates.apply existing next now).idempotencyKey =
      updates.idempotencyKey.getD existing.idempotencyKey := rfl
  rw [hkey, herase] at hcarries
  cases hcarries

/-- **Nothing else needs to be excluded**: a call that leaves the index in agreement meets the
condition. -/
theorem keepsIndex_of_agrees (h : Tidy store) {l : StoreLabel}
    (hagrees : IndexAgrees (store.step l)) : KeepsIndex store l := by
  cases l with
  | delete fault t => exact ⟨trivial, fun _ _ _ hl => by cases hl⟩
  | write w =>
      cases w with
      | save now fault params =>
          have hstep : store.checkSave params = .ok () →
              IndexAgrees (store.insert (params.toRecord now)) := by
            intro hcheck
            have hsave : IndexAgrees (store.save now fault params).2 := hagrees
            rw [save_eq hcheck] at hsave
            exact hsave
          refine ⟨fun hcheck => ?_, ?_⟩
          · obtain ⟨hnamed, hkeeps, -⟩ := save_of_agrees h (hstep hcheck)
            exact ⟨hnamed, hkeeps⟩
          · rintro now' fault' params' ⟨⟩ hcheck
            exact (save_of_agrees h (hstep hcheck)).2.2
      | update now fault t updates =>
          refine ⟨fun existing k hget hcheck hk => ?_, fun _ _ _ hl => by cases hl⟩
          have hupdate : IndexAgrees (store.update now fault t updates).2 := hagrees
          rcases store.update_cases now fault t updates with
            ⟨hnone, _⟩ | ⟨other, e, hother, hrefused, _⟩ | ⟨other, hother, _, heq⟩
          · rw [hget] at hnone
            cases hnone
          · rw [hget] at hother
            obtain rfl := Option.some.inj hother
            rw [hcheck] at hrefused
            cases hrefused
          · rw [hget] at hother
            obtain rfl := Option.some.inj hother
            rw [heq] at hupdate
            exact update_of_agrees h hget hk hupdate

/-! ## Opening a store

`hydrate` sets the records one after the other, and of two with one key the later one gets it. -/

/-- **The condition on what a store is opened over**: no id and no key occurs twice, and a record
with a key has an id. -/
structure SoundContent (records : List TaskRecord) : Prop where
  ids   : (records.map TaskRecord.taskId).Nodup
  keys  : records.Pairwise fun r r' => ∀ k, r.Indexed k → ¬ r'.Indexed k
  named : ∀ r ∈ records, ∀ k, r.Indexed k → r.taskId ≠ ""

/-- A store opened over records whose ids differ holds them. -/
theorem get_foldl_insert (hids : (records.map TaskRecord.taskId).Nodup) (t : String)
    (r : TaskRecord) :
    (records.foldl insert empty).get t = some r ↔ r ∈ records ∧ r.taskId = t := by
  induction records using List.reverseRec with
  | nil =>
      refine ⟨fun hr => absurd hr (by simp [get, empty]), fun hr => ?_⟩
      exact absurd hr.1 List.not_mem_nil
  | append_singleton rs record ih =>
      rw [List.map_append, List.map_singleton, List.nodup_append] at hids
      obtain ⟨hidsrs, _, hidnew⟩ := hids
      have hnew : ∀ r ∈ rs, r.taskId ≠ record.taskId := fun r hr =>
        hidnew r.taskId (List.mem_map_of_mem hr) record.taskId (by simp)
      rw [List.foldl_append, List.foldl_cons, List.foldl_nil, get_insert]
      split
      · rename_i ht
        constructor
        · rintro ⟨rfl⟩
          exact ⟨by simp, ht⟩
        · rintro ⟨hmem, hid⟩
          rcases List.mem_append.mp hmem with hold | hself
          · exact absurd (hid.trans ht.symm) (hnew r hold)
          · rw [List.mem_singleton.mp hself]
      · rename_i ht
        rw [ih hidsrs]
        constructor
        · rintro ⟨hmem, hid⟩
          exact ⟨List.mem_append_left _ hmem, hid⟩
        · rintro ⟨hmem, hid⟩
          rcases List.mem_append.mp hmem with hold | hself
          · exact ⟨hold, hid⟩
          · rw [List.mem_singleton.mp hself] at hid
            exact absurd hid ht

theorem index_foldl_insert {key t : String}
    (h : (records.foldl insert empty).idempotencyIndex.get key = some t) :
    ∃ r, (records.foldl insert empty).get t = some r := by
  induction records using List.reverseRec with
  | nil => cases h
  | append_singleton rs record ih =>
      rw [List.foldl_append, List.foldl_cons, List.foldl_nil] at h ⊢
      rw [get_insert]
      split
      · exact ⟨record, rfl⟩
      · rename_i ht
        rcases index_insert h with heq | hold
        · exact absurd heq.symm ht
        · exact ih hold

theorem hydrate_sound (h : SoundContent records) :
    Tidy (records.foldl insert empty) ∧ ∀ t r,
      (records.foldl insert empty).get t = some r ↔ r ∈ records ∧ r.taskId = t := by
  refine ⟨?_, get_foldl_insert h.ids⟩
  induction records using List.reverseRec with
  | nil => exact tidy_empty
  | append_singleton rs record ih =>
      -- the last record is new to the store: its id and its key are in none of the others
      obtain ⟨hids, hkeys, hnamed⟩ := h
      rw [List.map_append, List.map_singleton, List.nodup_append] at hids
      rw [List.pairwise_append] at hkeys
      obtain ⟨hidsrs, _, hidnew⟩ := hids
      obtain ⟨hkeysrs, _, hkeynew⟩ := hkeys
      rw [List.foldl_append, List.foldl_cons, List.foldl_nil]
      refine (ih ⟨hidsrs, hkeysrs, fun r hr => hnamed r (by simp [hr])⟩).insert
        (fun k t r hk hr hrk => ?_) (fun r k hr hrk => ?_) (hnamed record (by simp))
      · have hmem := ((get_foldl_insert hidsrs t r).mp hr).1
        exact absurd hk (hkeynew r hmem record (by simp) k hrk)
      · obtain ⟨hmem, hid⟩ := (get_foldl_insert hidsrs record.taskId r).mp hr
        exact absurd hid (hidnew r.taskId (List.mem_map_of_mem hmem) record.taskId (by simp))

/-- **Idempotency index.** Let a store be opened over sound content without empty keys. In every
state of a run the index agrees with the records exactly when every call keeps the index. -/
theorem index_agrees (backing : TaskBacking) (hsound : SoundContent backing.stored)
    (hblank : ∀ r ∈ backing.stored, r.idempotencyKey ≠ some "") (ls : List StoreLabel) :
    Transition.StepsMeet step KeepsIndex backing.hydrate ls ↔
      ∀ ks, ks <+: ls → IndexAgrees (Transition.run step backing.hydrate ks) := by
  obtain ⟨htidy, hget⟩ := hydrate_sound hsound
  have hnone : NoBlankKey backing.hydrate := fun t r hr => hblank r ((hget t r).mp hr).1
  exact Transition.stepsMeet_iff_of (I := fun s => Tidy s ∧ NoBlankKey s)
    (fun s hs => hs.1.indexAgrees hs.2)
    (fun s l hs hl => ⟨hs.1.step hl.1, hs.2.step hl⟩)
    (fun s l hs hagrees => keepsIndex_of_agrees hs.1 hagrees) ⟨htidy, hnone⟩

/-- A file that holds one task with a key. -/
def sampleFile : TaskBacking :=
  .file (some [(sampleParams "t" (some "k") "alice" "done").toRecord 0])

theorem sampleFile_sound : SoundContent sampleFile.stored where
  ids := by decide
  keys := List.pairwise_singleton _ _
  named := by
    intro r hr _ _
    rw [List.mem_singleton.mp hr]
    decide

theorem index_agrees_sample :
    IndexAgrees (Transition.run step sampleFile.hydrate [.delete none "t"]) := by
  refine (index_agrees sampleFile sampleFile_sound ?_ [.delete none "t"]).mp ?_ _
    (List.prefix_refl _)
  · intro r hr
    rw [List.mem_singleton.mp hr]
    decide
  · exact ⟨⟨trivial, fun _ _ _ hl => by cases hl⟩, trivial⟩

/-- **A stale key.** After a `save` under another key, and after an update that erases the key, the
old key still finds the record. -/
theorem index_stale :
    (¬ IndexAgrees (Transition.run step sampleFile.hydrate
      [.write (.save 0 none (sampleParams "t" (some "other") "alice" "done"))])) ∧
    ¬ IndexAgrees (Transition.run step sampleFile.hydrate
      [.write (.update 0 none "t" { idempotencyKey := some none })]) := by
  constructor
  · intro h
    obtain ⟨t, hr, hkey⟩ := (h "k" _).mp rfl
    exact absurd hkey (by decide)
  · intro h
    obtain ⟨t, hr, hkey⟩ := (h "k" _).mp rfl
    exact absurd hkey (by decide)

end TaskStore

end MapProtocol
