import MapProtocol.ControlPlane.ReceiptPersistence
import MapProtocol.ControlPlane.StoreRuns

/-!
# Runs of the receipt store

A receipt store is opened over a file or a table and then receives appends, some of whose writes
fail. `receipts_append_only` is about what its readers see meanwhile, `receipts_durable` about what
a store sees that is opened over the same file or table later.

A receipt that the store was opened with counts as one whose append returned.
-/

namespace MapProtocol

structure ReceiptAppend where
  receipt : ExecutionReceipt
  failure : Option WriteFailure

structure ReceiptRun where
  live     : BackedReceiptStore
  returned : List ExecutionReceipt

namespace ReceiptRun

def opened (backing : ReceiptBacking) : ReceiptRun :=
  ⟨BackedReceiptStore.create backing, backing.hydrate.list⟩

def step (s : ReceiptRun) (a : ReceiptAppend) : ReceiptRun :=
  let (outcome, live) := s.live.append a.failure a.receipt
  match outcome with
  | .ok _    => ⟨live, s.returned ++ [a.receipt]⟩
  | .error _ => ⟨live, s.returned⟩

/-- The store after a sequence of appends. -/
def after (backing : ReceiptBacking) (as : List ReceiptAppend) : ReceiptRun :=
  Transition.run step (opened backing) as

/-- The store that a restart would open. -/
def reopened (s : ReceiptRun) : ReceiptStore := s.live.backing.hydrate

variable {s : ReceiptRun} {a : ReceiptAppend}

/-! ## What an append does

The id decides: a taken one is compared with what is stored, a new one goes to the memory before it
is written. -/

theorem append_of_taken (b : BackedReceiptStore) (failure : Option WriteFailure)
    {receipt existing : ExecutionReceipt} (h : b.store.get receipt.receiptId = some existing) :
    b.append failure receipt =
      (throwIf (receiptJson (some existing) ≠ receiptJson (some receipt))
        ("Receipt conflict for immutable receipt id: " ++ receipt.receiptId), b) := by
  unfold BackedReceiptStore.append
  rw [ReceiptStore.append_of_get _ h]
  simp only [h]

theorem append_of_new (b : BackedReceiptStore) (failure : Option WriteFailure)
    {receipt : ExecutionReceipt} (h : b.store.receipts.get receipt.receiptId = none) :
    b.append failure receipt =
      (persist (failure.map WriteFailure.error),
        ⟨b.store.push receipt h, b.backing.persist failure (b.store.push receipt h)⟩) := by
  unfold BackedReceiptStore.append
  rw [ReceiptStore.append_of_new _ h]
  simp only [show b.store.get receipt.receiptId = none from h]

/-- **An append under a taken id** changes no store; it returns when the contents agree. -/
theorem step_of_taken {existing : ExecutionReceipt}
    (h : s.live.store.get a.receipt.receiptId = some existing) :
    s.step a =
      if receiptJson (some existing) = receiptJson (some a.receipt)
      then ⟨s.live, s.returned ++ [a.receipt]⟩ else s := by
  unfold step
  rw [append_of_taken s.live a.failure h]
  by_cases hsame : receiptJson (some existing) = receiptJson (some a.receipt)
  · simp [hsame, throwIf]
  · simp [hsame, throwIf]

/-- **An append under a new id** adds the receipt to the memory; it returns when the write does. -/
theorem step_of_new (h : s.live.store.receipts.get a.receipt.receiptId = none) :
    s.step a =
      ⟨⟨s.live.store.push a.receipt h,
          s.live.backing.persist a.failure (s.live.store.push a.receipt h)⟩,
        match a.failure with
        | none   => s.returned ++ [a.receipt]
        | some _ => s.returned⟩ := by
  unfold step
  rw [append_of_new s.live a.failure h]
  cases a.failure <;> rfl

theorem step_keyed (h : s.live.store.Keyed) (a : ReceiptAppend) :
    (s.step a).live.store.Keyed := by
  cases hget : s.live.store.get a.receipt.receiptId with
  | none =>
      rw [step_of_new hget]
      exact h.push hget
  | some existing =>
      rw [step_of_taken hget]
      split <;> exact h

theorem run_keyed (backing : ReceiptBacking) (as : List ReceiptAppend) :
    (after backing as).live.store.Keyed :=
  Transition.run_preserves (I := fun s : ReceiptRun => s.live.store.Keyed)
    (fun _ a h => step_keyed h a) as (ReceiptStore.keyed_loaded _)

end ReceiptRun

/-! ## In memory

Nothing is ever replaced or removed, whatever the backing does. -/

namespace ReceiptStore

/-- Everything that a reader was shown, whatever tenant it asks for, is shown again, and new
receipts come at the end of a list. -/
structure Extends (store store' : ReceiptStore) : Prop where
  get  : ∀ id tenantId r, store.getFor id tenantId = some r → store'.getFor id tenantId = some r
  list : ∀ tenantId, store.listFor tenantId <+: store'.listFor tenantId

theorem Extends.refl (store : ReceiptStore) : Extends store store :=
  ⟨fun _ _ _ h => h, fun _ => List.prefix_refl _⟩

theorem Extends.trans {s₁ s₂ s₃ : ReceiptStore} (h₁ : Extends s₁ s₂) (h₂ : Extends s₂ s₃) :
    Extends s₁ s₃ :=
  ⟨fun id t r h => h₂.get id t r (h₁.get id t r h), fun t => (h₁.list t).trans (h₂.list t)⟩

theorem extends_push {store : ReceiptStore} {receipt : ExecutionReceipt}
    (h : store.receipts.get receipt.receiptId = none) : Extends store (store.push receipt h) where
  get id tenantId r hr := by
    unfold getFor at hr ⊢
    obtain ⟨hget, hmatches⟩ := Option.filter_eq_some_iff.mp hr
    rw [get_push]
    split
    · rename_i hid
      subst hid
      have hnone : store.get receipt.receiptId = none := h
      rw [hnone] at hget
      cases hget
    · exact hr
  list tenantId := by
    unfold listFor
    rw [list_push, List.filter_append]
    exact List.prefix_append _ _

end ReceiptStore

namespace ReceiptRun

variable {s : ReceiptRun}
variable {receipt : ExecutionReceipt} {table : ReceiptTable}

theorem step_extends (s : ReceiptRun) (a : ReceiptAppend) :
    s.live.store.Extends (s.step a).live.store := by
  cases hget : s.live.store.get a.receipt.receiptId with
  | none =>
      rw [step_of_new hget]
      exact ReceiptStore.extends_push hget
  | some existing =>
      rw [step_of_taken hget]
      split <;> exact .refl _

theorem run_extends (s : ReceiptRun) (as : List ReceiptAppend) :
    s.live.store.Extends (Transition.run step s as).live.store := by
  induction as generalizing s with
  | nil => exact .refl _
  | cons a as ih => exact (step_extends s a).trans (ih (s.step a))

/-- **Append-only.** Open a store over any file or table and append to it any number of times. The
list and the index hold the same receipts, each id once; what readers were shown at any earlier
moment they are shown again, in the same order; a new receipt goes to the end; a taken id changes
nothing, and is refused when the contents differ. -/
theorem receipts_append_only (backing : ReceiptBacking) (as : List ReceiptAppend) :
    ((after backing as).live.store.list.map (·.receiptId)).Nodup ∧
    (∀ id r, (after backing as).live.store.get id = some r ↔
      r ∈ (after backing as).live.store.list ∧ r.receiptId = id) ∧
    (∀ ks, ks <+: as → (after backing ks).live.store.Extends (after backing as).live.store) ∧
    ∀ failure receipt,
      ((after backing as).live.store.get receipt.receiptId = none →
        ((after backing as).live.append failure receipt).2.store.list =
          (after backing as).live.store.list ++ [receipt]) ∧
      ∀ existing, (after backing as).live.store.get receipt.receiptId = some existing →
        ((after backing as).live.append failure receipt).2 = (after backing as).live ∧
        ((after backing as).live.append failure receipt).1 =
          if receiptJson (some existing) = receiptJson (some receipt) then .ok ()
          else .error ("Receipt conflict for immutable receipt id: " ++ receipt.receiptId) := by
  have hkeyed := run_keyed backing as
  refine ⟨hkeyed.nodup, fun id r => hkeyed.get_eq_some_iff, fun ks hks => ?_,
    fun failure receipt => ⟨fun hnew => ?_, fun existing htaken => ?_⟩⟩
  · obtain ⟨js, rfl⟩ := hks
    unfold after
    rw [Transition.run_append]
    exact run_extends _ js
  · rw [append_of_new _ failure hnew]
    exact ReceiptStore.list_push hnew
  · rw [append_of_taken _ failure htaken]
    refine ⟨rfl, ?_⟩
    by_cases hsame : receiptJson (some existing) = receiptJson (some receipt)
    · simp [hsame, throwIf]
    · simp [hsame, throwIf]

/-! ## On disk

A torn write leaves no file, or the table as it was. A receipt that is in memory already is not
written again, which is how a retry gets lost. -/

/-- **Durable**: a restart finds every receipt whose append returned, and lists them in the order in
which the memory does. -/
structure Durable (s : ReceiptRun) : Prop where
  present : ∀ r ∈ s.returned, ∃ kept, s.reopened.get r.receiptId = some kept ∧
    receiptJson (some kept) = receiptJson (some r)
  listed  : (s.live.store.list.filter fun r =>
    r.receiptId ∈ s.returned.map (·.receiptId)).Sublist s.reopened.list

/-- **The condition on an append.** A second append of a receipt finds it on disk. A new receipt
that is written has an id, and comes after every row of a table. A write does not truncate a file
that holds receipts whose append returned. -/
def Safe (s : ReceiptRun) (a : ReceiptAppend) : Prop :=
  match s.live.store.get a.receipt.receiptId with
  | some existing => receiptJson (some existing) = receiptJson (some a.receipt) →
      s.reopened.get a.receipt.receiptId ≠ none
  | none =>
      match s.live.backing, a.failure with
      | .file _, none              => a.receipt.receiptId ≠ ""
      | .file _, some (.refused _) => True
      | .file _, some (.torn _)    => s.returned = []
      | .db table, none            =>
          a.receipt.receiptId ≠ "" ∧ ∀ row ∈ table.rows, row.Precedes a.receipt
      | .db _, some _              => True

/-- The disk holds a part of the memory, with every receipt whose append returned; a table holds
nothing else. -/
structure Inv (s : ReceiptRun) : Prop where
  keyed : s.live.store.Keyed
  kept  : s.reopened.list.Sublist s.live.store.list
  held  : ∀ r ∈ s.returned, ∃ kept, s.reopened.get r.receiptId = some kept ∧
    receiptJson (some kept) = receiptJson (some r)
  rows  : ∀ table, s.live.backing = .db table →
    ∀ row ∈ table.rows, row.receiptId ∈ s.returned.map (·.receiptId)

theorem reopened_keyed (s : ReceiptRun) : s.reopened.Keyed := ReceiptStore.keyed_loaded _

theorem inv_opened (backing : ReceiptBacking) : Inv (opened backing) where
  keyed := ReceiptStore.keyed_loaded _
  kept := List.Sublist.refl _
  held r hr := ⟨r, (reopened_keyed _).get_eq_some_iff.mpr ⟨hr, rfl⟩, rfl⟩
  rows table hdb row hrow := by
    obtain rfl : backing = .db table := hdb
    show _ ∈ (ReceiptBacking.db table).hydrate.list.map _
    rw [ReceiptBacking.hydrate_db]
    exact List.mem_map_of_mem ((List.mem_insertionSort _).mpr hrow)

theorem Inv.durable (h : Inv s) : Durable s where
  present := h.held
  listed := by
    refine filter_sublist_of_keys h.kept h.keyed.nodup fun x _ hx => ?_
    obtain ⟨r, hr, hid⟩ := List.mem_map.mp (of_decide_eq_true hx)
    obtain ⟨kept, hkept, _⟩ := h.held r hr
    obtain ⟨hmem, hkid⟩ := (reopened_keyed s).get_eq_some_iff.mp hkept
    exact List.mem_map.mpr ⟨kept, hmem, hkid.trans hid⟩

theorem Inv.get_reopened (h : Inv s) {id : String} {kept : ExecutionReceipt}
    (hkept : s.reopened.get id = some kept) : s.live.store.get id = some kept := by
  obtain ⟨hmem, hid⟩ := (reopened_keyed s).get_eq_some_iff.mp hkept
  exact h.keyed.get_eq_some_iff.mpr ⟨h.kept.subset hmem, hid⟩

/-! ### A taken id -/

theorem inv_taken (h : Inv s) {existing : ExecutionReceipt}
    (hget : s.live.store.get a.receipt.receiptId = some existing) (hsafe : Safe s a) :
    Inv (s.step a) := by
  unfold Safe at hsafe
  simp only [hget] at hsafe
  rw [step_of_taken hget]
  split
  · rename_i hsame
    refine ⟨h.keyed, h.kept, fun r hr => ?_, fun table hdb row hrow => ?_⟩
    · rcases List.mem_append.mp hr with hold | hnew
      · exact h.held r hold
      · obtain rfl := List.mem_singleton.mp hnew
        obtain ⟨kept, hkept⟩ := Option.ne_none_iff_exists'.mp (hsafe hsame)
        have hheld := h.get_reopened hkept
        rw [hget] at hheld
        obtain rfl := Option.some.inj hheld
        exact ⟨existing, hkept, hsame⟩
    · rw [List.map_append]
      exact List.mem_append_left _ (h.rows table hdb row hrow)
  · exact h

theorem safe_of_taken {existing : ExecutionReceipt}
    (hget : s.live.store.get a.receipt.receiptId = some existing) (hdurable : Durable (s.step a)) :
    Safe s a := by
  unfold Safe
  simp only [hget]
  intro hsame hnone
  rw [step_of_taken hget, if_pos hsame] at hdurable
  obtain ⟨kept, hkept, _⟩ := hdurable.present a.receipt (by simp)
  have hlost : s.reopened.get a.receipt.receiptId = some kept := hkept
  rw [hnone] at hlost
  cases hlost

/-! ### A write that fails -/

theorem inv_unsaved (h : Inv s) (hnew : s.live.store.receipts.get receipt.receiptId = none) :
    Inv ⟨⟨s.live.store.push receipt hnew, s.live.backing⟩, s.returned⟩ where
  keyed := h.keyed.push hnew
  kept := by
    rw [ReceiptStore.list_push]
    exact h.kept.trans (List.sublist_append_left _ _)
  held := h.held
  rows := h.rows

theorem inv_torn (h : Inv s) (hnew : s.live.store.receipts.get receipt.receiptId = none)
    (hnothing : s.returned = []) :
    Inv ⟨⟨s.live.store.push receipt hnew, .file none⟩, s.returned⟩ where
  keyed := h.keyed.push hnew
  kept := List.nil_sublist _
  held r hr := by
    rw [hnothing] at hr
    cases hr
  rows table hdb := by cases hdb

/-! ### A write that succeeds -/

/-- The disk gets the receipt, loses nothing, and is still a part of the memory. -/
theorem Inv.written (h : Inv s) {receipt : ExecutionReceipt}
    (hnew : s.live.store.receipts.get receipt.receiptId = none) {backing : ReceiptBacking}
    (hpart : backing.hydrate.list.Sublist (s.live.store.list ++ [receipt]))
    (hold : ∀ r ∈ s.reopened.list, r ∈ backing.hydrate.list)
    (hself : receipt ∈ backing.hydrate.list)
    (hrows : ∀ table, backing = .db table →
      ∀ row ∈ table.rows, row.receiptId ∈ (s.returned ++ [receipt]).map (·.receiptId)) :
    Inv ⟨⟨s.live.store.push receipt hnew, backing⟩, s.returned ++ [receipt]⟩ where
  keyed := h.keyed.push hnew
  kept := by
    rw [ReceiptStore.list_push]
    exact hpart
  held r hr := by
    have hkeyed : backing.hydrate.Keyed := ReceiptStore.keyed_loaded _
    rcases List.mem_append.mp hr with hr | hr
    · obtain ⟨kept, hkept, hsame⟩ := h.held r hr
      obtain ⟨hmem, hid⟩ := (reopened_keyed s).get_eq_some_iff.mp hkept
      exact ⟨kept, hkeyed.get_eq_some_iff.mpr ⟨hold kept hmem, hid⟩, hsame⟩
    · obtain rfl := List.mem_singleton.mp hr
      exact ⟨r, hkeyed.get_eq_some_iff.mpr ⟨hself, rfl⟩, rfl⟩
  rows := hrows

theorem inv_file (h : Inv s) {records : Option (List ExecutionReceipt)}
    (hnew : s.live.store.receipts.get receipt.receiptId = none)
    (hfile : s.live.backing = .file records) (hid : receipt.receiptId ≠ "") :
    Inv ⟨⟨s.live.store.push receipt hnew, .file (some (s.live.store.push receipt hnew).list)⟩,
      s.returned ++ [receipt]⟩ := by
  have hlist : (ReceiptBacking.file (some (s.live.store.push receipt hnew).list)).hydrate.list =
      (s.live.store.list ++ [receipt]).filter fun r => r.receiptId ≠ "" := by
    rw [ReceiptBacking.hydrate_file (h.keyed.push hnew), ReceiptStore.list_push]
  refine h.written hnew ?_ (fun r hr => ?_) ?_ fun table hdb => by cases hdb
  · rw [hlist]
    exact List.filter_sublist
  · have hname : r.receiptId ≠ "" := by
      unfold reopened at hr
      rw [hfile] at hr
      exact ReceiptBacking.named_of_file hr
    rw [hlist, List.mem_filter]
    exact ⟨List.mem_append_left _ (h.kept.subset hr), decide_eq_true hname⟩
  · rw [hlist, List.mem_filter]
    exact ⟨by simp, decide_eq_true hid⟩

theorem Inv.fresh_row (h : Inv s) (hnew : s.live.store.receipts.get receipt.receiptId = none)
    (hdb : s.live.backing = .db table) :
    receipt.receiptId ∉ table.rows.map (·.receiptId) := by
  intro hmem
  obtain ⟨row, hrow, hid⟩ := List.mem_map.mp hmem
  have hlisted : row ∈ s.reopened.list := by
    unfold reopened
    rw [hdb, ReceiptBacking.hydrate_db]
    exact (List.mem_insertionSort _).mpr hrow
  have hget := h.keyed.get_eq_some_iff.mpr ⟨h.kept.subset hlisted, hid⟩
  have hnone : s.live.store.get receipt.receiptId = none := hnew
  rw [hnone] at hget
  cases hget

theorem inv_db (h : Inv s) (hnew : s.live.store.receipts.get receipt.receiptId = none)
    (hdb : s.live.backing = .db table) (hlast : ∀ row ∈ table.rows, row.Precedes receipt) :
    Inv ⟨⟨s.live.store.push receipt hnew, .db (table.insertOrIgnore receipt)⟩,
      s.returned ++ [receipt]⟩ := by
  have hrows := ReceiptTable.insertOrIgnore_rows (h.fresh_row hnew hdb)
  have hbefore : s.reopened.list = table.rows.insertionSort ExecutionReceipt.Precedes := by
    unfold reopened
    rw [hdb, ReceiptBacking.hydrate_db]
  have hlist : (ReceiptBacking.db (table.insertOrIgnore receipt)).hydrate.list =
      s.reopened.list ++ [receipt] := by
    rw [ReceiptBacking.hydrate_db, hrows, insertionSort_append hlast, hbefore]
  refine h.written hnew ?_ (fun r hr => ?_) ?_ fun table' hdb' row hrow => ?_
  · rw [hlist]
    exact h.kept.append_right [receipt]
  · rw [hlist]
    exact List.mem_append_left _ hr
  · rw [hlist]
    simp
  · obtain rfl := ReceiptBacking.db.inj hdb'
    rw [hrows] at hrow
    rw [List.map_append]
    rcases List.mem_append.mp hrow with hold | hself
    · exact List.mem_append_left _ (h.rows table hdb row hold)
    · rw [List.mem_singleton.mp hself]
      simp

/-! ### One append -/

theorem step_inv (h : Inv s) (hsafe : Safe s a) : Inv (s.step a) := by
  rcases Option.eq_none_or_eq_some (s.live.store.get a.receipt.receiptId) with hget | ⟨existing, hget⟩
  · unfold Safe at hsafe
    simp only [hget] at hsafe
    have hnew : s.live.store.receipts.get a.receipt.receiptId = none := hget
    rw [step_of_new hnew]
    cases hbacking : s.live.backing with
    | file records =>
        -- the file is rewritten from the memory, kept as it was, or left truncated
        cases hfailure : a.failure with
        | none =>
            simp only [hbacking, hfailure] at hsafe
            exact inv_file h hnew hbacking hsafe
        | some failure =>
            cases failure with
            | refused e =>
                have hinv := inv_unsaved h hnew
                rw [hbacking] at hinv
                exact hinv
            | torn e =>
                simp only [hbacking, hfailure] at hsafe
                exact inv_torn h hnew hsafe
    | db table =>
        cases hfailure : a.failure with
        | none =>
            simp only [hbacking, hfailure] at hsafe
            dsimp only
            rw [ReceiptBacking.persist_db_push, if_neg hsafe.1]
            exact inv_db h hnew hbacking hsafe.2
        | some failure =>
            have hinv := inv_unsaved h hnew
            rw [hbacking] at hinv
            exact hinv
  · exact inv_taken h hget hsafe

/-- A row comes before a receipt that is listed after it. -/
theorem precedes_of_durable (h : Inv s) {receipt : ExecutionReceipt} {table : ReceiptTable}
    (hnew : s.live.store.receipts.get receipt.receiptId = none) (hdb : s.live.backing = .db table)
    (hdurable : Durable ⟨⟨s.live.store.push receipt hnew, .db (table.insertOrIgnore receipt)⟩,
      s.returned ++ [receipt]⟩) : ∀ row ∈ table.rows, row.Precedes receipt := by
  intro row hrow
  have hlisted : row ∈ s.live.store.list := by
    refine h.kept.subset ?_
    unfold reopened
    rw [hdb, ReceiptBacking.hydrate_db]
    exact (List.mem_insertionSort _).mpr hrow
  have hsorted := hdurable.listed
  unfold reopened at hsorted
  rw [ReceiptStore.list_push, ReceiptBacking.hydrate_db, List.filter_append] at hsorted
  have hold : [row].Sublist (s.live.store.list.filter fun r =>
      r.receiptId ∈ (s.returned ++ [receipt]).map (·.receiptId)) := by
    rw [List.singleton_sublist, List.mem_filter]
    refine ⟨hlisted, decide_eq_true ?_⟩
    rw [List.map_append]
    exact List.mem_append_left _ (h.rows table hdb row hrow)
  have hself : [receipt].Sublist ([receipt].filter fun r =>
      r.receiptId ∈ (s.returned ++ [receipt]).map (·.receiptId)) := by simp
  -- the memory lists the row before the receipt, and a restart lists them sorted
  have hpair := (hold.append hself).trans hsorted
  have hordered := (List.pairwise_insertionSort ExecutionReceipt.Precedes _).sublist hpair
  exact (List.pairwise_cons.mp hordered).1 receipt (by simp)

/-- **Nothing else needs to be excluded.** -/
theorem safe_of_durable (h : Inv s) (hdurable : Durable (s.step a)) : Safe s a := by
  rcases Option.eq_none_or_eq_some (s.live.store.get a.receipt.receiptId) with hget | ⟨existing, hget⟩
  · have hnew : s.live.store.receipts.get a.receipt.receiptId = none := hget
    rw [step_of_new hnew] at hdurable
    unfold Safe
    simp only [hget]
    cases hbacking : s.live.backing with
    | file records =>
        rw [hbacking] at hdurable
        cases hfailure : a.failure with
        | none =>
            simp only [hfailure] at hdurable
            obtain ⟨kept, hkept, _⟩ := hdurable.present a.receipt (by simp)
            obtain ⟨hmem, hid⟩ := (reopened_keyed _).get_eq_some_iff.mp hkept
            exact hid ▸ ReceiptBacking.named_of_file hmem
        | some failure =>
            cases failure with
            | refused e => trivial
            | torn e =>
                -- a truncated file holds nothing, so that no append has returned yet
                simp only [hfailure] at hdurable
                refine List.eq_nil_iff_forall_not_mem.mpr fun r hr => ?_
                obtain ⟨kept, hkept, _⟩ := hdurable.present r hr
                cases hkept
    | db table =>
        rw [hbacking] at hdurable
        cases hfailure : a.failure with
        | some failure => trivial
        | none =>
            simp only [hfailure] at hdurable
            rw [ReceiptBacking.persist_db_push hnew] at hdurable
            by_cases hid : a.receipt.receiptId = ""
            · -- `persist` skips the receipt, so that a restart does not find it
              rw [if_pos hid, ← hbacking] at hdurable
              obtain ⟨kept, hkept, _⟩ := hdurable.present a.receipt (by simp)
              have hheld := h.get_reopened hkept
              rw [hget] at hheld
              cases hheld
            · rw [if_neg hid] at hdurable
              exact ⟨hid, precedes_of_durable h hnew hbacking hdurable⟩
  · exact safe_of_taken hget hdurable

/-- **Receipt durability.** In a run over a file or table the receipts whose append returned are
durable at every moment exactly when every append is safe. -/
theorem receipts_durable (backing : ReceiptBacking) (as : List ReceiptAppend) :
    Transition.StepsMeet step Safe (opened backing) as ↔
      ∀ ks, ks <+: as → Durable (after backing ks) :=
  Transition.stepsMeet_iff_of (I := Inv) (fun _ h => h.durable) (fun _ _ h => step_inv h)
    (fun _ _ h => safe_of_durable h) (inv_opened backing)

/-- **A retried append is lost**, whatever the backing: the first try puts the receipt into the
memory, and the second finds it there and returns. -/
theorem retry_not_durable {backing : ReceiptBacking} (e : String)
    (hnew : backing.hydrate.receipts.get receipt.receiptId = none) :
    ¬ Durable (after backing [⟨receipt, some (.refused e)⟩, ⟨receipt, none⟩]) := by
  intro hdurable
  have hstep : (opened backing).step ⟨receipt, some (.refused e)⟩ =
      ⟨⟨backing.hydrate.push receipt hnew, backing⟩, backing.hydrate.list⟩ := by
    rw [step_of_new (s := opened backing) (a := ⟨receipt, some (.refused e)⟩) hnew]
    cases backing <;> rfl
  have htaken : (backing.hydrate.push receipt hnew).get receipt.receiptId = some receipt := by
    rw [ReceiptStore.get_push, if_pos rfl]
  unfold after at hdurable
  rw [Transition.run_cons, hstep, Transition.run_cons] at hdurable
  have hsafe := safe_of_taken (a := ⟨receipt, none⟩) htaken hdurable
  unfold Safe at hsafe
  simp only [htaken] at hsafe
  exact hsafe trivial hnew

/-- So it is with a new file and with a new table. -/
theorem retry_lost :
    (¬ Durable (after (.file none)
      [⟨(TaskStore.sampleParams "t" none "alice" "done").receipt, some (.refused "EBUSY")⟩,
        ⟨(TaskStore.sampleParams "t" none "alice" "done").receipt, none⟩])) ∧
    ¬ Durable (after (.db ⟨[], List.nodup_nil⟩)
      [⟨(TaskStore.sampleParams "t" none "alice" "done").receipt, some (.refused "EBUSY")⟩,
        ⟨(TaskStore.sampleParams "t" none "alice" "done").receipt, none⟩]) :=
  ⟨retry_not_durable "EBUSY" rfl, retry_not_durable "EBUSY" rfl⟩

end ReceiptRun

end MapProtocol
