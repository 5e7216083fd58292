import Mathlib.Data.List.Sort
import Mathlib.Data.String.Basic
import MapProtocol.ControlPlane.StoreLaws
import MapProtocol.Lib.Transition

/-!
# The file and the database of the receipt store

`persist` writes the whole list to the JSON file, but only the newest receipt to the `receipts`
table; `hydrate` reads either back when a store is opened.

The store only ever appends, in memory (`receipts_append_only`). On disk a gap can be left: an
append whose write fails has put its receipt in the memory, so a second try finds it there and
returns, and with the table no later append writes it either. `receipts_durable` says when no
receipt is lost.
-/

namespace MapProtocol

/-! ## Lists without repetition -/

section

variable {α κ : Type*} {l m : List α}

/-- Take the elements of `m` whose keys occur in the sublist `l`: they come in the order of `l`. -/
theorem filter_sublist_of_keys {f : α → κ} {p : α → Bool} (h : l.Sublist m)
    (hm : (m.map f).Nodup) (hp : ∀ x ∈ m, p x = true → f x ∈ l.map f) : (m.filter p).Sublist l := by
  induction h with
  | slnil => exact List.Sublist.refl _
  | @cons l m a h ih =>
      obtain ⟨hfresh, hm⟩ := List.nodup_cons.mp hm
      have ha : ¬ p a = true := fun hpa => hfresh ((h.map f).subset (hp a List.mem_cons_self hpa))
      rw [List.filter_cons_of_neg ha]
      exact ih hm fun x hx => hp x (List.mem_cons_of_mem a hx)
  | @cons_cons l m a h ih =>
      obtain ⟨hfresh, hm⟩ := List.nodup_cons.mp hm
      have hrest : (m.filter p).Sublist l := by
        refine ih hm fun x hx hpx => ?_
        rcases List.mem_cons.mp (hp x (List.mem_cons_of_mem a hx) hpx) with heq | hmem
        · exact absurd (heq ▸ List.mem_map_of_mem hx) hfresh
        · exact hmem
      rw [List.filter_cons]
      split
      · exact hrest.cons_cons a
      · exact hrest.cons a

variable {r : α → α → Prop} [DecidableRel r] {x : α}

theorem orderedInsert_append {a : α} (h : r a x) :
    (l ++ [x]).orderedInsert r a = l.orderedInsert r a ++ [x] := by
  induction l with
  | nil => simp [h]
  | cons b l ih =>
      rw [List.cons_append, List.orderedInsert_cons, List.orderedInsert_cons, ih]
      split <;> rfl

theorem insertionSort_append (h : ∀ a ∈ l, r a x) :
    (l ++ [x]).insertionSort r = l.insertionSort r ++ [x] := by
  induction l with
  | nil => simp
  | cons a l ih =>
      rw [List.cons_append, List.insertionSort_cons, List.insertionSort_cons,
        ih fun b hb => h b (List.mem_cons_of_mem a hb)]
      exact orderedInsert_append (h a List.mem_cons_self)

end

/-! ## The list and the map -/

namespace ReceiptStore

variable {store : ReceiptStore}

theorem list_eq_values (store : ReceiptStore) : store.list = store.receipts.values := by
  unfold list
  rw [store.ordered, OrderedMap.filterMap_get_keys]

theorem list_push {receipt : ExecutionReceipt} (h : store.receipts.get receipt.receiptId = none) :
    (store.push receipt h).list = store.list ++ [receipt] := by
  rw [list_eq_values, list_eq_values]
  exact OrderedMap.values_set_of_get_none h

/-- Receipts stand under their own ids. -/
def Keyed (store : ReceiptStore) : Prop :=
  ∀ id receipt, store.get id = some receipt → receipt.receiptId = id

theorem keyed_empty : Keyed empty := by
  intro id receipt h
  cases h

theorem Keyed.push (hkeyed : Keyed store) {receipt : ExecutionReceipt}
    (h : store.receipts.get receipt.receiptId = none) : Keyed (store.push receipt h) := by
  intro id r hr
  rw [get_push] at hr
  split at hr
  · rename_i hid
    obtain rfl := Option.some.inj hr
    exact hid
  · exact hkeyed id r hr

theorem Keyed.get_eq_some_iff (h : Keyed store) {id : String} {receipt : ExecutionReceipt} :
    store.get id = some receipt ↔ receipt ∈ store.list ∧ receipt.receiptId = id := by
  rw [list_eq_values]
  constructor
  · intro hget
    exact ⟨OrderedMap.mem_values.mpr ⟨id, hget⟩, h id receipt hget⟩
  · rintro ⟨hmem, rfl⟩
    obtain ⟨k, hk⟩ := OrderedMap.mem_values.mp hmem
    rw [h k receipt hk]
    exact hk

theorem Keyed.nodup (h : Keyed store) : (store.list.map (·.receiptId)).Nodup := by
  have hids : store.list.map (·.receiptId) = store.receipts.entries.map Prod.fst := by
    rw [list_eq_values, OrderedMap.values, List.map_map]
    refine List.map_congr_left fun e he => ?_
    exact h e.1 e.2 (OrderedMap.get_eq_some.mpr he)
  rw [hids]
  exact store.receipts.nodup

/-! ## Opening a store -/

/-- One receipt of a file or table: the first of an id is kept. -/
def load (store : ReceiptStore) (receipt : ExecutionReceipt) : ReceiptStore :=
  match h : store.receipts.get receipt.receiptId with
  | some _ => store
  | none   => store.push receipt h

theorem load_cases (store : ReceiptStore) (receipt : ExecutionReceipt) :
    (store.get receipt.receiptId ≠ none ∧ store.load receipt = store) ∨
    ∃ h : store.receipts.get receipt.receiptId = none,
      store.load receipt = store.push receipt h := by
  unfold load
  split
  · rename_i existing h
    have hsome : store.get receipt.receiptId = some existing := h
    exact .inl ⟨by simp [hsome], rfl⟩
  · rename_i h
    exact .inr ⟨h, rfl⟩

theorem keyed_loaded (records : List ExecutionReceipt) : Keyed (records.foldl load empty) := by
  induction records using List.reverseRec with
  | nil => exact keyed_empty
  | append_singleton rs r ih =>
      rw [List.foldl_append, List.foldl_cons, List.foldl_nil]
      rcases (rs.foldl load empty).load_cases r with ⟨_, heq⟩ | ⟨hnew, heq⟩
      · rw [heq]
        exact ih
      · rw [heq]
        exact ih.push hnew

theorem loaded_sublist (records : List ExecutionReceipt) :
    (records.foldl load empty).list.Sublist records := by
  induction records using List.reverseRec with
  | nil => exact List.Sublist.refl _
  | append_singleton rs r ih =>
      rw [List.foldl_append, List.foldl_cons, List.foldl_nil]
      rcases (rs.foldl load empty).load_cases r with ⟨_, heq⟩ | ⟨hnew, heq⟩
      · rw [heq]
        exact ih.trans (List.sublist_append_left rs [r])
      · rw [heq, list_push]
        exact ih.append_right [r]

theorem loaded_of_nodup {records : List ExecutionReceipt}
    (h : (records.map (·.receiptId)).Nodup) : (records.foldl load empty).list = records := by
  induction records using List.reverseRec with
  | nil => rfl
  | append_singleton rs r ih =>
      rw [List.map_append, List.map_singleton, List.nodup_append] at h
      obtain ⟨hrs, _, hnew⟩ := h
      rw [List.foldl_append, List.foldl_cons, List.foldl_nil]
      rcases (rs.foldl load empty).load_cases r with ⟨hsome, _⟩ | ⟨hnone, heq⟩
      · obtain ⟨existing, hget⟩ := Option.ne_none_iff_exists'.mp hsome
        obtain ⟨hmem, hid⟩ := (keyed_loaded rs).get_eq_some_iff.mp hget
        rw [ih hrs] at hmem
        exact absurd hid (hnew _ (List.mem_map_of_mem hmem) r.receiptId (by simp))
      · rw [heq, list_push, ih hrs]

end ReceiptStore

/-! ## Backings -/

/-- The `receipts` table. A row is the receipt of its `payload_json`: `persist` takes the other
columns from it too. The id is the primary key. -/
structure ReceiptTable where
  rows  : List ExecutionReceipt
  nodup : (rows.map (·.receiptId)).Nodup

namespace ReceiptTable

/-- `INSERT OR IGNORE`. -/
def insertOrIgnore (table : ReceiptTable) (receipt : ExecutionReceipt) : ReceiptTable :=
  if h : receipt.receiptId ∈ table.rows.map (·.receiptId) then table
  else
    { rows := table.rows ++ [receipt]
      nodup := by
        rw [List.map_append, List.map_singleton]
        exact List.nodup_append.mpr ⟨table.nodup, List.nodup_singleton _, by
          rintro a ha b hb rfl
          exact h (List.mem_singleton.mp hb ▸ ha)⟩ }

theorem insertOrIgnore_rows {table : ReceiptTable} {receipt : ExecutionReceipt}
    (h : receipt.receiptId ∉ table.rows.map (·.receiptId)) :
    (table.insertOrIgnore receipt).rows = table.rows ++ [receipt] := by
  unfold insertOrIgnore
  rw [dif_neg h]

end ReceiptTable

/-- `ORDER BY timestamp ASC, receipt_id ASC`. -/
def ExecutionReceipt.Precedes (a b : ExecutionReceipt) : Prop :=
  a.timestamp < b.timestamp ∨ (a.timestamp = b.timestamp ∧ a.receiptId ≤ b.receiptId)

instance : DecidableRel ExecutionReceipt.Precedes :=
  fun _ _ => inferInstanceAs (Decidable (_ ∨ _))

instance : Std.Total ExecutionReceipt.Precedes where
  total a b := by
    rcases lt_trichotomy a.timestamp b.timestamp with h | h | h
    · exact .inl (.inl h)
    · rcases le_total a.receiptId b.receiptId with hid | hid
      · exact .inl (.inr ⟨h, hid⟩)
      · exact .inr (.inr ⟨h.symm, hid⟩)
    · exact .inr (.inl h)

instance : IsTrans ExecutionReceipt ExecutionReceipt.Precedes where
  trans a b c := by
    rintro (hab | ⟨hab, hid⟩) (hbc | ⟨hbc, hid'⟩)
    · exact .inl (hab.trans hbc)
    · exact .inl (hbc ▸ hab)
    · exact .inl (hab ▸ hbc)
    · exact .inr ⟨hab.trans hbc, hid.trans hid'⟩

/-- What a store is backed by. A file without readable receipts holds `none`. -/
inductive ReceiptBacking where
  | file (records : Option (List ExecutionReceipt))
  | db (table : ReceiptTable)

/-- How a write fails: before it changes anything, or after the file was truncated. A transaction
that is torn is rolled back. -/
inductive WriteFailure where
  | refused (error : String)
  | torn (error : String)

def WriteFailure.error : WriteFailure → String
  | .refused e => e
  | .torn e    => e

namespace ReceiptBacking

/-- The receipts that `hydrate` reads, in order. -/
def stored : ReceiptBacking → List ExecutionReceipt
  | .file none           => []
  | .file (some records) => records.filter fun receipt => receipt.receiptId ≠ ""
  | .db table            => table.rows.insertionSort ExecutionReceipt.Precedes

def hydrate (backing : ReceiptBacking) : ReceiptStore :=
  backing.stored.foldl ReceiptStore.load .empty

/-- The backing after `persist`. -/
def persist (backing : ReceiptBacking) (failure : Option WriteFailure) (store : ReceiptStore) :
    ReceiptBacking :=
  match backing, failure with
  | .file _, none                  => .file (some store.list)
  | .file records, some (.refused _) => .file records
  | .file _, some (.torn _)        => .file none
  | .db table, some _              => .db table
  | .db table, none                =>
      match store.order.getLast? with
      | none          => .db table
      | some newestId =>
          if newestId = "" then .db table
          else match store.get newestId with
            | none        => .db table
            | some newest => .db (table.insertOrIgnore newest)

theorem hydrate_db (table : ReceiptTable) :
    (ReceiptBacking.db table).hydrate.list =
      table.rows.insertionSort ExecutionReceipt.Precedes := by
  refine ReceiptStore.loaded_of_nodup ?_
  exact ((List.perm_insertionSort _ _).map _).nodup_iff.mpr table.nodup

theorem hydrate_file {store : ReceiptStore} (h : store.Keyed) :
    (ReceiptBacking.file (some store.list)).hydrate.list =
      store.list.filter fun receipt => receipt.receiptId ≠ "" := by
  refine ReceiptStore.loaded_of_nodup ?_
  exact (List.filter_sublist.map _).nodup h.nodup

theorem named_of_file {records : Option (List ExecutionReceipt)} {receipt : ExecutionReceipt}
    (h : receipt ∈ (ReceiptBacking.file records).hydrate.list) : receipt.receiptId ≠ "" := by
  have hstored := (ReceiptStore.loaded_sublist _).subset h
  cases records with
  | none => cases hstored
  | some records => exact of_decide_eq_true (List.mem_filter.mp hstored).2

theorem persist_db_push {table : ReceiptTable} {store : ReceiptStore} {receipt : ExecutionReceipt}
    (h : store.receipts.get receipt.receiptId = none) :
    (ReceiptBacking.db table).persist none (store.push receipt h) =
      if receipt.receiptId = "" then .db table else .db (table.insertOrIgnore receipt) := by
  have hlast : (store.push receipt h).order.getLast? = some receipt.receiptId :=
    List.getLast?_concat
  have hget : (store.push receipt h).get receipt.receiptId = some receipt := by
    rw [ReceiptStore.get_push, if_pos rfl]
  unfold persist
  simp only [hlast, hget]

end ReceiptBacking

structure BackedReceiptStore where
  store   : ReceiptStore
  backing : ReceiptBacking

namespace BackedReceiptStore

/-- `new ReceiptStore(options)`. -/
def create (backing : ReceiptBacking) : BackedReceiptStore := ⟨backing.hydrate, backing⟩

/-- `append`, with the file or database: a receipt whose id is taken does not get as far as
`persist`. -/
def append (b : BackedReceiptStore) (failure : Option WriteFailure) (receipt : ExecutionReceipt) :
    Except String Unit × BackedReceiptStore :=
  let (outcome, store) := b.store.append (failure.map WriteFailure.error) receipt
  match b.store.get receipt.receiptId with
  | some _ => (outcome, ⟨store, b.backing⟩)
  | none   => (outcome, ⟨store, b.backing.persist failure store⟩)

end BackedReceiptStore

end MapProtocol
