import MapProtocol.Sdk.ReceiptLookups

/-!
# Receipts by task in Python

`InMemoryStorage` with its limit: `save_receipt` evicts the receipts that came first, and with each
the id that is kept for its task. There is no call that deletes a receipt. The last section has the
two stores together (`receipts_found_iff`).
-/

namespace MapProtocol.Sdk

open Transition

namespace Python

open Py

/-- A receipt whose task id, where it has one, is a text, as its own id is. -/
structure Receipt extends Identified "receipt_id" where
  taskText : ∀ v, OrderedMap.getEntries "task_id" members = some v → v.truthy = true →
    ∃ s, v = .str s

def StorageResult.data? : StorageResult → Option Dict
  | .record data => some data
  | _            => none

def taskOf (receipt : Dict) : Option String :=
  match member "task_id" receipt with
  | .str taskId => some taskId
  | _           => none

/-- The loop of `_evict_receipts`. -/
def evictReceipts (maxReceipts : Int) :
    List String → OrderedMap String Dict → OrderedMap String String →
      OrderedMap String Dict × OrderedMap String String × List String
  | [], receipts, taskReceipts            => (receipts, taskReceipts, [])
  | oldestId :: index, receipts, taskReceipts =>
      if maxReceipts < receipts.entries.length then
        evictReceipts maxReceipts index (receipts.delete oldestId)
          (match given ((receipts.get oldestId).bind taskOf) with
            | some taskId => taskReceipts.delete taskId
            | none        => taskReceipts)
      else (receipts, taskReceipts, oldestId :: index)

/-- `save_receipt`, with the limit. A receipt that is not stored evicts nothing. -/
def InMemoryStorage.saveReceiptWithin (maxReceipts : Int) (s : InMemoryStorage)
    (receipt : Receipt) : InMemoryStorage × StorageResult :=
  match s.saveReceipt receipt.toIdentified with
  | (s, .record data) =>
      let evicted := evictReceipts maxReceipts s.receiptIndex s.receipts s.taskReceipts
      ({ s with
          receipts     := evicted.1
          taskReceipts := evicted.2.1
          receiptIndex := evicted.2.2 }, .record data)
  | failed => failed

/-- A storage, and what was saved in it, the latest first. -/
structure ReceiptRun where
  storage : InMemoryStorage           := {}
  saves   : List (String × Dict) := []

namespace ReceiptRun

variable (maxReceipts : Int)

def save (s : ReceiptRun) (receipt : Receipt) : ReceiptRun where
  storage := (s.storage.saveReceiptWithin maxReceipts receipt).1
  saves   := match receipt.id? with
    | some id => (id, receipt.members) :: s.saves
    | none    => s.saves

def shelf (s : ReceiptRun) : Shelf String String Dict where
  records := s.storage.receipts
  index   := s.storage.taskReceipts
  written := s.saves

/-- **A lookup by task** returns the receipt of the task that was saved last, of those that are
stored, and fails only where none of the task is stored. -/
def FindsLatest (s : ReceiptRun) : Prop :=
  s.shelf.Finds taskOf fun taskId => (s.storage.getReceiptByTaskId taskId).data?

/-- The id that a save evicts: of all, the one that came first, if the storage is full and the id is
new. -/
def evicts (s : ReceiptRun) (id : String) : Option String :=
  if s.storage.receipts.get id = none ∧
      s.storage.receipts.entries.length = maxReceipts.toNat then
    (s.storage.receiptIndex ++ [id]).head?
  else none

/-- The saves that keep the index right. -/
def KeepsIndex (s : ReceiptRun) (receipt : Receipt) : Prop :=
  match receipt.id? with
  | none    => True
  | some id =>
      (0 < maxReceipts → taskOf receipt.members ≠ some "") ∧
        s.shelf.Replaceable taskOf id receipt.members ∧
          ∀ oldest, s.evicts maxReceipts id = some oldest →
            Shelf.Alone taskOf (s.storage.receipts.set id receipt.members) oldest

/-- What the saves keep, where the limit is positive: the index of tasks is right, that of receipts
has the ids of what is stored, there are not too many, and none is of the empty task. -/
structure Kept (s : ReceiptRun) : Prop where
  index   : s.storage.receiptIndex.Perm (s.storage.receipts.entries.map Prod.fst)
  within  : s.storage.receipts.entries.length ≤ maxReceipts.toNat
  indexed : s.shelf.Indexed taskOf
  tasked  : ∀ id receipt, s.storage.receipts.get id = some receipt → taskOf receipt ≠ some ""

end ReceiptRun

/-! ## Saving -/

section

variable {maxReceipts : Int} {index : List String} {receipts : OrderedMap String Dict}
  {taskReceipts : OrderedMap String String} {id oldest : String}

theorem insertIndex_set (id : String) (receipt : Dict) (h : index.Perm (receipts.entries.map Prod.fst)) :
    (InMemoryStorage.insertIndex id index).Perm
      ((receipts.set id receipt).entries.map Prod.fst) := by
  have hkeys : (receipts.set id receipt).entries.map Prod.fst = _ :=
    OrderedMap.keys_setEntries id receipt receipts.entries
  rw [hkeys]
  unfold InMemoryStorage.insertIndex
  by_cases hid : id ∈ receipts.entries.map Prod.fst
  · rw [if_pos hid, if_pos (h.mem_iff.mpr hid)]
    exact h
  · rw [if_neg hid, if_neg fun hmem => hid (h.mem_iff.mp hmem)]
    exact h.append_right [id]

theorem evictReceipts_of_le (h : (receipts.entries.length : Int) ≤ maxReceipts) :
    evictReceipts maxReceipts index receipts taskReceipts = (receipts, taskReceipts, index) := by
  cases index with
  | nil => rfl
  | cons oldest index => rw [evictReceipts, if_neg (Int.not_lt.mpr h)]

/-- One receipt too many: the first of the index goes. -/
theorem evictReceipts_one (hstored : receipts.get oldest ≠ none)
    (h : (receipts.entries.length : Int) = maxReceipts + 1) :
    evictReceipts maxReceipts (oldest :: index) receipts taskReceipts =
      (receipts.delete oldest, match given ((receipts.get oldest).bind taskOf) with
        | some taskId => taskReceipts.delete taskId
        | none        => taskReceipts, index) := by
  have hlength := OrderedMap.length_delete hstored
  rw [evictReceipts, if_pos (by omega), evictReceipts_of_le (by omega)]

/-- What is stored of a receipt, before anything is evicted. -/
theorem saveReceipt_of_id {s : InMemoryStorage} {receipt : Receipt} (hid : receipt.id? = some id) :
    s.saveReceipt receipt.toIdentified =
      ({ s with
          receipts     := s.receipts.set id receipt.members
          taskReceipts := match given (taskOf receipt.members) with
            | some taskId => s.taskReceipts.set taskId id
            | none        => s.taskReceipts
          receiptIndex := InMemoryStorage.insertIndex id s.receiptIndex },
        .record receipt.members) := by
  have htext := receipt.taskText
  unfold InMemoryStorage.saveReceipt taskOf member
  rw [hid]
  dsimp only
  cases htask : OrderedMap.getEntries "task_id" receipt.members with
  | none => rfl
  | some v =>
      rw [Option.getD_some]
      by_cases htruthy : v.truthy = true
      · obtain ⟨taskId, rfl⟩ := htext v htask htruthy
        have hne : taskId ≠ "" := by simpa [Value.truthy] using htruthy
        simp [Value.hashable, given, Option.filter, hne]
      · rw [Bool.not_eq_true] at htruthy
        rw [htruthy]
        cases v with
        | str taskId =>
            have hempty : taskId = "" := by simpa [Value.truthy] using htruthy
            simp [given, Option.filter, hempty]
        | _ => rfl

theorem index_evictReceipts {taskId : String}
    (h : (evictReceipts maxReceipts index receipts taskReceipts).2.1.get taskId = some id) :
    taskReceipts.get taskId = some id := by
  induction index generalizing receipts taskReceipts with
  | nil => exact h
  | cons oldest index ih =>
      rw [evictReceipts] at h
      split at h
      · have hget := ih h
        split at hget
        · rw [OrderedMap.get_delete] at hget
          split at hget
          · cases hget
          · exact hget
        · exact hget
      · exact h

end

namespace ReceiptRun

variable {maxReceipts : Int} {s : ReceiptRun} {receipt : Receipt} {id oldest : String}

theorem shelf_lookup (s : ReceiptRun) (taskId : String) :
    (s.storage.getReceiptByTaskId taskId).data? = s.shelf.lookup taskId := by
  unfold InMemoryStorage.getReceiptByTaskId Shelf.lookup
  dsimp only [shelf]
  cases s.storage.taskReceipts.get taskId with
  | none => rfl
  | some id =>
      show (s.storage.getReceipt id).data? = s.storage.receipts.get id
      unfold InMemoryStorage.getReceipt
      cases s.storage.receipts.get id <;> rfl

theorem findsLatest_iff : s.FindsLatest ↔ s.shelf.Finds taskOf s.shelf.lookup := by
  unfold FindsLatest
  rw [funext (shelf_lookup s)]

theorem save_of_none (hid : receipt.id? = none) : s.save maxReceipts receipt = s := by
  unfold save InMemoryStorage.saveReceiptWithin InMemoryStorage.saveReceipt
  rw [hid]

/-- The index of tasks with the receipt, before anything is evicted. -/
def indexWith (s : ReceiptRun) (id : String) (receipt : Receipt) : OrderedMap String String :=
  match given (taskOf receipt.members) with
  | some taskId => s.storage.taskReceipts.set taskId id
  | none        => s.storage.taskReceipts

/-- What a save leaves, where the loop of the eviction is known. -/
theorem shelf_save (maxReceipts : Int) (hid : receipt.id? = some id) {receipts : OrderedMap String Dict}
    {taskReceipts : OrderedMap String String} {index : List String}
    (h : evictReceipts maxReceipts (InMemoryStorage.insertIndex id s.storage.receiptIndex)
      (s.storage.receipts.set id receipt.members) (s.indexWith id receipt) =
        (receipts, taskReceipts, index)) :
    (s.save maxReceipts receipt).storage.receiptIndex = index ∧
      (s.save maxReceipts receipt).shelf =
        ⟨receipts, taskReceipts, (id, receipt.members) :: s.saves⟩ := by
  unfold save InMemoryStorage.saveReceiptWithin shelf
  rw [saveReceipt_of_id hid, hid]
  dsimp only
  unfold indexWith at h
  rw [h]
  exact ⟨rfl, rfl⟩

/-- A save that evicts nothing. -/
theorem Kept.evicted_of_none (h : s.Kept maxReceipts) (hmax : 0 < maxReceipts)
    (hevicts : s.evicts maxReceipts id = none) (data : Dict) :
    (s.storage.receipts.set id data).entries.length ≤ maxReceipts.toNat ∧
      ∀ taskReceipts, evictReceipts maxReceipts
        (InMemoryStorage.insertIndex id s.storage.receiptIndex)
        (s.storage.receipts.set id data) taskReceipts =
          (s.storage.receipts.set id data, taskReceipts,
            InMemoryStorage.insertIndex id s.storage.receiptIndex) := by
  have hfits : (s.storage.receipts.set id data).entries.length ≤ maxReceipts.toNat := by
    refine OrderedMap.length_set_le h.within (fun hfull => ?_) data
    rw [evicts, if_pos hfull] at hevicts
    simp at hevicts
  exact ⟨hfits, fun _ => evictReceipts_of_le (by omega)⟩

/-- A save that evicts takes another receipt. -/
theorem Kept.evicted_of_some (h : s.Kept maxReceipts) (hmax : 0 < maxReceipts)
    (hevicts : s.evicts maxReceipts id = some oldest) (data : Dict) :
    oldest ≠ id ∧ s.storage.receipts.get id = none ∧
      ∃ rest, rest.Perm (((s.storage.receipts.set id data).delete oldest).entries.map Prod.fst) ∧
        ((s.storage.receipts.set id data).delete oldest).entries.length ≤ maxReceipts.toNat ∧
        ∀ taskReceipts, evictReceipts maxReceipts
          (InMemoryStorage.insertIndex id s.storage.receiptIndex)
          (s.storage.receipts.set id data) taskReceipts =
            ((s.storage.receipts.set id data).delete oldest,
              match given (((s.storage.receipts.set id data).get oldest).bind taskOf) with
                | some taskId => taskReceipts.delete taskId
                | none        => taskReceipts, rest) := by
  have hlength := OrderedMap.length_set s.storage.receipts id data
  unfold evicts at hevicts
  split at hevicts
  · rename_i hfull
    obtain ⟨hnew, hsize⟩ := hfull
    rw [if_pos hnew, hsize] at hlength
    -- a new receipt goes to the end of the index, so the first of it is the one to go
    have habsent : id ∉ s.storage.receiptIndex := by
      rw [h.index.mem_iff, ← OrderedMap.isSome_get_iff, hnew]
      exact Bool.false_ne_true
    have hinsert : InMemoryStorage.insertIndex id s.storage.receiptIndex =
        s.storage.receiptIndex ++ [id] := if_neg habsent
    have hindex := insertIndex_set id data h.index
    have hcount := h.index.length_eq
    rw [List.length_map] at hcount
    cases hfirst : s.storage.receiptIndex with
    | nil =>
        rw [hfirst, List.length_nil] at hcount
        omega
    | cons first rest =>
        rw [hfirst] at hevicts habsent
        cases hevicts
        rw [hinsert, hfirst] at hindex
        have hstored : (s.storage.receipts.set id data).get oldest ≠ none := by
          rw [← Option.isSome_iff_ne_none, OrderedMap.isSome_get_iff, ← hindex.mem_iff]
          exact List.mem_cons_self ..
        have hdelete := OrderedMap.length_delete hstored
        refine ⟨?_, hnew, rest ++ [id], ?_, by omega, fun taskReceipts => ?_⟩
        · rintro rfl
          exact habsent (List.mem_cons_self ..)
        · have hkeys : ((s.storage.receipts.set id data).delete oldest).entries.map Prod.fst = _ :=
            OrderedMap.keys_deleteEntries oldest (s.storage.receipts.set id data).entries
          rw [hkeys]
          have herase := hindex.erase oldest
          rwa [List.cons_append, List.erase_cons_head] at herase
        · rw [← hfirst, hinsert, hfirst]
          exact evictReceipts_one hstored (by omega)
  · cases hevicts

def saved (maxReceipts : Int) (s : ReceiptRun) (id : String) (data : Dict) :
    Shelf String String Dict :=
  s.shelf.putWithin taskOf id data (s.evicts maxReceipts id)

theorem given_of_ne {text : Option String} (h : text ≠ some "") : given text = text := by
  cases text with
  | none => rfl
  | some t =>
      have hne : t ≠ "" := fun heq => h (by rw [heq])
      simp [given, Option.filter, hne]

theorem indexWith_eq (htask : taskOf receipt.members ≠ some "") :
    s.indexWith id receipt = (s.shelf.put taskOf id receipt.members).index := by
  unfold indexWith Shelf.put
  rw [given_of_ne htask]
  cases taskOf receipt.members <;> rfl

theorem Kept.tasked_set (h : s.Kept maxReceipts) (htask : taskOf receipt.members ≠ some "")
    {other : String} {data : Dict}
    (hget : (s.storage.receipts.set id receipt.members).get other = some data) :
    taskOf data ≠ some "" := by
  rw [OrderedMap.get_set] at hget
  split at hget
  · cases hget
    exact htask
  · exact h.tasked other data hget

/-- A save of a receipt that is not of the empty task. -/
theorem Kept.save_of_id (h : s.Kept maxReceipts) (hmax : 0 < maxReceipts)
    (hid : receipt.id? = some id) (htask : taskOf receipt.members ≠ some "") :
    (s.save maxReceipts receipt).shelf = s.saved maxReceipts id receipt.members ∧
      ((s.save maxReceipts receipt).shelf.Indexed taskOf →
        (s.save maxReceipts receipt).Kept maxReceipts) := by
  unfold saved
  cases hevicts : s.evicts maxReceipts id with
  | none =>
      obtain ⟨hfits, hloop⟩ := h.evicted_of_none hmax hevicts receipt.members
      obtain ⟨hindex, hshelf⟩ := shelf_save _ hid (hloop (s.indexWith id receipt))
      have hreceipts : (s.save maxReceipts receipt).storage.receipts =
          s.storage.receipts.set id receipt.members := congrArg Shelf.records hshelf
      refine ⟨?_, fun hindexed => ⟨?_, ?_, hindexed, ?_⟩⟩
      · rw [hshelf, indexWith_eq htask]
        rfl
      · rw [hindex, hreceipts]
        exact insertIndex_set _ _ h.index
      · rw [hreceipts]
        exact hfits
      · rw [hreceipts]
        exact fun other data hget => h.tasked_set htask hget
  | some oldest =>
      obtain ⟨-, -, rest, hperm, hfits, hloop⟩ := h.evicted_of_some hmax hevicts receipt.members
      obtain ⟨hindex, hshelf⟩ := shelf_save _ hid (hloop (s.indexWith id receipt))
      have hreceipts : (s.save maxReceipts receipt).storage.receipts =
          (s.storage.receipts.set id receipt.members).delete oldest :=
        congrArg Shelf.records hshelf
      have hgroup : ((s.storage.receipts.set id receipt.members).get oldest).bind taskOf ≠
          some "" := by
        intro hempty
        obtain ⟨data, hget, hdata⟩ := Option.bind_eq_some_iff.mp hempty
        exact h.tasked_set htask hget hdata
      refine ⟨?_, fun hindexed => ⟨?_, ?_, hindexed, ?_⟩⟩
      · rw [hshelf, given_of_ne hgroup, indexWith_eq htask]
        unfold Shelf.putWithin Shelf.drop
        dsimp only [shelf, Shelf.put]
        cases ((s.storage.receipts.set id receipt.members).get oldest).bind taskOf <;> rfl
      · rw [hindex, hreceipts]
        exact hperm
      · rw [hreceipts]
        exact hfits
      · rw [hreceipts]
        intro other data hget
        rw [OrderedMap.get_delete] at hget
        split at hget
        · cases hget
        · exact h.tasked_set htask hget

theorem Kept.save (h : s.Kept maxReceipts) (hmax : 0 < maxReceipts)
    (hkeeps : s.KeepsIndex maxReceipts receipt) :
    (s.save maxReceipts receipt).Kept maxReceipts := by
  unfold KeepsIndex at hkeeps
  cases hid : receipt.id? with
  | none =>
      rw [save_of_none hid]
      exact h
  | some id =>
      rw [hid] at hkeeps
      obtain ⟨htask, hover, halone⟩ := hkeeps
      obtain ⟨hshelf, hkept⟩ := h.save_of_id hmax hid (htask hmax)
      apply hkept
      rw [hshelf]
      exact Shelf.indexed_putWithin h.indexed hover halone

/-- A receipt of the empty task is stored and not found. -/
theorem Kept.task_of_findsLatest (h : s.Kept maxReceipts) (hmax : 0 < maxReceipts)
    (hid : receipt.id? = some id) (hfinds : (s.save maxReceipts receipt).FindsLatest) :
    taskOf receipt.members ≠ some "" := by
  intro htask
  have hwith : s.indexWith id receipt = s.storage.taskReceipts := by
    unfold indexWith
    rw [htask]
    rfl
  -- nothing stored is of the empty task, so nothing is found under it
  have hbefore : s.storage.taskReceipts.get "" = none := by
    by_contra hsome
    obtain ⟨other, hother⟩ := Option.ne_none_iff_exists'.mp hsome
    obtain ⟨data, hstored, hempty⟩ := h.indexed.kept hother
    exact h.tasked other data hstored hempty
  have hshelf := (shelf_save maxReceipts hid (s := s) rfl).2
  have hmissing : (s.save maxReceipts receipt).shelf.lookup "" = none := by
    rw [hshelf]
    unfold Shelf.lookup
    cases hafter : (evictReceipts maxReceipts
        (InMemoryStorage.insertIndex id s.storage.receiptIndex)
        (s.storage.receipts.set id receipt.members) (s.indexWith id receipt)).2.1.get "" with
    | none => rfl
    | some other =>
        have hnamed := index_evictReceipts hafter
        rw [hwith, hbefore] at hnamed
        cases hnamed
  -- the receipt itself outlives the eviction
  have hstored : (s.save maxReceipts receipt).shelf.records.get id = some receipt.members := by
    rw [hshelf]
    cases hevicts : s.evicts maxReceipts id with
    | none =>
        rw [(h.evicted_of_none hmax hevicts receipt.members).2]
        exact OrderedMap.get_set_self ..
    | some oldest =>
        obtain ⟨hne, -, rest, -, -, hloop⟩ := h.evicted_of_some hmax hevicts receipt.members
        rw [hloop]
        show ((s.storage.receipts.set id receipt.members).delete oldest).get id = _
        rw [OrderedMap.get_delete, if_neg hne]
        exact OrderedMap.get_set_self ..
  exact (findsLatest_iff.mp hfinds).missing "" hmissing id receipt.members hstored htask

theorem Kept.keeps_of_findsLatest (h : s.Kept maxReceipts) (hmax : 0 < maxReceipts)
    (hfinds : (s.save maxReceipts receipt).FindsLatest) : s.KeepsIndex maxReceipts receipt := by
  unfold KeepsIndex
  cases hid : receipt.id? with
  | none => exact trivial
  | some id =>
      have htask := h.task_of_findsLatest hmax hid hfinds
      have hshelf := (h.save_of_id hmax hid htask).1
      rw [findsLatest_iff, hshelf] at hfinds
      have hnew : s.evicts maxReceipts id ≠ none → s.storage.receipts.get id = none := by
        intro hne
        obtain ⟨oldest, hevicts⟩ := Option.ne_none_iff_exists'.mp hne
        exact (h.evicted_of_some hmax hevicts receipt.members).2.1
      exact ⟨fun _ => htask, Shelf.keeps_of_finds_putWithin h.indexed hnew hfinds⟩

theorem kept_start : Kept maxReceipts {} :=
  ⟨List.Perm.refl _, Nat.zero_le _, Shelf.indexed_of_empty (fun _ => rfl) fun _ => rfl, nofun⟩

/-! ## A storage that keeps nothing -/

structure Bare (s : ReceiptRun) : Prop where
  receipts : s.storage.receipts.entries = []
  named    : ∀ taskId, s.storage.taskReceipts.get taskId = none
  index    : s.storage.receiptIndex = []

theorem Bare.get (h : s.Bare) (id : String) : s.storage.receipts.get id = none := by
  unfold OrderedMap.get
  rw [h.receipts]
  rfl

theorem Bare.findsLatest (h : s.Bare) : s.FindsLatest :=
  findsLatest_iff.mpr (Shelf.indexed_of_empty h.get h.named).finds

theorem Bare.save (h : s.Bare) (hmax : maxReceipts ≤ 0) (receipt : Receipt) :
    (s.save maxReceipts receipt).Bare := by
  cases hid : receipt.id? with
  | none =>
      rw [save_of_none hid]
      exact h
  | some id =>
      have hget : (s.storage.receipts.set id receipt.members).get id = some receipt.members :=
        OrderedMap.get_set_self ..
      have hentries : (s.storage.receipts.set id receipt.members).entries =
          [(id, receipt.members)] := by
        show OrderedMap.setEntries _ _ s.storage.receipts.entries = _
        rw [h.receipts]
        rfl
      -- the receipt itself is the one that goes
      have hloop : evictReceipts maxReceipts
          (InMemoryStorage.insertIndex id s.storage.receiptIndex)
          (s.storage.receipts.set id receipt.members) (s.indexWith id receipt) =
            ((s.storage.receipts.set id receipt.members).delete id,
              match given (taskOf receipt.members) with
                | some taskId => (s.indexWith id receipt).delete taskId
                | none        => s.indexWith id receipt, []) := by
        have hinsert : InMemoryStorage.insertIndex id s.storage.receiptIndex = [id] := by
          rw [h.index]
          rfl
        rw [hinsert, evictReceipts, hentries, hget, Option.bind_some, List.length_singleton,
          if_pos (by omega)]
        rfl
      obtain ⟨hindex, hshelf⟩ := shelf_save _ hid hloop
      have hreceipts : (s.save maxReceipts receipt).storage.receipts = _ :=
        congrArg Shelf.records hshelf
      have htasks : (s.save maxReceipts receipt).storage.taskReceipts = _ :=
        congrArg Shelf.index hshelf
      refine ⟨?_, fun taskId => ?_, hindex⟩
      · rw [hreceipts]
        show OrderedMap.deleteEntries id (s.storage.receipts.set id receipt.members).entries = []
        rw [hentries]
        exact if_pos rfl
      · rw [htasks]
        unfold indexWith
        cases given (taskOf receipt.members) with
        | none => exact h.named taskId
        | some task =>
            show ((s.storage.taskReceipts.set task id).delete task).get taskId = none
            rw [OrderedMap.get_delete, OrderedMap.get_set]
            split
            · rfl
            · exact h.named taskId

theorem Bare.keepsIndex (h : s.Bare) (hmax : maxReceipts ≤ 0) (receipt : Receipt) :
    s.KeepsIndex maxReceipts receipt := by
  unfold KeepsIndex
  cases hid : receipt.id? with
  | none => exact trivial
  | some id =>
      refine ⟨fun hpos => absurd hpos (by omega), fun old t hold => ?_, ?_⟩
      · exact absurd (hold.symm.trans (h.get id)) (Option.some_ne_none old)
      · intro oldest hevicts
        have hself : oldest = id := by
          unfold evicts at hevicts
          rw [h.index] at hevicts
          split at hevicts
          · exact (Option.some.inj hevicts).symm
          · cases hevicts
        rw [hself]
        intro data t _ _ other stored hne hother
        rw [OrderedMap.get_set_ne _ (Ne.symm hne), h.get] at hother
        cases hother

theorem bare_start : Bare {} := ⟨rfl, fun _ => rfl, rfl⟩

theorem findsLatest_iff_stepsMeet (maxReceipts : Int) (receipts : List Receipt) :
    StepsMeet (save maxReceipts) (KeepsIndex maxReceipts) {} receipts ↔
      ∀ rs, rs <+: receipts → (run (save maxReceipts) {} rs).FindsLatest := by
  rcases lt_or_ge 0 maxReceipts with hmax | hmax
  · exact stepsMeet_iff_of (fun _ h => (findsLatest_iff.mpr h.indexed.finds))
      (fun _ _ h hkeeps => h.save hmax hkeeps)
      (fun _ _ h hfinds => h.keeps_of_findsLatest hmax hfinds) kept_start
  · exact stepsMeet_iff_of (fun _ h => h.findsLatest) (fun _ receipt h _ => h.save hmax receipt)
      (fun _ receipt h _ => h.keepsIndex hmax receipt) bare_start

end ReceiptRun

end Python

/-- **A lookup by task finds the receipt that was saved last** in every state of a run exactly if
every call of the run keeps the index right, in both stores. -/
theorem receipts_found_iff (maxReceipts : Option Nat)
    (calls : List TypeScript.InMemoryReceiptStore.Call) (limit : Int)
    (receipts : List Python.Receipt) :
    (StepsMeet TypeScript.ReceiptRun.call TypeScript.ReceiptRun.KeepsIndex (.new maxReceipts)
        calls ↔
      ∀ ks, ks <+: calls →
        (run TypeScript.ReceiptRun.call (.new maxReceipts) ks).FindsLatest) ∧
    (StepsMeet (Python.ReceiptRun.save limit) (Python.ReceiptRun.KeepsIndex limit) {} receipts ↔
      ∀ rs, rs <+: receipts → (run (Python.ReceiptRun.save limit) {} rs).FindsLatest) :=
  ⟨TypeScript.ReceiptRun.findsLatest_iff_stepsMeet maxReceipts calls,
    Python.ReceiptRun.findsLatest_iff_stepsMeet limit receipts⟩

/-! ## Siblings that are lost -/

def TypeScript.receiptNamed (receiptId taskId : String) : TypeScript.ExecutionReceipt where
  receiptId := receiptId
  taskId    := taskId
  tenantId  := none
  agentId   := "a"
  timestamp := "2024-02-29T00:00:00.000Z"

def Python.receiptNamed (receiptId taskId : String) : Python.Receipt where
  members := [("receipt_id", .str receiptId), ("task_id", .str taskId)]
  text := by
    intro v hget _
    refine ⟨receiptId, ?_⟩
    simpa [OrderedMap.getEntries, eq_comm] using hget
  taskText := by
    intro v hget _
    refine ⟨taskId, ?_⟩
    simpa [OrderedMap.getEntries, eq_comm] using hget

/-- Of two receipts of a task the older goes, by `delete` or by eviction, and the other is not found
any more. -/
theorem receipts_lost :
    ¬ (run TypeScript.ReceiptRun.call (.new none)
      [.save (TypeScript.receiptNamed "r1" "t1"), .save (TypeScript.receiptNamed "r2" "t1"),
        .delete "r1"]).FindsLatest ∧
    ¬ (run (Python.ReceiptRun.save 1) {}
      [Python.receiptNamed "r1" "t1", Python.receiptNamed "r2" "t1"]).FindsLatest := by
  constructor
  · intro h
    exact h.missing "t1" (by decide) "r2" (TypeScript.receiptNamed "r2" "t1") (by decide) rfl
  · intro h
    exact h.missing "t1" rfl "r2" (Python.receiptNamed "r2" "t1").members rfl rfl

end MapProtocol.Sdk
