import MapProtocol.Lib.Transition
import MapProtocol.Sdk.StoragePages
import Mathlib.Logic.Function.Basic

/-!
# Where the storages of the Python package agree

The files of a directory and the rows of a table are the entries in memory, in another order
(`Related`). Only lists show the order: by first insertion in memory, by time in the others. As long
as the records of every list fall in time in the order of their insertion, and the other differences
are not met (`Meets`), the three storages give the same answers in every run (`storages_agree`).
-/

namespace MapProtocol.Sdk.Python

open Js (startsWith endsWith)
open Py Transition

/-- The three storages, side by side. -/
structure Storages where
  memory : InMemoryStorage := {}
  file   : FileStorage     := {}
  sqlite : SQLiteStorage   := {}

namespace Storages

variable (host : Host)

def step (s : Storages) (call : StorageCall) : Storages where
  memory := (s.memory.call call).1
  file := (s.file.call host call).1
  sqlite := (s.sqlite.call host call).1

/-- All three give the answer that is given in memory. -/
def SameAnswers (s : Storages) (call : StorageCall) : Prop :=
  (s.file.call host call).2 = (s.memory.call call).2 ∧
    (s.sqlite.call host call).2 = (s.memory.call call).2

end Storages

/-! ## Conditions -/

def TextOrNone (v : Value) : Prop := v = .none ∨ ∃ s, v = .str s

def requesterOf (task : Dict) : Dict :=
  match OrderedMap.getEntries "requester_identity" task with
  | some (.dict requester) => requester
  | _                      => []

/-- A requester, where there is one, is an object whose tenant is a text; the status is neither an
array nor an object. -/
structure PlainTask (task : Dict) : Prop where
  requester : ∀ v, OrderedMap.getEntries "requester_identity" task = some v →
    v = .dict (requesterOf task)
  tenant    : TextOrNone (member "tenant_id" (requesterOf task))
  status    : (member "status" task).hashable = true

/-- The members that are columns are texts; no task has the empty id. -/
structure PlainReceipt (receipt : Dict) : Prop where
  task   : TextOrNone (member "task_id" receipt) ∧ member "task_id" receipt ≠ .str ""
  tenant : TextOrNone (member "tenant_id" receipt)
  agent  : TextOrNone (member "agent_id" receipt)

def taskMatches (tenantId status : Option String) (task : Dict) : Bool :=
  hasText "tenant_id" tenantId (requesterOf task) && hasText "status" status task

/-- When a receipt was saved. -/
def SQLiteStorage.createdAt (s : SQLiteStorage) (receiptId : String) : String :=
  ((s.receipts.find? fun row => row.receiptId == receiptId).map ReceiptRow.createdAt).getD ""

/-- The calls on which the storages agree. A list: the records that pass fall in time in the order of
their insertion. A removal: the task is on record. A receipt: its id is not that of a mapping, it
stays with its task, and it is the only one of it. -/
def Storages.Meets (s : Storages) : StorageCall → Prop
  | .saveTask task _                            => PlainTask task.members
  | .getTask _                                  => True
  | .listTasks tenantId status limit cursor     =>
      let records := s.memory.tasks.values.filter (taskMatches tenantId status)
      Listable "task_id" limit cursor records ∧ Descending (textAt "updated_at") records
  | .deleteTask taskId                          => (s.memory.tasks.get taskId).isSome
  | .saveReceipt receipt _                      =>
      PlainReceipt receipt.members ∧ ∀ id, receipt.id? = some id →
        startsWith id "task-" = false ∧
          (∀ old, s.memory.receipts.get id = some old →
            member "task_id" old = member "task_id" receipt.members) ∧
          ∀ t other, member "task_id" receipt.members = .str t →
            s.memory.taskReceipts.get t = some other → other = id
  | .getReceipt receiptId                       =>
      ∀ t, receiptId = "task-" ++ t → s.memory.taskReceipts.get t = none
  | .getReceiptByTaskId _                       => True
  | .listReceipts tenantId agentId limit cursor =>
      let records := s.memory.receipts.values.filter (receiptPasses tenantId agentId)
      Listable "receipt_id" limit cursor records ∧
        (∀ receipt ∈ records, startsWith (textAt "receipt_id" receipt) "receipt_" = true) ∧
          Sortable "timestamp" records ∧ Descending (textAt "timestamp") records ∧
            Descending (fun receipt => s.sqlite.createdAt (textAt "receipt_id" receipt)) records

/-! ## Columns -/

def columnText : Value → Option String
  | .str s => some s
  | _      => none

theorem TextOrNone.bind_eq (host : Host) {v : Value} (h : TextOrNone v) :
    SQLiteStorage.bind host v = some (columnText v) := by
  rcases h with rfl | ⟨s, rfl⟩ <;> rfl

theorem columnIs_text (key : String) (text : Option String) {d : Dict}
    (h : TextOrNone (member key d)) :
    columnIs (columnText (member key d)) text = hasText key text d := by
  unfold columnIs hasText
  cases given text with
  | none => rfl
  | some s =>
      rcases h with h | ⟨t, h⟩ <;> rw [h]
      · rfl
      · simp [columnText, Value.equals]

theorem columnIs_jsonExtract (host : Host) (key : String) (text : Option String) {d : Dict}
    (h : (member key d).hashable = true) :
    columnIs (SQLiteStorage.jsonExtract host key d) text = hasText key text d := by
  unfold columnIs hasText SQLiteStorage.jsonExtract
  unfold member at h ⊢
  cases given text with
  | none => rfl
  | some s =>
      cases hmember : OrderedMap.getEntries key d with
      | none => rfl
      | some v =>
          rw [hmember] at h
          cases v with
          | list xs => cases h
          | dict es => cases h
          | _ => simp [Value.equals, Value.number?]

theorem PlainTask.requester_eq {task : Dict} (h : PlainTask task) :
    (OrderedMap.getEntries "requester_identity" task).getD (.dict []) =
      .dict (requesterOf task) := by
  cases hread : OrderedMap.getEntries "requester_identity" task with
  | none =>
      unfold requesterOf
      rw [hread]
      rfl
  | some v => exact h.requester v hread

theorem PlainTask.passes {task : Dict} (h : PlainTask task) (tenantId status : Option String) :
    taskPasses tenantId status task = some (taskMatches tenantId status task) := by
  unfold taskPasses taskMatches
  cases hgiven : given tenantId with
  | none =>
      have hany : hasText "tenant_id" tenantId (requesterOf task) = true := by
        unfold hasText
        rw [hgiven]
      simp [hany]
  | some s =>
      rw [h.requester_eq]

/-! ## Arrangements

The three storages hold the same entries under different names and in different orders. -/

section

variable {α κ ν : Type} [DecidableEq κ] {keyOf : α → κ} {name : String → κ} {f : String × ν → α}
  {ys : List α} {es : List (String × ν)}

theorem filter_map_ne (hname : Function.Injective name) (hkey : ∀ e, keyOf (f e) = name e.1)
    (k : String) :
    ((es.map f).filter fun y => keyOf y ≠ name k) = (es.filter fun e => e.1 ≠ k).map f := by
  rw [List.filter_map]
  congr 1
  refine List.filter_congr fun e _ => ?_
  simp [hkey, hname.eq_iff]

theorem perm_delete (hname : Function.Injective name) (hkey : ∀ e, keyOf (f e) = name e.1)
    (hnodup : (es.map Prod.fst).Nodup) (h : ys.Perm (es.map f)) (k : String) :
    (ys.filter fun y => keyOf y ≠ name k).Perm ((OrderedMap.deleteEntries k es).map f) := by
  rw [OrderedMap.deleteEntries_eq_filter hnodup, ← filter_map_ne hname hkey]
  exact h.filter _

theorem perm_set (hname : Function.Injective name) (hkey : ∀ e, keyOf (f e) = name e.1)
    (hnodup : (es.map Prod.fst).Nodup) (h : ys.Perm (es.map f)) (k : String) (d : ν) :
    (f (k, d) :: ys.filter fun y => keyOf y ≠ name k).Perm
      ((OrderedMap.setEntries k d es).map f) := by
  have hset := (OrderedMap.setEntries_perm k d hnodup).map f
  refine List.Perm.trans ?_ hset.symm
  rw [List.map_cons, ← filter_map_ne hname hkey]
  exact (h.filter _).cons _

end

/-- The entry in memory as a file. -/
def taskFile (e : String × Dict) : String × Dict := (fileName e.1, e.2)

/-- The entry in memory as a row. -/
def taskRow (e : String × Dict) : TaskRow where
  taskId := e.1
  tenantId := columnText (member "tenant_id" (requesterOf e.2))
  data := e.2
  createdAt := textAt "updated_at" e.2
  updatedAt := textAt "updated_at" e.2

@[simp] theorem taskFile_name (e : String × Dict) : Prod.fst (taskFile e) = fileName e.1 := rfl

@[simp] theorem taskRow_taskId (e : String × Dict) : TaskRow.taskId (taskRow e) = e.1 := rfl

def mappingFile (e : String × String) : String × Dict :=
  (mappingName e.1, [("receipt_id", .str e.2)])

@[simp] theorem mappingFile_name (e : String × String) :
    Prod.fst (mappingFile e) = mappingName e.1 := rfl

def receiptRow (createdAt : String → String) (e : String × Dict) : ReceiptRow where
  receiptId := e.1
  taskId := columnText (member "task_id" e.2)
  tenantId := columnText (member "tenant_id" e.2)
  agentId := columnText (member "agent_id" e.2)
  data := e.2
  createdAt := createdAt e.1

@[simp] theorem receiptRow_receiptId (createdAt : String → String) (e : String × Dict) :
    ReceiptRow.receiptId (receiptRow createdAt e) = e.1 := rfl

/-- Files and rows of the tasks arrange the entries in memory. -/
structure TasksRelated (memory : InMemoryStorage) (file : FileStorage) (sqlite : SQLiteStorage) :
    Prop where
  index : memory.taskIndex = memory.tasks.entries.map Prod.fst
  files : file.tasks.entries.Perm (memory.tasks.entries.map taskFile)
  rows  : sqlite.tasks.Perm (memory.tasks.entries.map taskRow)
  plain : ∀ e ∈ memory.tasks.entries, PlainTask e.2 ∧ member "task_id" e.2 = .str e.1 ∧
    OrderedMap.getEntries "updated_at" e.2 = some (.str (textAt "updated_at" e.2))

/-- So do those of the receipts, among the files of which there is one for each task. -/
structure ReceiptsRelated (memory : InMemoryStorage) (file : FileStorage)
    (sqlite : SQLiteStorage) : Prop where
  index   : memory.receiptIndex = memory.receipts.entries.map Prod.fst
  files   : file.receipts.entries.Perm
    (memory.receipts.entries.map taskFile ++ memory.taskReceipts.entries.map mappingFile)
  rows    : ∃ createdAt, sqlite.receipts.Perm (memory.receipts.entries.map (receiptRow createdAt))
  plain   : ∀ e ∈ memory.receipts.entries, PlainReceipt e.2 ∧
    member "receipt_id" e.2 = .str e.1 ∧ e.1 ≠ "" ∧ startsWith e.1 "task-" = false
  mapping : ∀ t id, memory.taskReceipts.get t = some id ↔
    ∃ receipt, memory.receipts.get id = some receipt ∧ member "task_id" receipt = .str t

structure Related (s : Storages) : Prop where
  tasks    : TasksRelated s.memory s.file s.sqlite
  receipts : ReceiptsRelated s.memory s.file s.sqlite

theorem related_empty : Related {} where
  tasks :=
    { index := rfl
      files := .nil
      rows  := .nil
      plain := fun _ h => nomatch h }
  receipts :=
    { index   := rfl
      files   := .nil
      rows    := ⟨fun _ => "", .nil⟩
      plain   := fun _ h => nomatch h
      mapping := fun _ _ => ⟨fun h => (nomatch h), fun ⟨_, h, _⟩ => (nomatch h)⟩ }

theorem fileName_injective : Function.Injective fileName := by
  intro a b h
  have hchars : a.toList ++ ".json".toList = b.toList ++ ".json".toList := by
    rw [← String.toList_append, ← String.toList_append]
    exact congrArg String.toList h
  exact String.ext (List.append_cancel_right hchars)

theorem mappingName_injective : Function.Injective mappingName := by
  intro a b h
  have hfile : fileName ("task-" ++ a) = fileName ("task-" ++ b) := h
  have hname := congrArg String.toList (fileName_injective hfile)
  rw [String.toList_append, String.toList_append] at hname
  exact String.ext (List.append_cancel_left hname)

theorem mappingName_eq (t : String) : mappingName t = fileName ("task-" ++ t) := rfl

theorem startsWith_mapping (t : String) : startsWith ("task-" ++ t) "task-" = true := by
  unfold startsWith
  rw [String.toList_append]
  exact List.isPrefixOf_iff_prefix.mpr (List.prefix_append _ _)

theorem fileName_ne_mapping {id : String} (h : startsWith id "task-" = false) (t : String) :
    fileName id ≠ mappingName t := by
  intro heq
  rw [mappingName_eq] at heq
  rw [fileName_injective heq, startsWith_mapping] at h
  cases h

/-! ## Tasks -/

section

variable {host : Host} {memory : InMemoryStorage} {file : FileStorage} {sqlite : SQLiteStorage}

theorem TasksRelated.keyed (h : TasksRelated memory file sqlite) :
    Keyed "task_id" memory.tasks.entries :=
  ⟨memory.tasks.nodup, fun e he => (h.plain e he).2.1⟩

theorem TasksRelated.file_get (h : TasksRelated memory file sqlite) (id : String) :
    file.tasks.get (fileName id) = memory.tasks.get id := by
  apply Option.ext
  intro task
  rw [OrderedMap.get_eq_some, OrderedMap.get_eq_some, h.files.mem_iff, List.mem_map]
  constructor
  · rintro ⟨e, he, heq⟩
    obtain ⟨hname, rfl⟩ := Prod.mk.inj heq
    rw [← fileName_injective hname]
    exact he
  · intro hmem
    exact ⟨(id, task), hmem, rfl⟩

theorem TasksRelated.row_data (h : TasksRelated memory file sqlite) (id : String) :
    ((host.scan sqlite.tasks).find? fun row => row.taskId == id).map TaskRow.data =
      memory.tasks.get id := by
  have hrows := (host.scan_perm sqlite.tasks).trans h.rows
  exact find?_data memory.tasks.nodup hrows taskRow_taskId (fun _ => rfl) id

theorem TasksRelated.list_memory (h : TasksRelated memory file sqlite)
    (tenantId status : Option String) (limit : Int) (cursor : Option String) :
    memory.listTasks tenantId status limit cursor =
      .page (pageAfter "task_id" limit cursor
        (memory.tasks.values.filter (taskMatches tenantId status))) := by
  have hpasses : ∀ task ∈ memory.tasks.values,
      taskPasses tenantId status task = some (taskMatches tenantId status task) := by
    intro task htask
    obtain ⟨e, he, rfl⟩ := List.mem_map.mp htask
    exact (h.plain e he).1.passes tenantId status
  unfold InMemoryStorage.listTasks
  rw [h.index, OrderedMap.filterMap_get_keys, passing_eq hpasses]

theorem perm_filterMap_get {files : OrderedMap String Dict} (names : List String)
    (hnames : names.Perm (files.entries.map Prod.fst)) :
    (names.filterMap files.get).Perm (files.entries.map Prod.snd) := by
  have hvalues := hnames.filterMap files.get
  rwa [OrderedMap.filterMap_get_keys] at hvalues

theorem endsWith_json (id : String) : endsWith (fileName id) ".json" = true := by
  unfold endsWith fileName
  rw [String.toList_append]
  exact List.isSuffixOf_iff_suffix.mpr (List.suffix_append _ _)

theorem TasksRelated.list_file (h : TasksRelated memory file sqlite)
    {tenantId status : Option String} (limit : Int) (cursor : Option String)
    (hdescending : Descending (textAt "updated_at")
      (memory.tasks.values.filter (taskMatches tenantId status))) :
    file.listTasks host tenantId status limit cursor =
      .page (pageAfter "task_id" limit cursor
        (memory.tasks.values.filter (taskMatches tenantId status))) := by
  -- every file of the directory is a task's, so none is passed over
  have hnames : (host.listdir (file.tasks.entries.map Prod.fst)).filter (endsWith · ".json") =
      host.listdir (file.tasks.entries.map Prod.fst) := by
    rw [List.filter_eq_self]
    intro name hname
    obtain ⟨e, he, rfl⟩ := List.mem_map.mp ((host.listdir_perm _).subset hname)
    obtain ⟨f, -, rfl⟩ := List.mem_map.mp (h.files.subset he)
    exact endsWith_json f.1
  -- whatever the order of the directory, the tasks that are read are those in memory
  have hvalues : memory.tasks.entries.map (Prod.snd ∘ taskFile) = memory.tasks.values := rfl
  have hread := (perm_filterMap_get _ (host.listdir_perm _)).trans (h.files.map Prod.snd)
  rw [List.map_map, hvalues] at hread
  have hplain : ∀ task ∈ memory.tasks.values, PlainTask task ∧
      OrderedMap.getEntries "updated_at" task = some (.str (textAt "updated_at" task)) := by
    intro task htask
    obtain ⟨e, he, rfl⟩ := List.mem_map.mp htask
    exact ⟨(h.plain e he).1, (h.plain e he).2.2⟩
  have hpasses : ∀ task ∈ (host.listdir (file.tasks.entries.map Prod.fst)).filterMap file.tasks.get,
      taskPasses tenantId status task = some (taskMatches tenantId status task) :=
    fun task htask => (hplain task (hread.subset htask)).1.passes tenantId status
  have hsortable : Sortable "updated_at"
      (memory.tasks.values.filter (taskMatches tenantId status)) := by
    right
    intro task htask
    exact ⟨_, by rw [(hplain task (List.mem_filter.mp htask).1).2]; rfl⟩
  have hsorted := sortBy_eq hsortable hdescending (hread.filter _)
  -- a sorted arrangement of what is sorted already is the list itself
  unfold FileStorage.listTasks
  dsimp only
  rw [hnames, passing_eq hpasses, Option.bind_some, hsorted]

theorem TasksRelated.list_sqlite (h : TasksRelated memory file sqlite)
    {tenantId status : Option String} {limit : Int} {cursor : Option String}
    (hlist : Listable "task_id" limit cursor
      (memory.tasks.values.filter (taskMatches tenantId status)))
    (hdescending : Descending (textAt "updated_at")
      (memory.tasks.values.filter (taskMatches tenantId status))) :
    sqlite.listTasks host tenantId status limit cursor =
      .page (pageAfter "task_id" limit cursor
        (memory.tasks.values.filter (taskMatches tenantId status))) := by
  have hdata : ∀ e, TaskRow.data (taskRow e) = e.2 := fun _ => rfl
  refine select_eq host h.keyed h.rows taskRow_taskId hdata ?_ hlist ?_
  · intro e he
    obtain ⟨hplain, -⟩ := h.plain e he
    have htenant := columnIs_text "tenant_id" tenantId hplain.tenant
    have hstatus := columnIs_jsonExtract host "status" status hplain.status
    show (columnIs (taskRow e).tenantId tenantId &&
      columnIs (SQLiteStorage.jsonExtract host "status" e.2) status) = _
    rw [hstatus]
    exact congrArg (· && hasText "status" status e.2) htenant
  · have hvalues : memory.tasks.values.filter (taskMatches tenantId status) =
        (memory.tasks.entries.filter fun e => taskMatches tenantId status e.2).map Prod.snd :=
      List.filter_map
    rw [hvalues] at hdescending
    have hentries := Descending.map_iff.mp hdescending
    exact hentries

theorem getEntries_updated {key : String} (h : key ≠ "updated_at") (now : String) (task : Dict) :
    OrderedMap.getEntries key (OrderedMap.setEntries "updated_at" (.str now) task) =
      OrderedMap.getEntries key task := by
  rw [OrderedMap.getEntries_setEntries, if_neg (Ne.symm h)]

theorem textAt_updated (now : String) (task : Dict) :
    OrderedMap.getEntries "updated_at" (OrderedMap.setEntries "updated_at" (.str now) task) =
      some (.str now) := by
  rw [OrderedMap.getEntries_setEntries, if_pos rfl]

theorem PlainTask.updated {task : Dict} (h : PlainTask task) (now : String) :
    PlainTask (OrderedMap.setEntries "updated_at" (.str now) task) := by
  have hrequester := @getEntries_updated "requester_identity" (by decide) now task
  have hsame : requesterOf (OrderedMap.setEntries "updated_at" (.str now) task) =
      requesterOf task := by
    unfold requesterOf
    rw [hrequester]
  constructor
  · rw [hrequester, hsame]
    exact h.requester
  · rw [hsame]
    exact h.tenant
  · unfold member
    rw [getEntries_updated (by decide)]
    exact h.status

theorem id?_eq_some {key id : String} {record : Identified key} (h : record.id? = some id) :
    OrderedMap.getEntries key record.members = some (.str id) ∧ id ≠ "" := by
  unfold Identified.id? at h
  split at h
  · rename_i s hs
    split at h
    · cases h
    · rename_i hne
      cases h
      exact ⟨hs, hne⟩
  · cases h

theorem member_eq_str {key s : String} {d : Dict} (h : OrderedMap.getEntries key d = some (.str s)) :
    member key d = .str s := by
  unfold member
  rw [h]
  rfl

theorem insertIndex_keys (id : String) (d : Dict) (es : List (String × Dict)) :
    InMemoryStorage.insertIndex id (es.map Prod.fst) =
      (OrderedMap.setEntries id d es).map Prod.fst := by
  unfold InMemoryStorage.insertIndex
  rw [OrderedMap.keys_setEntries]

/-! ## Steps of the tasks -/

/-- What a call does to the tasks. -/
theorem TasksRelated.save (h : TasksRelated memory file sqlite) {task : Identified "task_id"}
    (hplain : PlainTask task.members) (now : String) :
    TasksRelated (memory.saveTask task now).1 (file.saveTask task now).1
        (sqlite.saveTask host task now).1 ∧
      (file.saveTask task now).2 = (memory.saveTask task now).2 ∧
        (sqlite.saveTask host task now).2 = (memory.saveTask task now).2 := by
  unfold InMemoryStorage.saveTask FileStorage.saveTask SQLiteStorage.saveTask
  cases hid : task.id? with
  | none => exact ⟨h, rfl, rfl⟩
  | some id =>
      obtain ⟨hmember, hne⟩ := id?_eq_some hid
      have hupdated := hplain.updated now
      have htext := textAt_updated now task.members
      generalize hstored : OrderedMap.setEntries "updated_at" (.str now) task.members = stored
        at hupdated htext
      have hkey : OrderedMap.getEntries "task_id" stored = some (.str id) := by
        rw [← hstored, getEntries_updated (by decide)]
        exact hmember
      have hnow : textAt "updated_at" stored = now := by
        unfold textAt
        rw [htext]
      have hrow : (⟨id, columnText (member "tenant_id" (requesterOf stored)), stored, now, now⟩ :
          TaskRow) = taskRow (id, stored) := by
        unfold taskRow
        rw [hnow]
      dsimp only
      rw [hupdated.requester_eq]
      dsimp only
      rw [hupdated.tenant.bind_eq host]
      refine ⟨?_, rfl, rfl⟩
      exact
        { index := by
            rw [h.index]
            exact insertIndex_keys id stored _
          files := by
            have hset := OrderedMap.setEntries_perm (fileName id) stored file.tasks.nodup
            exact hset.trans (perm_set fileName_injective taskFile_name memory.tasks.nodup h.files
              id stored)
          rows  := by
            have hset := perm_set Function.injective_id taskRow_taskId memory.tasks.nodup h.rows id
              -- the row is replaced at the end of the table
              stored
            refine List.Perm.trans ?_ hset
            show (_ ++ [(⟨id, _, stored, now, now⟩ : TaskRow)]).Perm _
            rw [hrow]
            exact List.perm_append_singleton _ _
          plain := by
            intro e he
            have hperm := OrderedMap.setEntries_perm id stored memory.tasks.nodup
            rcases List.mem_cons.mp (hperm.subset he) with rfl | hold
            · refine ⟨hupdated, member_eq_str hkey, ?_⟩
              rw [hnow]
              exact htext
            · exact h.plain e (List.mem_filter.mp hold).1 }

theorem TasksRelated.delete (h : TasksRelated memory file sqlite) {taskId : String}
    (hfound : (memory.tasks.get taskId).isSome) :
    TasksRelated (memory.deleteTask taskId).1 (file.deleteTask taskId).1
        (sqlite.deleteTask taskId).1 ∧
      (file.deleteTask taskId).2 = (memory.deleteTask taskId).2 ∧
        (sqlite.deleteTask taskId).2 = (memory.deleteTask taskId).2 := by
  have hnot : ¬(memory.tasks.get taskId).isNone = true := by
    rw [Option.isNone_iff_eq_none]
    intro hnone
    rw [hnone] at hfound
    cases hfound
  unfold InMemoryStorage.deleteTask FileStorage.deleteTask SQLiteStorage.deleteTask
  rw [if_neg hnot]
  refine ⟨?_, rfl, rfl⟩
  exact
    { index := by
        rw [h.index]
        exact (OrderedMap.keys_deleteEntries taskId _).symm
      files := by
        have hdelete := OrderedMap.deleteEntries_eq_filter (k := fileName taskId) file.tasks.nodup
        show (OrderedMap.deleteEntries (fileName taskId) file.tasks.entries).Perm _
        rw [hdelete]
        exact perm_delete fileName_injective taskFile_name memory.tasks.nodup h.files taskId
      rows  := perm_delete Function.injective_id taskRow_taskId memory.tasks.nodup h.rows taskId
      plain := fun e he =>
        h.plain e ((OrderedMap.deleteEntries_sublist taskId _).subset he) }

/-! ## Receipts

A file storage keeps a mapping from tasks to receipts beside the receipts, in the same directory. -/

theorem ReceiptsRelated.keyed (h : ReceiptsRelated memory file sqlite) :
    Keyed "receipt_id" memory.receipts.entries :=
  ⟨memory.receipts.nodup, fun e he => (h.plain e he).2.1⟩

theorem ReceiptsRelated.textAt_id (h : ReceiptsRelated memory file sqlite) {e : String × Dict}
    (he : e ∈ memory.receipts.entries) : textAt "receipt_id" e.2 = e.1 := by
  have hmember := (h.plain e he).2.1
  unfold member at hmember
  unfold textAt
  cases hentry : OrderedMap.getEntries "receipt_id" e.2 with
  | none =>
      rw [hentry] at hmember
      cases hmember
  | some v =>
      rw [hentry] at hmember
      have hv : v = .str e.1 := hmember
      rw [hv]

theorem ReceiptsRelated.file_get (h : ReceiptsRelated memory file sqlite) {id : String}
    (hid : ∀ t, id = "task-" ++ t → memory.taskReceipts.get t = none) :
    file.receipts.get (fileName id) = memory.receipts.get id := by
  apply Option.ext
  intro receipt
  rw [OrderedMap.get_eq_some, OrderedMap.get_eq_some, h.files.mem_iff, List.mem_append]
  constructor
  · rintro (hfile | hmapping)
    · obtain ⟨e, he, heq⟩ := List.mem_map.mp hfile
      obtain ⟨hname, rfl⟩ := Prod.mk.inj heq
      rw [← fileName_injective hname]
      exact he
    · obtain ⟨e, he, heq⟩ := List.mem_map.mp hmapping
      obtain ⟨hname, -⟩ := Prod.mk.inj heq
      have hnone := hid e.1 (fileName_injective hname).symm
      rw [OrderedMap.get_eq_some.mpr he] at hnone
      cases hnone
  · intro hmem
    exact .inl (List.mem_map_of_mem hmem)

theorem ReceiptsRelated.row_data (h : ReceiptsRelated memory file sqlite) (id : String) :
    ((host.scan sqlite.receipts).find? fun row => row.receiptId == id).map ReceiptRow.data =
      memory.receipts.get id := by
  obtain ⟨createdAt, hperm⟩ := h.rows
  have hrows := (host.scan_perm sqlite.receipts).trans hperm
  exact find?_data memory.receipts.nodup hrows (receiptRow_receiptId createdAt) (fun _ => rfl) id

theorem ReceiptsRelated.mapping_get (h : ReceiptsRelated memory file sqlite) (t : String) :
    file.receipts.get (mappingName t) =
      (memory.taskReceipts.get t).map fun id => [("receipt_id", .str id)] := by
  apply Option.ext
  intro mapping
  rw [OrderedMap.get_eq_some, h.files.mem_iff, List.mem_append, Option.map_eq_some_iff]
  constructor
  · rintro (hfile | hmapping)
    · obtain ⟨e, he, heq⟩ := List.mem_map.mp hfile
      exact absurd (Prod.mk.inj heq).1 (fileName_ne_mapping (h.plain e he).2.2.2 t)
    · obtain ⟨e, he, heq⟩ := List.mem_map.mp hmapping
      obtain ⟨hname, rfl⟩ := Prod.mk.inj heq
      rw [← mappingName_injective hname]
      exact ⟨e.2, OrderedMap.get_eq_some.mpr he, rfl⟩
  · rintro ⟨id, hget, rfl⟩
    exact .inr (List.mem_map.mpr ⟨(t, id), OrderedMap.get_eq_some.mp hget, rfl⟩)

/-- The row of a task's receipt. -/
theorem ReceiptsRelated.row_of_task (h : ReceiptsRelated memory file sqlite) (t : String) :
    ((host.scan sqlite.receipts).find? fun row => row.taskId == some t).map ReceiptRow.data =
      (memory.taskReceipts.get t).bind memory.receipts.get := by
  obtain ⟨createdAt, hperm⟩ := h.rows
  have hrows := (host.scan_perm sqlite.receipts).trans hperm
  have htask {e : String × Dict} (he : e ∈ memory.receipts.entries) :
      (receiptRow createdAt e).taskId = some t ↔ member "task_id" e.2 = .str t := by
    rcases (h.plain e he).1.task.1 with hnone | ⟨s, hs⟩
    · simp [receiptRow, hnone, columnText]
    · simp [receiptRow, hs, columnText]
  cases hfind : (host.scan sqlite.receipts).find? fun row => row.taskId == some t with
  | none =>
      -- no row is found: a mapped receipt would have one
      cases hget : memory.taskReceipts.get t with
      | none => rfl
      | some id =>
          obtain ⟨receipt, hreceipt, hmember⟩ := (h.mapping t id).mp hget
          have he := OrderedMap.get_eq_some.mp hreceipt
          have hrow := hrows.symm.subset (List.mem_map_of_mem (f := receiptRow createdAt) he)
          have habsent := List.find?_eq_none.mp hfind _ hrow
          exact absurd (by simpa using (htask he).mpr hmember) habsent
  | some row =>
      -- the row that is found first is the only one of the task
      obtain ⟨e, he, rfl⟩ := List.mem_map.mp (hrows.subset (List.mem_of_find?_eq_some hfind))
      have hrow := List.find?_some hfind
      have hmember := (htask he).mp (by simpa using hrow)
      have hreceipt := OrderedMap.get_eq_some.mpr he
      rw [(h.mapping t e.1).mpr ⟨e.2, hreceipt, hmember⟩]
      exact hreceipt.symm

theorem ReceiptsRelated.by_task (h : ReceiptsRelated memory file sqlite) (t : String) :
    file.getReceiptByTaskId host t = memory.getReceiptByTaskId t ∧
      sqlite.getReceiptByTaskId host t = memory.getReceiptByTaskId t := by
  have hmapping := h.mapping_get t
  have hrow := @row_of_task host _ _ _ h t
  unfold FileStorage.getReceiptByTaskId InMemoryStorage.getReceiptByTaskId
    SQLiteStorage.getReceiptByTaskId
  rw [hmapping]
  cases hget : memory.taskReceipts.get t with
  | none =>
      rw [hget] at hrow
      refine ⟨rfl, ?_⟩
      rw [Option.map_eq_none_iff.mp hrow]
  | some id =>
      obtain ⟨receipt, hreceipt, -⟩ := (h.mapping t id).mp hget
      obtain ⟨-, -, hne, hplain⟩ := h.plain _ (OrderedMap.get_eq_some.mp hreceipt)
      -- no receipt is named as the files of mappings are
      have hfile := @file_get _ _ _ h id (fun t' ht' => by
        rw [ht', startsWith_mapping] at hplain
        cases hplain)
      rw [hget, Option.bind_some, hreceipt] at hrow
      constructor
      · have hmember : member "receipt_id" [("receipt_id", .str id)] = .str id := rfl
        have htruthy : (Value.str id).truthy = true := by simpa [Value.truthy] using hne
        dsimp only [Option.map_some]
        rw [hmember, if_pos htruthy, host.format_str]
        unfold FileStorage.getReceipt InMemoryStorage.getReceipt
        rw [hfile]
      · obtain ⟨row, hrow, hdata⟩ := Option.map_eq_some_iff.mp hrow
        rw [hrow]
        dsimp only
        unfold InMemoryStorage.getReceipt
        rw [hdata, hreceipt]

/-- The file of a receipt is written beside the mappings. -/
theorem ReceiptsRelated.files_set (h : ReceiptsRelated memory file sqlite) {id : String}
    (hid : startsWith id "task-" = false) (receipt : Dict) :
    (OrderedMap.setEntries (fileName id) receipt file.receipts.entries).Perm
      ((OrderedMap.setEntries id receipt memory.receipts.entries).map taskFile ++
        memory.taskReceipts.entries.map mappingFile) := by
  have hset := OrderedMap.setEntries_perm (fileName id) receipt file.receipts.nodup
  -- the name of a receipt's file is no mapping's
  have hkept : ((memory.taskReceipts.entries.map mappingFile).filter fun e =>
      e.1 ≠ fileName id) = memory.taskReceipts.entries.map mappingFile := by
    rw [List.filter_eq_self]
    intro e he
    obtain ⟨f, -, rfl⟩ := List.mem_map.mp he
    exact decide_eq_true (fileName_ne_mapping hid f.1).symm
  have hothers := h.files.filter fun e => e.1 ≠ fileName id
  rw [List.filter_append, hkept] at hothers
  have hfiles := perm_set fileName_injective taskFile_name memory.receipts.nodup
    (List.Perm.refl _) id receipt
  exact hset.trans ((hothers.cons _).trans (hfiles.append_right _))

/-- A mapping is written beside the receipts. -/
theorem mappings_set {receipts : List (String × Dict)} {mappings : OrderedMap String String}
    {files : OrderedMap String Dict}
    (hfiles : files.entries.Perm (receipts.map taskFile ++ mappings.entries.map mappingFile))
    (hreceipts : ∀ e ∈ receipts, startsWith e.1 "task-" = false) (t id : String) :
    (OrderedMap.setEntries (mappingName t) [("receipt_id", .str id)] files.entries).Perm
      (receipts.map taskFile ++ (OrderedMap.setEntries t id mappings.entries).map mappingFile) := by
  have hset := OrderedMap.setEntries_perm (mappingName t) [("receipt_id", Value.str id)] files.nodup
  -- nor is the name of a mapping a receipt's
  have hkept : ((receipts.map taskFile).filter fun e => e.1 ≠ mappingName t) =
      receipts.map taskFile := by
    rw [List.filter_eq_self]
    intro e he
    obtain ⟨f, hf, rfl⟩ := List.mem_map.mp he
    exact decide_eq_true (fileName_ne_mapping (hreceipts f hf) t)
  have hothers := hfiles.filter fun e => e.1 ≠ mappingName t
  rw [List.filter_append, hkept] at hothers
  have hmapping := perm_set mappingName_injective mappingFile_name mappings.nodup
    (List.Perm.refl _) t id
  exact hset.trans ((hothers.cons _).trans
    (List.perm_middle.symm.trans (hmapping.append_left _)))

/-- The row of a receipt is written beside the others. -/
theorem ReceiptsRelated.rows_set (h : ReceiptsRelated memory file sqlite) (id : String)
    (receipt : Dict) (now : String) :
    ∃ createdAt, ((sqlite.receipts.filter fun row : ReceiptRow => row.receiptId ≠ id) ++
        [(⟨id, columnText (member "task_id" receipt), columnText (member "tenant_id" receipt),
          columnText (member "agent_id" receipt), receipt, now⟩ : ReceiptRow)]).Perm
      ((OrderedMap.setEntries id receipt memory.receipts.entries).map (receiptRow createdAt)) := by
  obtain ⟨createdAt, hperm⟩ := h.rows
  refine ⟨Function.update createdAt id now, ?_⟩
  have hset := (OrderedMap.setEntries_perm id receipt memory.receipts.nodup).map
    (receiptRow (Function.update createdAt id now))
  have hothers := hperm.filter fun row : ReceiptRow => row.receiptId ≠ id
  have hkept : ((memory.receipts.entries.map (receiptRow createdAt)).filter fun row : ReceiptRow =>
      row.receiptId ≠ id) =
        (memory.receipts.entries.filter fun e => e.1 ≠ id).map (receiptRow createdAt) :=
    filter_map_ne Function.injective_id (receiptRow_receiptId createdAt) id
  -- the other rows keep the moment they were created
  have hsame : (memory.receipts.entries.filter fun e => e.1 ≠ id).map (receiptRow createdAt) =
      (memory.receipts.entries.filter fun e => e.1 ≠ id).map
        (receiptRow (Function.update createdAt id now)) := by
    refine List.map_congr_left fun e he => ?_
    have hne : e.1 ≠ id := of_decide_eq_true (List.mem_filter.mp he).2
    unfold receiptRow
    rw [Function.update_of_ne hne]
  have hnow : receiptRow (Function.update createdAt id now) (id, receipt) =
      ⟨id, columnText (member "task_id" receipt), columnText (member "tenant_id" receipt),
        columnText (member "agent_id" receipt), receipt, now⟩ := by
    unfold receiptRow
    rw [Function.update_self]
  refine (List.perm_append_singleton _ _).trans (List.Perm.trans ?_ hset.symm)
  rw [List.map_cons, hnow, ← hsame]
  exact (hothers.trans (List.Perm.of_eq hkept)).cons _

/-- What the mappings say after a receipt has been saved with its task. -/
theorem ReceiptsRelated.mapping_save (h : ReceiptsRelated memory file sqlite) {id : String}
    {receipt : Dict}
    (hstays : ∀ old, memory.receipts.get id = some old →
      member "task_id" old = member "task_id" receipt)
    {mappings : OrderedMap String String}
    (hmapped : ∀ t, member "task_id" receipt = .str t → mappings.get t = some id ∧
      ∀ other, memory.taskReceipts.get t = some other → other = id)
    (hothers : ∀ t, member "task_id" receipt ≠ .str t →
      mappings.get t = memory.taskReceipts.get t) (t r : String) :
    mappings.get t = some r ↔
      ∃ d, (memory.receipts.set id receipt).get r = some d ∧ member "task_id" d = .str t := by
  by_cases ht : member "task_id" receipt = .str t
  · -- no other receipt is mapped to the task of this one
    obtain ⟨hget, honly⟩ := hmapped t ht
    rw [hget, Option.some.injEq]
    constructor
    · rintro rfl
      exact ⟨receipt, by rw [OrderedMap.get_set, if_pos rfl], ht⟩
    · rintro ⟨d, hd, hmember⟩
      by_contra hne
      rw [OrderedMap.get_set_ne _ hne] at hd
      exact hne (honly r ((h.mapping t r).mpr ⟨d, hd, hmember⟩)).symm
  · rw [hothers t ht, h.mapping t r]
    by_cases hr : id = r
    · -- a receipt that is saved again stays with its task
      subst hr
      constructor
      · rintro ⟨d, hd, hmember⟩
        exact absurd ((hstays d hd).symm.trans hmember) ht
      · rintro ⟨d, hd, hmember⟩
        rw [OrderedMap.get_set, if_pos rfl] at hd
        cases hd
        exact absurd hmember ht
    · rw [OrderedMap.get_set_ne _ hr]

theorem ReceiptsRelated.plain_save (h : ReceiptsRelated memory file sqlite) {id : String}
    {receipt : Dict} (hplain : PlainReceipt receipt) (hmember : member "receipt_id" receipt = .str id)
    (hne : id ≠ "") (hid : startsWith id "task-" = false) :
    ∀ e ∈ OrderedMap.setEntries id receipt memory.receipts.entries, PlainReceipt e.2 ∧
      member "receipt_id" e.2 = .str e.1 ∧ e.1 ≠ "" ∧ startsWith e.1 "task-" = false := by
  intro e he
  have hperm := OrderedMap.setEntries_perm id receipt memory.receipts.nodup
  rcases List.mem_cons.mp (hperm.subset he) with rfl | hold
  · exact ⟨hplain, hmember, hne, hid⟩
  · exact h.plain e (List.mem_filter.mp hold).1

theorem ReceiptsRelated.save (h : ReceiptsRelated memory file sqlite)
    {receipt : Identified "receipt_id"} (hplain : PlainReceipt receipt.members)
    (hmeets : ∀ id, receipt.id? = some id →
      startsWith id "task-" = false ∧
        (∀ old, memory.receipts.get id = some old →
          member "task_id" old = member "task_id" receipt.members) ∧
        ∀ t other, member "task_id" receipt.members = .str t →
          memory.taskReceipts.get t = some other → other = id)
    (now : String) :
    ReceiptsRelated (memory.saveReceipt receipt).1 (file.saveReceipt host receipt).1
        (sqlite.saveReceipt host receipt now).1 ∧
      (file.saveReceipt host receipt).2 = (memory.saveReceipt receipt).2 ∧
        (sqlite.saveReceipt host receipt now).2 = (memory.saveReceipt receipt).2 := by
  unfold InMemoryStorage.saveReceipt FileStorage.saveReceipt SQLiteStorage.saveReceipt
  cases hreceipt : receipt.id? with
  | none => exact ⟨h, rfl, rfl⟩
  | some id =>
      obtain ⟨hentry, hne⟩ := id?_eq_some hreceipt
      obtain ⟨hid, hstays, honly⟩ := hmeets id hreceipt
      have hmember := member_eq_str hentry
      have hindex : InMemoryStorage.insertIndex id memory.receiptIndex =
          (OrderedMap.setEntries id receipt.members memory.receipts.entries).map Prod.fst := by
        rw [h.index]
        exact insertIndex_keys id _ _
      have hkept := h.plain_save hplain hmember hne hid
      have hfiles := h.files_set hid receipt.members
      have hrows := h.rows_set id receipt.members now
      dsimp only
      rw [hplain.task.1.bind_eq host, hplain.tenant.bind_eq host, hplain.agent.bind_eq host]
      rcases hplain.task.1 with hnone | ⟨t, ht⟩
      · -- without a task nothing is mapped
        rw [hnone] at hrows ⊢
        refine ⟨?_, rfl, rfl⟩
        exact
          { index   := hindex
            files   := hfiles
            rows    := hrows
            plain   := hkept
            mapping := h.mapping_save hstays
              (fun t ht => by
                rw [hnone] at ht
                cases ht)
              (fun _ _ => rfl) }
      · have hempty : t ≠ "" := by
          rintro rfl
          exact hplain.task.2 ht
        have htruthy : (Value.str t).truthy = true := by simpa [Value.truthy] using hempty
        have hhashable : ¬((Value.str t).truthy && !(Value.str t).hashable) = true := by
          simp [Value.hashable]
        rw [ht] at hrows ⊢
        rw [if_neg hhashable]
        dsimp only
        rw [if_neg hempty, if_pos htruthy, host.format_str]
        refine ⟨?_, rfl, rfl⟩
        exact
          { index   := hindex
            files   := @mappings_set _ _ (file.receipts.set (fileName id) receipt.members) hfiles
              (fun e he => (hkept e he).2.2.2) t id
            rows    := hrows
            plain   := hkept
            mapping := h.mapping_save hstays
              (fun t' ht' => by
                have htask : t = t' := Value.str.inj (ht.symm.trans ht')
                subst htask
                exact ⟨by rw [OrderedMap.get_set, if_pos rfl], fun other => honly t other ht⟩)
              (fun t' ht' => by
                rw [OrderedMap.get_set_ne]
                rintro rfl
                exact ht' ht) }

/-! ## Lists of receipts -/

theorem ReceiptsRelated.list_memory (h : ReceiptsRelated memory file sqlite)
    (tenantId agentId : Option String) (limit : Int) (cursor : Option String) :
    memory.listReceipts tenantId agentId limit cursor =
      .page (pageAfter "receipt_id" limit cursor
        (memory.receipts.values.filter (receiptPasses tenantId agentId))) := by
  unfold InMemoryStorage.listReceipts
  rw [h.index, OrderedMap.filterMap_get_keys]

theorem ReceiptsRelated.list_sqlite (h : ReceiptsRelated memory file sqlite)
    {tenantId agentId : Option String} {limit : Int} {cursor : Option String}
    (hlist : Listable "receipt_id" limit cursor
      (memory.receipts.values.filter (receiptPasses tenantId agentId)))
    (hdescending : Descending (fun receipt => sqlite.createdAt (textAt "receipt_id" receipt))
      (memory.receipts.values.filter (receiptPasses tenantId agentId))) :
    sqlite.listReceipts host tenantId agentId limit cursor =
      .page (pageAfter "receipt_id" limit cursor
        (memory.receipts.values.filter (receiptPasses tenantId agentId))) := by
  obtain ⟨createdAt, hrows⟩ := h.rows
  have hdata : ∀ e, ReceiptRow.data (receiptRow createdAt e) = e.2 := fun _ => rfl
  refine select_eq host h.keyed hrows (receiptRow_receiptId createdAt) hdata ?_ hlist ?_
  · intro e he
    obtain ⟨hplain, -⟩ := h.plain e he
    have htenant := columnIs_text "tenant_id" tenantId hplain.tenant
    have hagent := columnIs_text "agent_id" agentId hplain.agent
    unfold receiptPasses
    rw [← htenant, ← hagent]
    rfl
  · have hvalues : memory.receipts.values.filter (receiptPasses tenantId agentId) =
        (memory.receipts.entries.filter fun e => receiptPasses tenantId agentId e.2).map Prod.snd :=
      List.filter_map
    rw [hvalues] at hdescending
    have hentries := Descending.map_iff.mp hdescending
    refine List.Pairwise.imp_of_mem ?_ hentries
    have htime {e : String × Dict}
        (he : e ∈ memory.receipts.entries.filter fun e => receiptPasses tenantId agentId e.2) :
        sqlite.createdAt (textAt "receipt_id" e.2) = createdAt e.1 := by
      have hstored := (List.mem_filter.mp he).1
      have hfound := find?_key memory.receipts.nodup hrows (receiptRow_receiptId createdAt) hstored
      unfold SQLiteStorage.createdAt
      rw [h.textAt_id hstored, hfound]
      rfl
    intro a b ha hb hlt
    have hafter : sqlite.createdAt (textAt "receipt_id" b.2) <
        sqlite.createdAt (textAt "receipt_id" a.2) := hlt
    rw [htime ha, htime hb] at hafter
    exact hafter

theorem startsWith_fileName {id : String} (h : startsWith id "receipt_" = true) :
    startsWith (fileName id) "receipt_" = true := by
  unfold startsWith at h ⊢
  unfold fileName
  rw [String.toList_append]
  exact List.isPrefixOf_iff_prefix.mpr
    ((List.isPrefixOf_iff_prefix.mp h).trans (List.prefix_append _ _))

theorem not_startsWith_mappingName (t : String) :
    startsWith (mappingName t) "receipt_" = false := by
  have hchars : (mappingName t).toList = 't' :: ("ask-".toList ++ t.toList ++ ".json".toList) := by
    unfold mappingName
    rw [String.toList_append, String.toList_append]
    rfl
  unfold startsWith
  rw [hchars]
  rfl

theorem filterMap_get_names (files : OrderedMap String Dict) (q : String → Bool) :
    ((files.entries.map Prod.fst).filter q).filterMap files.get =
      (files.entries.filter fun e => q e.1).map Prod.snd := by
  rw [List.filter_map, List.filterMap_map, ← List.filterMap_eq_map]
  refine List.filterMap_congr fun e he => ?_
  exact OrderedMap.get_eq_some.mpr (List.mem_filter.mp he).1

theorem ReceiptsRelated.list_file (h : ReceiptsRelated memory file sqlite)
    {tenantId agentId : Option String} (limit : Int) (cursor : Option String)
    (hnamed : ∀ receipt ∈ memory.receipts.values.filter (receiptPasses tenantId agentId),
      startsWith (textAt "receipt_id" receipt) "receipt_" = true)
    (hsortable : Sortable "timestamp"
      (memory.receipts.values.filter (receiptPasses tenantId agentId)))
    (hdescending : Descending (textAt "timestamp")
      (memory.receipts.values.filter (receiptPasses tenantId agentId))) :
    file.listReceipts host tenantId agentId limit cursor =
      .page (pageAfter "receipt_id" limit cursor
        (memory.receipts.values.filter (receiptPasses tenantId agentId))) := by
  have hread (q : String → Bool) : (((host.listdir (file.receipts.entries.map Prod.fst)).filter
      q).filterMap file.receipts.get).Perm
        ((file.receipts.entries.filter fun e => q e.1).map Prod.snd) := by
    rw [← filterMap_get_names]
    exact ((host.listdir_perm _).filter q).filterMap _
  have hmappings : ((memory.taskReceipts.entries.map mappingFile).filter fun e =>
      startsWith e.1 "receipt_" && endsWith e.1 ".json") = [] := by
    rw [List.filter_eq_nil_iff]
    intro e he
    obtain ⟨f, -, rfl⟩ := List.mem_map.mp he
    rw [mappingFile_name, not_startsWith_mappingName]
    exact Bool.false_ne_true
  have hfiles := h.files.filter fun e => startsWith e.1 "receipt_" && endsWith e.1 ".json"
  rw [List.filter_append, hmappings, List.append_nil, List.filter_map] at hfiles
  have hnames := hread fun name => startsWith name "receipt_" && endsWith name ".json"
  have hvalues := (hnames.trans (hfiles.map Prod.snd)).filter (receiptPasses tenantId agentId)
  have hrecords : ((memory.receipts.entries.filter ((fun e : String × Dict =>
        startsWith e.1 "receipt_" && endsWith e.1 ".json") ∘ taskFile)).map taskFile |>.map
          Prod.snd).filter (receiptPasses tenantId agentId) =
      memory.receipts.values.filter (receiptPasses tenantId agentId) := by
    have hsnd : Prod.snd ∘ taskFile = Prod.snd := rfl
    unfold OrderedMap.values at hnamed ⊢
    rw [List.map_map, hsnd, List.filter_map, List.filter_map, List.filter_filter]
    congr 1
    refine List.filter_congr fun e he => ?_
    cases hpasses : receiptPasses tenantId agentId e.2 with
    | false => simp [hpasses]
    | true =>
        have hname := hnamed e.2 (List.mem_filter.mpr ⟨List.mem_map_of_mem he, hpasses⟩)
        rw [h.textAt_id he] at hname
        simp [hpasses, startsWith_fileName hname, endsWith_json]
  rw [hrecords] at hvalues
  have hsorted := sortBy_eq hsortable hdescending hvalues
  unfold FileStorage.listReceipts
  dsimp only
  rw [hsorted]

end

/-! ## Runs

A call on tasks leaves the receipts alone, and a call on receipts the tasks. -/

section

variable {host : Host} {memory memory' : InMemoryStorage} {file file' : FileStorage}
  {sqlite sqlite' : SQLiteStorage}

/-- The receipts are related as long as none of the storages touches them. -/
theorem ReceiptsRelated.frame (h : ReceiptsRelated memory file sqlite)
    (hmemory : memory'.receipts = memory.receipts ∧ memory'.taskReceipts = memory.taskReceipts ∧
      memory'.receiptIndex = memory.receiptIndex)
    (hfile : file'.receipts = file.receipts) (hsqlite : sqlite'.receipts = sqlite.receipts) :
    ReceiptsRelated memory' file' sqlite' := by
  obtain ⟨hreceipts, hmappings, hindex⟩ := hmemory
  obtain ⟨index, files, rows, plain, mapping⟩ := h
  rw [← hreceipts] at index files rows plain mapping
  rw [← hmappings] at files mapping
  rw [← hindex] at index
  rw [← hfile] at files
  rw [← hsqlite] at rows
  exact ⟨index, files, rows, plain, mapping⟩

theorem TasksRelated.frame (h : TasksRelated memory file sqlite)
    (hmemory : memory'.tasks = memory.tasks ∧ memory'.taskIndex = memory.taskIndex)
    (hfile : file'.tasks = file.tasks) (hsqlite : sqlite'.tasks = sqlite.tasks) :
    TasksRelated memory' file' sqlite' := by
  obtain ⟨htasks, hindex⟩ := hmemory
  obtain ⟨index, files, rows, plain⟩ := h
  rw [← htasks] at index files rows plain
  rw [← hindex] at index
  rw [← hfile] at files
  rw [← hsqlite] at rows
  exact ⟨index, files, rows, plain⟩

end

theorem InMemoryStorage.saveTask_frame (s : InMemoryStorage) (task : Identified "task_id")
    (now : String) :
    (s.saveTask task now).1.receipts = s.receipts ∧
      (s.saveTask task now).1.taskReceipts = s.taskReceipts ∧
        (s.saveTask task now).1.receiptIndex = s.receiptIndex := by
  unfold InMemoryStorage.saveTask
  split <;> exact ⟨rfl, rfl, rfl⟩

theorem FileStorage.saveTask_frame (s : FileStorage) (task : Identified "task_id") (now : String) :
    (s.saveTask task now).1.receipts = s.receipts := by
  unfold FileStorage.saveTask
  split <;> rfl

theorem SQLiteStorage.saveTask_frame (host : Host) (s : SQLiteStorage)
    (task : Identified "task_id") (now : String) :
    (s.saveTask host task now).1.receipts = s.receipts := by
  unfold SQLiteStorage.saveTask
  split
  · rfl
  · dsimp only
    split
    · split <;> rfl
    · rfl

theorem InMemoryStorage.deleteTask_frame (s : InMemoryStorage) (taskId : String) :
    (s.deleteTask taskId).1.receipts = s.receipts ∧
      (s.deleteTask taskId).1.taskReceipts = s.taskReceipts ∧
        (s.deleteTask taskId).1.receiptIndex = s.receiptIndex := by
  unfold InMemoryStorage.deleteTask
  split <;> exact ⟨rfl, rfl, rfl⟩

theorem InMemoryStorage.saveReceipt_frame (s : InMemoryStorage)
    (receipt : Identified "receipt_id") :
    (s.saveReceipt receipt).1.tasks = s.tasks ∧
      (s.saveReceipt receipt).1.taskIndex = s.taskIndex := by
  unfold InMemoryStorage.saveReceipt
  split
  · exact ⟨rfl, rfl⟩
  · dsimp only
    split <;> exact ⟨rfl, rfl⟩

theorem FileStorage.saveReceipt_frame (host : Host) (s : FileStorage)
    (receipt : Identified "receipt_id") : (s.saveReceipt host receipt).1.tasks = s.tasks := by
  unfold FileStorage.saveReceipt
  split <;> rfl

theorem SQLiteStorage.saveReceipt_frame (host : Host) (s : SQLiteStorage)
    (receipt : Identified "receipt_id") (now : String) :
    (s.saveReceipt host receipt now).1.tasks = s.tasks := by
  unfold SQLiteStorage.saveReceipt
  split
  · rfl
  · split <;> rfl

/-- A call that meets its conditions keeps the storages related and is given one answer. -/
theorem related_call (host : Host) {s : Storages} (h : Related s) {call : StorageCall}
    (hmeets : s.Meets call) : Related (s.step host call) ∧ s.SameAnswers host call := by
  obtain ⟨htasks, hreceipts⟩ := h
  cases call with
  | saveTask task now =>
      -- the receipts have no part in this call, so they stay related
      obtain ⟨hrelated, hanswers⟩ := @TasksRelated.save host _ _ _ htasks _ hmeets now
      have hkept := hreceipts.frame (s.memory.saveTask_frame task now)
        (s.file.saveTask_frame task now) (s.sqlite.saveTask_frame host task now)
      exact ⟨⟨hrelated, hkept⟩, hanswers⟩
  | getTask taskId =>
      refine ⟨⟨htasks, hreceipts⟩, ?_, ?_⟩
      · show s.file.getTask taskId = s.memory.getTask taskId
        unfold FileStorage.getTask InMemoryStorage.getTask
        rw [htasks.file_get]
      · have hrow := @TasksRelated.row_data host _ _ _ htasks taskId
        show s.sqlite.getTask host taskId = s.memory.getTask taskId
        unfold SQLiteStorage.getTask InMemoryStorage.getTask
        rw [← hrow]
        cases (host.scan s.sqlite.tasks).find? fun row => row.taskId == taskId <;> rfl
  | listTasks tenantId status limit cursor =>
      obtain ⟨hlist, hdescending⟩ := hmeets
      have hmemory := htasks.list_memory tenantId status limit cursor
      exact ⟨⟨htasks, hreceipts⟩, (htasks.list_file limit cursor hdescending).trans hmemory.symm,
        (htasks.list_sqlite hlist hdescending).trans hmemory.symm⟩
  | deleteTask taskId =>
      obtain ⟨hrelated, hanswers⟩ := htasks.delete hmeets
      exact ⟨⟨hrelated, hreceipts.frame (s.memory.deleteTask_frame taskId) rfl rfl⟩, hanswers⟩
  | saveReceipt receipt now =>
      obtain ⟨hrelated, hanswers⟩ := @ReceiptsRelated.save host _ _ _ hreceipts _ hmeets.1 hmeets.2
        now
      have hkept := htasks.frame (s.memory.saveReceipt_frame receipt)
        (s.file.saveReceipt_frame host receipt) (s.sqlite.saveReceipt_frame host receipt now)
      exact ⟨⟨hkept, hrelated⟩, hanswers⟩
  | getReceipt receiptId =>
      refine ⟨⟨htasks, hreceipts⟩, ?_, ?_⟩
      · show s.file.getReceipt receiptId = s.memory.getReceipt receiptId
        unfold FileStorage.getReceipt InMemoryStorage.getReceipt
        rw [hreceipts.file_get hmeets]
      · have hrow := @ReceiptsRelated.row_data host _ _ _ hreceipts receiptId
        show s.sqlite.getReceipt host receiptId = s.memory.getReceipt receiptId
        unfold SQLiteStorage.getReceipt InMemoryStorage.getReceipt
        rw [← hrow]
        cases (host.scan s.sqlite.receipts).find? fun row => row.receiptId == receiptId <;> rfl
  | getReceiptByTaskId taskId => exact ⟨⟨htasks, hreceipts⟩, hreceipts.by_task taskId⟩
  | listReceipts tenantId agentId limit cursor =>
      obtain ⟨hlist, hnamed, hsortable, htimestamp, hcreated⟩ := hmeets
      -- both other lists are compared with the one in memory
      have hmemory := hreceipts.list_memory tenantId agentId limit cursor
      exact ⟨⟨htasks, hreceipts⟩,
        (hreceipts.list_file limit cursor hnamed hsortable htimestamp).trans hmemory.symm,
        (hreceipts.list_sqlite hlist hcreated).trans hmemory.symm⟩

theorem stepsMeet_sameAnswers (host : Host) {s : Storages} (h : Related s)
    {calls : List StorageCall} (hmeets : StepsMeet (Storages.step host) Storages.Meets s calls) :
    StepsMeet (Storages.step host) (Storages.SameAnswers host) s calls := by
  induction calls generalizing s with
  | nil => trivial
  | cons call calls ih =>
      obtain ⟨hcall, hcalls⟩ := hmeets
      obtain ⟨hrelated, hsame⟩ := related_call host h hcall
      exact ⟨hsame, ih hrelated hcalls⟩

/-- **Where the storages agree.** In every run of calls that meet their conditions, the storages give
the same answer to each. -/
theorem storages_agree (host : Host) (calls : List StorageCall)
    (hmeets : StepsMeet (Storages.step host) Storages.Meets {} calls) :
    StepsMeet (Storages.step host) (Storages.SameAnswers host) {} calls :=
  stepsMeet_sameAnswers host related_empty hmeets

/-- A host that lists and scans in the order of entry. -/
def sampleHost : Host where
  listdir := id
  listdir_perm := fun _ => .refl _
  scan := id
  scan_perm := fun _ => .refl _
  format
    | .str s => s
    | _      => ""
  format_str := fun _ => rfl
  column := fun _ => none
  json := fun _ => ""

def sampleTask (id : String) : Identified "task_id" where
  members := [("task_id", .str id), ("status", .str "completed")]
  text := fun _ hv _ => ⟨id, (Option.some.inj hv).symm⟩

theorem storages_agree_sample :
    StepsMeet (Storages.step sampleHost) (Storages.SameAnswers sampleHost) {}
      [.saveTask (sampleTask "t1") "2026-01-01T00:00:00+00:00", .getTask "t1",
        .listTasks none (some "completed") 100 none, .deleteTask "t1", .getTask "t1"] := by
  refine storages_agree sampleHost _ ⟨?_, trivial, ⟨?_, ?_⟩, rfl, trivial, trivial⟩
  · exact
      { requester := fun _ hv => by cases hv
        tenant    := .inl rfl
        status    := rfl }
  · exact
      { limit  := by decide
        cursor := fun _ hc => by cases hc }
  · exact List.pairwise_singleton _ _

/-- A removal of what is not there fails in memory only. -/
theorem removal_differs :
    ¬StepsMeet (Storages.step sampleHost) (Storages.SameAnswers sampleHost) {}
      [.deleteTask "t1"] := by
  rintro ⟨⟨hfile, -⟩, -⟩
  cases hfile

end MapProtocol.Sdk.Python
