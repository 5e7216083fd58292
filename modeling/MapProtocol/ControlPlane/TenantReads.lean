import MapProtocol.ControlPlane.StoreRuns

/-!
# What a tenant reads

The readers of both stores that are given a tenant. The task store goes by the requester of the
record, the receipt store by the tenant on the receipt; both count a blank tenant as the default
one. A tenant's view of a store is what is left of it without everyone else's records, and the
readers show the view: two stores with the same view answer alike.

One kind of record belongs to no tenant and shows all the same: a task whose requester identity an
update set to `undefined`. Reading its tenant throws, whoever asked.
-/

namespace MapProtocol

/-! ## Views -/

/-- The requester of the record belongs to the tenant. -/
def TaskRecord.ofTenant (t : String) (record : TaskRecord) : Bool :=
  record.requesterIdentity.any fun identity => identity.tenantId == some t

def ExecutionReceipt.ofTenant (t : String) (receipt : ExecutionReceipt) : Bool :=
  receipt.tenantId == some t

def TaskStore.tenantView (store : TaskStore) (t : String) : OrderedMap String TaskRecord :=
  store.tasks.filter (TaskRecord.ofTenant t)

def ReceiptStore.tenantView (store : ReceiptStore) (t : String) :
    OrderedMap String ExecutionReceipt :=
  store.receipts.filter (ExecutionReceipt.ofTenant t)

/-- The record lost its requester identity. -/
def TaskRecord.anonymous (record : TaskRecord) : Prop := record.requesterIdentity = none

instance (record : TaskRecord) : Decidable record.anonymous :=
  decidable_of_iff (record.requesterIdentity.isNone = true) Option.isNone_iff_eq_none

/-- The task is on record without a requester identity. -/
def TaskStore.Anonymous (store : TaskStore) (taskId : String) : Prop :=
  ∃ record, store.get taskId = some record ∧ record.anonymous

variable {t : String}

theorem TaskStore.resolveTenantId_eq_iff (hblank : Js.isBlank t = false) (hdefault : t ≠ "default")
    (tenantId : Option String) :
    TaskStore.resolveTenantId tenantId = TaskStore.resolveTenantId (some t) ↔
      tenantId = some t := by
  unfold TaskStore.resolveTenantId
  cases tenantId with
  | none => simpa [hblank] using Ne.symm hdefault
  | some u =>
      cases hu : Js.isBlank u with
      | false => simp [hblank, hu]
      | true =>
          have hne : u ≠ t := by
            rintro rfl
            rw [hu] at hblank
            cases hblank
          simp [hblank, hu, hne, Ne.symm hdefault]

/-! ## Filtering under `Except`

Reading the tenant of a record may throw, and then the whole list throws. -/

section FilterM

variable {α ε : Type} {f : α → Except ε Bool}

theorem filterAuxM_ok {p : α → Bool} {l : List α} (h : ∀ x ∈ l, f x = .ok (p x)) (acc : List α) :
    l.filterAuxM f acc = .ok ((l.filter p).reverse ++ acc) := by
  induction l generalizing acc with
  | nil => rfl
  | cons x l ih =>
      have hrest : ∀ y ∈ l, f y = .ok (p y) := fun y hy => h y (List.mem_cons_of_mem x hy)
      show (f x >>= fun b => l.filterAuxM f (cond b (x :: acc) acc)) = _
      rw [h x List.mem_cons_self]
      show l.filterAuxM f (cond (p x) (x :: acc) acc) = _
      rw [ih hrest, List.filter_cons]
      cases p x <;> simp

theorem filterM_ok {p : α → Bool} {l : List α} (h : ∀ x ∈ l, f x = .ok (p x)) :
    l.filterM f = .ok (l.filter p) := by
  unfold List.filterM
  rw [filterAuxM_ok h]
  show Except.ok _ = _
  simp

theorem filterAuxM_error {e : ε} {l : List α} (hall : ∀ x ∈ l, f x = .error e ∨ ∃ b, f x = .ok b)
    (hsome : ∃ x ∈ l, f x = .error e) (acc : List α) : l.filterAuxM f acc = .error e := by
  induction l generalizing acc with
  | nil =>
      obtain ⟨x, hx, _⟩ := hsome
      cases hx
  | cons x l ih =>
      show (f x >>= fun b => l.filterAuxM f (cond b (x :: acc) acc)) = _
      rcases hall x List.mem_cons_self with hx | ⟨b, hx⟩
      · rw [hx]
        rfl
      · rw [hx]
        refine ih (fun y hy => hall y (List.mem_cons_of_mem x hy)) ?_ _
        obtain ⟨y, hy, hey⟩ := hsome
        rcases List.mem_cons.mp hy with rfl | hrest
        · rw [hx] at hey
          cases hey
        · exact ⟨y, hrest, hey⟩

theorem filterM_error {e : ε} {l : List α} (hall : ∀ x ∈ l, f x = .error e ∨ ∃ b, f x = .ok b)
    (hsome : ∃ x ∈ l, f x = .error e) : l.filterM f = .error e := by
  unfold List.filterM
  rw [filterAuxM_error hall hsome]
  rfl

end FilterM

/-! ## The task store -/

namespace TaskStore

variable {store store' : TaskStore}

/-- What reading the tenant of an anonymous record throws. -/
def noTenant : String := "Cannot read properties of undefined (reading 'tenant_id')"

/-- One task, as the tenant reads it. -/
theorem getByTenant_eq (hblank : Js.isBlank t = false) (hdefault : t ≠ "default")
    (taskId : String) :
    store.getByTenant taskId t =
      if (store.get taskId).any (fun record => decide record.anonymous) then .error noTenant
      else .ok ((store.tenantView t).get taskId) := by
  unfold getByTenant tenantView
  rw [OrderedMap.get_filter]
  show _ = if (store.tasks.get taskId).any _ then _ else _
  cases store.tasks.get taskId with
  | none => rfl
  | some record =>
      dsimp only
      cases hidentity : record.requesterIdentity with
      | none => simp [TaskRecord.anonymous, hidentity, noTenant]
      | some identity =>
          by_cases htenant : identity.tenantId = some t
          · simp [TaskRecord.anonymous, TaskRecord.ofTenant, Option.filter, hidentity, htenant]
          · have hother := mt (resolveTenantId_eq_iff hblank hdefault identity.tenantId).mp htenant
            simp [TaskRecord.anonymous, TaskRecord.ofTenant, Option.filter, hidentity, htenant,
              hother]

theorem getByTenant_anonymous {taskId : String} (h : store.Anonymous taskId) :
    store.getByTenant taskId t = .error noTenant := by
  obtain ⟨record, hget, hidentity⟩ := h
  unfold getByTenant
  rw [show store.tasks.get taskId = some record from hget]
  dsimp only
  rw [show record.requesterIdentity = none from hidentity]
  rfl

theorem listByTenant_ok (hblank : Js.isBlank t = false) (hdefault : t ≠ "default")
    (hnone : ∀ taskId, ¬ store.Anonymous taskId) :
    store.listByTenant t = .ok (store.tenantView t).values := by
  unfold listByTenant tenantView
  rw [OrderedMap.values_filter]
  refine filterM_ok fun record hrecord => ?_
  obtain ⟨taskId, hget⟩ := OrderedMap.mem_values.mp hrecord
  cases hidentity : record.requesterIdentity with
  | none => exact absurd ⟨record, hget, hidentity⟩ (hnone taskId)
  | some identity =>
      by_cases htenant : identity.tenantId = some t
      · simp [TaskRecord.ofTenant, hidentity, htenant]
      · have hother := mt (resolveTenantId_eq_iff hblank hdefault identity.tenantId).mp htenant
        simp [TaskRecord.ofTenant, hidentity, htenant, hother]

theorem listByTenant_error {taskId : String} (h : store.Anonymous taskId) :
    store.listByTenant t = .error noTenant := by
  obtain ⟨record, hget, hidentity⟩ := h
  refine filterM_error (fun other _ => ?_) ⟨record, OrderedMap.mem_values.mpr ⟨taskId, hget⟩, ?_⟩
  · cases other.requesterIdentity with
    | none => exact .inl rfl
    | some identity => exact .inr ⟨_, rfl⟩
  · rw [show record.requesterIdentity = none from hidentity]
    rfl

/-- The tenant is answered alike by both stores, by every reader. -/
structure ReadsAlike (store store' : TaskStore) (t : String) : Prop where
  getByTenant  : ∀ taskId historyLength,
    store.getByTenantUpTo taskId t historyLength = store'.getByTenantUpTo taskId t historyLength
  listByTenant : ∀ historyLength,
    store.listByTenantUpTo t historyLength = store'.listByTenantUpTo t historyLength
  listReceipts : store.listReceipts (some t) = store'.listReceipts (some t)
  getReceipt   : ∀ receiptId, store.getReceipt receiptId (some t) =
    store'.getReceipt receiptId (some t)

theorem listReceipts_eq (hblank : Js.isBlank t = false) :
    store.listReceipts (some t) =
      (store.listByTenant t).map fun records => records.filterMap TaskRecord.receipt := by
  have hne : t ≠ "" := by
    rintro rfl
    cases hblank
  unfold listReceipts
  simp only [hne, if_false]
  cases store.listByTenant t <;> rfl

theorem ReadsAlike.of_lookups (hblank : Js.isBlank t = false)
    (hget : ∀ taskId, store.getByTenant taskId t = store'.getByTenant taskId t)
    (hlist : store.listByTenant t = store'.listByTenant t) : ReadsAlike store store' t := by
  have hreceipts : store.listReceipts (some t) = store'.listReceipts (some t) := by
    rw [listReceipts_eq hblank, listReceipts_eq hblank, hlist]
  refine ⟨fun taskId historyLength => ?_, fun historyLength => ?_, hreceipts, fun receiptId => ?_⟩
  · unfold getByTenantUpTo
    rw [hget]
  · unfold listByTenantUpTo
    rw [hlist]
  · unfold TaskStore.getReceipt
    rw [hreceipts]

/-- **Two stores with one view answer alike exactly when the same tasks are anonymous in them.** -/
theorem readsAlike_iff (hblank : Js.isBlank t = false) (hdefault : t ≠ "default")
    (hview : store.tenantView t = store'.tenantView t) :
    ReadsAlike store store' t ↔ ∀ taskId, store.Anonymous taskId ↔ store'.Anonymous taskId := by
  constructor
  · -- an anonymous task answers with an error, any other task does not
    have hone : ∀ {s s' : TaskStore}, (∀ taskId, s.getByTenantUpTo taskId t none =
        s'.getByTenantUpTo taskId t none) → ∀ taskId, s.Anonymous taskId → s'.Anonymous taskId := by
      intro s s' hreads taskId hanonymous
      by_contra hnot
      have hany : (s'.get taskId).any (fun record => decide record.anonymous) = false := by
        cases hget : s'.get taskId with
        | none => rfl
        | some record =>
            simp only [Option.any_some, decide_eq_false_iff_not]
            exact fun hidentity => hnot ⟨record, hget, hidentity⟩
      have heq := hreads taskId
      unfold getByTenantUpTo at heq
      rw [getByTenant_anonymous hanonymous, getByTenant_eq hblank hdefault, hany] at heq
      cases heq
    intro h taskId
    exact ⟨hone (fun taskId => h.getByTenant taskId none) taskId,
      hone (fun taskId => (h.getByTenant taskId none).symm) taskId⟩
  · intro h
    refine .of_lookups hblank (fun taskId => ?_) ?_
    · have hany : (store.get taskId).any (fun record => decide record.anonymous) =
          (store'.get taskId).any (fun record => decide record.anonymous) := by
        have hiff := h taskId
        unfold Anonymous at hiff
        rw [Bool.eq_iff_iff]
        simpa [Option.any_eq_true] using hiff
      rw [getByTenant_eq hblank hdefault, getByTenant_eq hblank hdefault, hview, hany]
    · by_cases hany : ∃ taskId, store.Anonymous taskId
      · obtain ⟨taskId, hanonymous⟩ := hany
        rw [listByTenant_error hanonymous, listByTenant_error ((h taskId).mp hanonymous)]
      · have hnone : ∀ taskId, ¬ store.Anonymous taskId := not_exists.mp hany
        rw [listByTenant_ok hblank hdefault hnone,
          listByTenant_ok hblank hdefault fun taskId => mt (h taskId).mpr (hnone taskId), hview]

/-- Every record and every receipt that the tenant reads is the tenant's. -/
structure ReadsOwn (store : TaskStore) (t : String) : Prop where
  getByTenant  : ∀ taskId historyLength record,
    store.getByTenantUpTo taskId t historyLength = .ok (some record) → record.ofTenant t = true
  listByTenant : ∀ historyLength records, store.listByTenantUpTo t historyLength = .ok records →
    ∀ record ∈ records, record.ofTenant t = true
  listReceipts : ∀ receipts, store.listReceipts (some t) = .ok receipts → ∀ receipt ∈ receipts,
    ∃ record ∈ store.list, record.ofTenant t = true ∧ record.receipt = some receipt
  getReceipt   : ∀ receiptId receipt, store.getReceipt receiptId (some t) = .ok (some receipt) →
    ∃ record ∈ store.list, record.ofTenant t = true ∧ record.receipt = some receipt

@[simp] theorem ofTenant_applyHistoryLength (historyLength : Option Rat) (record : TaskRecord) :
    (applyHistoryLength historyLength record).ofTenant t = record.ofTenant t := by
  unfold applyHistoryLength
  split <;> rfl

theorem listByTenant_own (hblank : Js.isBlank t = false) (hdefault : t ≠ "default")
    {records : List TaskRecord} (h : store.listByTenant t = .ok records) :
    ∀ record ∈ records, record ∈ store.list ∧ record.ofTenant t = true := by
  by_cases hany : ∃ taskId, store.Anonymous taskId
  · obtain ⟨taskId, hanonymous⟩ := hany
    rw [listByTenant_error hanonymous] at h
    cases h
  · rw [listByTenant_ok hblank hdefault (not_exists.mp hany)] at h
    obtain rfl := Except.ok.inj h
    intro record hrecord
    unfold tenantView at hrecord
    rw [OrderedMap.values_filter] at hrecord
    exact List.mem_filter.mp hrecord

/-- **No other tenant's record is returned.** -/
theorem readsOwn (hblank : Js.isBlank t = false) (hdefault : t ≠ "default") (store : TaskStore) :
    ReadsOwn store t := by
  have hreceipts : ∀ receipts, store.listReceipts (some t) = .ok receipts → ∀ receipt ∈ receipts,
      ∃ record ∈ store.list, record.ofTenant t = true ∧ record.receipt = some receipt := by
    intro receipts h receipt hreceipt
    rw [listReceipts_eq hblank] at h
    obtain ⟨records, hrecords, rfl⟩ := map_eq_ok.mp h
    obtain ⟨record, hrecord, hheld⟩ := List.mem_filterMap.mp hreceipt
    obtain ⟨hlisted, hown⟩ := listByTenant_own hblank hdefault hrecords record hrecord
    exact ⟨record, hlisted, hown, hheld⟩
  refine ⟨fun taskId historyLength record h => ?_, fun historyLength records h record hrecord => ?_,
    hreceipts, fun receiptId receipt h => ?_⟩
  · unfold getByTenantUpTo at h
    obtain ⟨found, hfound, hmap⟩ := map_eq_ok.mp h
    rw [getByTenant_eq hblank hdefault] at hfound
    split at hfound
    · cases hfound
    · obtain rfl := Except.ok.inj hfound
      obtain ⟨stored, hstored, rfl⟩ := Option.map_eq_some_iff.mp hmap
      unfold tenantView at hstored
      rw [OrderedMap.get_filter] at hstored
      rw [ofTenant_applyHistoryLength]
      exact (Option.filter_eq_some_iff.mp hstored).2
  · unfold listByTenantUpTo at h
    obtain ⟨listed, hlisted, rfl⟩ := map_eq_ok.mp h
    obtain ⟨stored, hstored, rfl⟩ := List.mem_map.mp hrecord
    rw [ofTenant_applyHistoryLength]
    exact (listByTenant_own hblank hdefault hlisted stored hstored).2
  · unfold TaskStore.getReceipt at h
    simp only [bind_eq_ok, pure_eq_ok] at h
    obtain ⟨receipts, hlist, hfind⟩ := h
    exact hreceipts receipts hlist receipt (List.mem_of_find?_eq_some hfind)

end TaskStore

/-! ## The receipt store -/

namespace ReceiptStore

variable {store store' : ReceiptStore}

theorem matchesTenant_eq (hblank : Js.isBlank t = false) (hdefault : t ≠ "default")
    (receipt : ExecutionReceipt) : matchesTenant (some t) receipt = receipt.ofTenant t := by
  have hne : t ≠ "" := by
    rintro rfl
    cases hblank
  have hiff := TaskStore.resolveTenantId_eq_iff hblank hdefault receipt.tenantId
  unfold matchesTenant ExecutionReceipt.ofTenant
  simp only [hne, false_or]
  rw [Bool.eq_iff_iff, decide_eq_true_iff, beq_iff_eq]
  exact hiff

theorem getFor_eq (hblank : Js.isBlank t = false) (hdefault : t ≠ "default") (receiptId : String) :
    store.getFor receiptId (some t) = (store.tenantView t).get receiptId := by
  unfold getFor tenantView get
  rw [OrderedMap.get_filter]
  congr 1
  exact funext (matchesTenant_eq hblank hdefault)

theorem listFor_eq (hblank : Js.isBlank t = false) (hdefault : t ≠ "default") :
    store.listFor (some t) = (store.tenantView t).values := by
  unfold listFor list tenantView
  rw [OrderedMap.values_filter, store.ordered, OrderedMap.filterMap_get_keys]
  congr 1
  exact funext (matchesTenant_eq hblank hdefault)

end ReceiptStore

/-- **Tenant reads are isolated**, except for anonymous tasks: two stores in which a tenant has the
same records answer it alike exactly when the same tasks are anonymous in both; the receipt stores
answer alike in any case, and no other tenant's record is ever returned. -/
theorem tenant_reads_isolated {t : String} (hblank : Js.isBlank t = false)
    (hdefault : t ≠ "default") (tasks tasks' : TaskStore) (receipts receipts' : ReceiptStore)
    (htasks : tasks.tenantView t = tasks'.tenantView t)
    (hreceipts : receipts.tenantView t = receipts'.tenantView t) :
    (TaskStore.ReadsAlike tasks tasks' t ↔
      ∀ taskId, tasks.Anonymous taskId ↔ tasks'.Anonymous taskId) ∧
    (∀ receiptId, receipts.getFor receiptId (some t) = receipts'.getFor receiptId (some t)) ∧
    receipts.listFor (some t) = receipts'.listFor (some t) ∧
    TaskStore.ReadsOwn tasks t ∧
    (∀ receiptId receipt, receipts.getFor receiptId (some t) = some receipt →
      receipt.ofTenant t = true) ∧
    ∀ receipt ∈ receipts.listFor (some t), receipt.ofTenant t = true := by
  refine ⟨TaskStore.readsAlike_iff hblank hdefault htasks, fun receiptId => ?_, ?_,
    TaskStore.readsOwn hblank hdefault tasks, fun receiptId receipt h => ?_, fun receipt h => ?_⟩
  · rw [ReceiptStore.getFor_eq hblank hdefault, ReceiptStore.getFor_eq hblank hdefault, hreceipts]
  · rw [ReceiptStore.listFor_eq hblank hdefault, ReceiptStore.listFor_eq hblank hdefault, hreceipts]
  · rw [← ReceiptStore.matchesTenant_eq hblank hdefault]
    exact (Option.filter_eq_some_iff.mp h).2
  · rw [← ReceiptStore.matchesTenant_eq hblank hdefault]
    exact (List.mem_filter.mp h).2

open TaskStore (sampleParams) in
/-- The task of a requester without a tenant is nothing to the tenant `acme`. -/
theorem tenant_reads_isolated_sample :
    TaskStore.ReadsAlike
      (Transition.run TaskStore.write .empty [.save 0 none (sampleParams "t" none "alice" "done")])
      .empty "acme" := by
  have hview : (Transition.run TaskStore.write .empty
      [.save 0 none (sampleParams "t" none "alice" "done")]).tenantView "acme" =
        TaskStore.empty.tenantView "acme" := OrderedMap.ext rfl
  refine (tenant_reads_isolated (t := "acme") (by decide) (by decide) _ _ .empty .empty hview
    rfl).1.mpr fun taskId => ?_
  constructor
  · rintro ⟨record, hget, hidentity⟩
    have hmem := OrderedMap.get_eq_some.mp hget
    obtain ⟨-, rfl⟩ := Prod.mk.inj (List.mem_singleton.mp hmem)
    cases hidentity
  · rintro ⟨record, hget, -⟩
    cases hget

open TaskStore (sampleParams) in
/-- Once an update has set the identity of that task to `undefined`, `acme` gets no list any more. -/
theorem tenant_reads_disturbed :
    (Transition.run TaskStore.write .empty [.save 0 none (sampleParams "t" none "alice" "done"),
      .update 0 none "t" { requesterIdentity := some none }]).tenantView "acme" =
        TaskStore.empty.tenantView "acme" ∧
      ¬ TaskStore.ReadsAlike
        (Transition.run TaskStore.write .empty [.save 0 none (sampleParams "t" none "alice" "done"),
          .update 0 none "t" { requesterIdentity := some none }]) .empty "acme" := by
  constructor
  · exact OrderedMap.ext rfl
  · intro h
    have hlist := h.listByTenant none
    cases hlist

end MapProtocol
