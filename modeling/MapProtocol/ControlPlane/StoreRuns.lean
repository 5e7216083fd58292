import MapProtocol.ControlPlane.StoreLaws
import MapProtocol.Js.JsonStrings
import MapProtocol.Lib.Transition

/-!
# Runs of the task store

The calls that write a task store, as the labels of a machine. A call changes the memory before it
writes the file or the database, so a call whose write throws has changed the memory too.

Two kinds of statement about a store are set up: every record of it meets a predicate (`All`), and
every record of it is followed by a related one in the store after (`Kept`). For each, one lemma for
`save` and one for `update` reduce a call to the record that the call writes.

`SaveParams.Restates` and `TaskUpdate.Restates` say that a call brings what the record holds
already; `restates_iff` shows that these are the calls that leave the record as it is.
-/

namespace MapProtocol

open Js

/-- The calls of `save` and `update`. `fault` is what the write of the file or database throws. -/
inductive WriteLabel where
  | save (now : Nat) (fault : Option String) (params : SaveParams)
  | update (now : Nat) (fault : Option String) (taskId : String) (updates : TaskUpdate)

/-- The calls that change a store. -/
inductive StoreLabel where
  | write (w : WriteLabel)
  | delete (fault : Option String) (taskId : String)

/-- What the write of the file or database throws at a call. -/
def StoreLabel.fault : StoreLabel → Option String
  | .write (.save _ fault _)     => fault
  | .write (.update _ fault _ _) => fault
  | .delete fault _              => fault

namespace TaskStore

variable {store : TaskStore} {t : String} {record : TaskRecord}

def write (store : TaskStore) : WriteLabel → TaskStore
  | .save now fault params           => (store.save now fault params).2
  | .update now fault taskId updates => (store.update now fault taskId updates).2

/-- The store after a call. -/
def step (store : TaskStore) : StoreLabel → TaskStore
  | .write w             => store.write w
  | .delete fault taskId => (store.delete fault taskId).2

/-! ## What a call does -/

theorem save_refused {params : SaveParams} {e : String} (h : store.checkSave params = .error e)
    (now : Nat) (fault : Option String) :
    store.save now fault params = (.error e, store) := by
  simp [save, h]

/-- **What `save` can do**: the checks refuse and nothing changes, or the record is set. -/
theorem save_cases (store : TaskStore) (now : Nat) (fault : Option String) (params : SaveParams) :
    (∃ e, store.checkSave params = .error e ∧
      store.save now fault params = (.error e, store)) ∨
    (store.checkSave params = .ok () ∧
      store.save now fault params =
        ((persist fault).map fun _ => params.toRecord now,
          store.insert (params.toRecord now))) := by
  cases h : store.checkSave params with
  | error e => exact .inl ⟨e, rfl, save_refused h now fault⟩
  | ok _ => exact .inr ⟨rfl, save_eq h now fault⟩

/-- **What `delete` can do**: there is no record, or the record and its key go. -/
theorem delete_cases (store : TaskStore) (fault : Option String) (t : String) :
    (store.get t = none ∧ store.delete fault t = (.ok false, store)) ∨
    (∃ existing, store.get t = some existing ∧
      store.delete fault t = ((persist fault).map fun _ => true,
        { tasks := store.tasks.delete t
          idempotencyIndex :=
            match existing.idempotencyKey with
            | some key =>
                if key = "" then store.idempotencyIndex else store.idempotencyIndex.delete key
            | none => store.idempotencyIndex })) := by
  unfold delete get
  cases hg : store.tasks.get t with
  | none => exact .inl ⟨rfl, rfl⟩
  | some existing => exact .inr ⟨existing, rfl, rfl⟩

theorem get_update (a : String) :
    ({ store with tasks := store.tasks.set t record } : TaskStore).get a =
      if t = a then some record else store.get a :=
  OrderedMap.get_set _ _ _ _

theorem checkSave_status {params : SaveParams} {existing : TaskRecord}
    (h : store.checkSave params = .ok ()) (hget : store.get params.taskId = some existing) :
    assertValidTransition existing.status params.result.status = .ok () := by
  have hchecks := h
  unfold checkSave at hchecks
  rw [show store.tasks.get params.taskId = some existing from hget] at hchecks
  dsimp only at hchecks
  obtain ⟨_, htransition, _⟩ := bind_eq_ok.mp hchecks
  exact htransition

/-! ## Statements about the records of a store -/

/-- Every record meets `P` under its key. -/
def All (P : String → TaskRecord → Prop) (store : TaskStore) : Prop :=
  ∀ t r, store.get t = some r → P t r

/-- Every record of the first store has a record in the second that `K` relates it to. -/
def Kept (K : TaskRecord → TaskRecord → Prop) (store store' : TaskStore) : Prop :=
  ∀ t r, store.get t = some r → ∃ r', store'.get t = some r' ∧ K r r'

variable {P : String → TaskRecord → Prop} {K : TaskRecord → TaskRecord → Prop}

theorem Kept.refl (hrefl : ∀ r, K r r) (store : TaskStore) : Kept K store store :=
  fun _ r h => ⟨r, h, hrefl r⟩

theorem Kept.trans (htrans : ∀ a b c, K a b → K b c → K a c) (s₁ s₂ s₃ : TaskStore)
    (h₁ : Kept K s₁ s₂) (h₂ : Kept K s₂ s₃) : Kept K s₁ s₃ := by
  intro t r hr
  obtain ⟨r₂, hr₂, hk₁⟩ := h₁ t r hr
  obtain ⟨r₃, hr₃, hk₂⟩ := h₂ t r₂ hr₂
  exact ⟨r₃, hr₃, htrans _ _ _ hk₁ hk₂⟩

theorem kept_set {store store' : TaskStore}
    (hset : ∀ a, store'.get a = if t = a then some record else store.get a) (hrefl : ∀ r, K r r) :
    Kept K store store' ↔ ∀ r, store.get t = some r → K r record := by
  constructor
  · intro h r hr
    obtain ⟨r', hr', hk⟩ := h t r hr
    rw [hset, if_pos rfl] at hr'
    exact Option.some.inj hr' ▸ hk
  · intro h a r hr
    rw [hset]
    by_cases ha : t = a
    · subst ha
      exact ⟨record, if_pos rfl, h r hr⟩
    · exact ⟨r, (if_neg ha).trans hr, hrefl r⟩

theorem all_set {store store' : TaskStore}
    (hset : ∀ a, store'.get a = if t = a then some record else store.get a) (hall : All P store) :
    All P store' ↔ P t record := by
  constructor
  · intro h
    exact h t record ((hset t).trans (if_pos rfl))
  · intro h a r hr
    rw [hset] at hr
    split at hr
    · rename_i ha
      subst ha
      exact Option.some.inj hr ▸ h
    · exact hall a r hr

theorem save_iff {Q : TaskStore → Prop} {R : Prop} {params : SaveParams} (now : Nat)
    (fault : Option String) (hsame : Q store) (hset : Q (store.insert (params.toRecord now)) ↔ R) :
    Q (store.write (.save now fault params)) ↔ (store.checkSave params = .ok () → R) := by
  unfold write
  rcases store.save_cases now fault params with ⟨e, hcheck, heq⟩ | ⟨hcheck, heq⟩
  · simp only [heq, hcheck, reduceCtorEq, false_implies, iff_true]
    exact hsame
  · simp only [heq, hcheck, true_implies]
    exact hset

theorem update_iff {Q : TaskStore → Prop} {R : TaskRecord → TaskRecord → Prop} (now : Nat)
    (fault : Option String) (t : String) (updates : TaskUpdate) (hsame : Q store)
    (hset : ∀ r, store.get t = some r → ∀ record,
      (Q { store with tasks := store.tasks.set t record } ↔ R r record)) :
    Q (store.write (.update now fault t updates)) ↔ ∀ r, store.get t = some r →
      updates.validateTransition r (updates.nextStatus r) = .ok () →
        R r (updates.apply r (updates.nextStatus r) now) := by
  unfold write
  rcases store.update_cases now fault t updates with
    ⟨hget, heq⟩ | ⟨existing, e, hget, hcheck, heq⟩ | ⟨existing, hget, hcheck, heq⟩
  · simp only [heq, hget, reduceCtorEq, false_implies, implies_true, iff_true]
    exact hsame
  · simp only [heq, hget, Option.some.injEq, forall_eq', hcheck, reduceCtorEq, false_implies,
      iff_true]
    exact hsame
  · simp only [heq, hget, Option.some.injEq, forall_eq', hcheck, true_implies]
    exact hset existing hget _

theorem kept_save (store : TaskStore) (now : Nat) (fault : Option String) (params : SaveParams)
    (hrefl : ∀ r, K r r) :
    Kept K store (store.write (.save now fault params)) ↔ (store.checkSave params = .ok () →
      ∀ r, store.get params.taskId = some r → K r (params.toRecord now)) :=
  save_iff now fault (Kept.refl hrefl store) (kept_set (fun a => get_insert store _ a) hrefl)

theorem kept_update (store : TaskStore) (now : Nat) (fault : Option String) (t : String)
    (updates : TaskUpdate) (hrefl : ∀ r, K r r) :
    Kept K store (store.write (.update now fault t updates)) ↔ ∀ r, store.get t = some r →
      updates.validateTransition r (updates.nextStatus r) = .ok () →
        K r (updates.apply r (updates.nextStatus r) now) := by
  refine update_iff now fault t updates (Kept.refl hrefl store) fun r hget record => ?_
  rw [kept_set (fun a => get_update a) hrefl]
  simp only [hget, Option.some.injEq, forall_eq']

theorem all_save (store : TaskStore) (now : Nat) (fault : Option String) (params : SaveParams)
    (hall : All P store) : All P (store.write (.save now fault params)) ↔
      (store.checkSave params = .ok () → P params.taskId (params.toRecord now)) :=
  save_iff now fault hall (all_set (fun a => get_insert store _ a) hall)

theorem all_update (store : TaskStore) (now : Nat) (fault : Option String) (t : String)
    (updates : TaskUpdate) (hall : All P store) :
    All P (store.write (.update now fault t updates)) ↔ ∀ r, store.get t = some r →
      updates.validateTransition r (updates.nextStatus r) = .ok () →
        P t (updates.apply r (updates.nextStatus r) now) :=
  update_iff now fault t updates hall fun _ _ _ => all_set (fun a => get_update a) hall

end TaskStore

/-! ## What `update` lets through -/

namespace TaskUpdate

variable {updates : TaskUpdate} {existing : TaskRecord} {next : TaskStatus}

/-- A field that `validateIdentity` compares is absent, erased, or what the record holds. -/
def Repeats {α : Type} (field : Option (Option α)) (held : Option α) : Prop :=
  ∀ v, field = some (some v) → held = some v

theorem validateIdentity_eq_ok (h : updates.validateIdentity existing = .ok ()) :
    (∀ v, updates.requesterIdentity = some (some v) →
      identityJson (some v) = identityJson existing.requesterIdentity) ∧
    Repeats updates.idempotencyKey existing.idempotencyKey ∧
    Repeats updates.capability existing.capability ∧
    Repeats updates.targetAgent existing.targetAgent := by
  unfold validateIdentity at h
  simp only [bind_eq_ok, throwIf_eq_ok, not_and, not_not] at h
  obtain ⟨_, hkey, _, hidentity, _, hcapability, hagent⟩ := h
  refine ⟨fun v hv => ?_, fun v hv => ?_, fun v hv => ?_, fun v hv => ?_⟩
  · simpa [hv] using hidentity
  · simpa [hv, eq_comm] using hkey
  · simpa [hv, eq_comm] using hcapability
  · simpa [hv, eq_comm] using hagent

theorem validateOutcome_eq_ok (h : updates.validateOutcome existing next = .ok ()) :
    (∀ result ∈ updates.result.join,
      result.taskId = existing.taskId ∧ result.status = next) ∧
    ∀ receipt ∈ updates.receipt.join, receipt.taskId = some existing.taskId := by
  unfold validateOutcome at h
  simp only [bind_eq_ok, throwIf_eq_ok, Option.any_eq_true, not_exists, not_and,
    decide_eq_true_eq, ne_eq, not_not] at h
  obtain ⟨_, hid, _, hstatus, hreceipt⟩ := h
  exact ⟨fun result hr => ⟨hid result hr, hstatus result hr⟩, hreceipt⟩

/-- **What `update` lets through.** -/
theorem validateTransition_eq_ok (h : updates.validateTransition existing next = .ok ()) :
    updates.validateIdentity existing = .ok () ∧ updates.validateOutcome existing next = .ok () ∧
      (existing.status ≠ next → assertValidTransition existing.status next = .ok () ∧
        updates.result.join.isSome ∧ updates.receipt.join.isSome) := by
  unfold validateTransition at h
  simp only [bind_eq_ok] at h
  obtain ⟨_, hidentity, _, houtcome, hrest⟩ := h
  refine ⟨hidentity, houtcome, fun hne => ?_⟩
  rw [if_neg hne] at hrest
  simp only [bind_eq_ok, throwIf_eq_ok, not_or] at hrest
  obtain ⟨_, hvalid, hresult, hreceipt⟩ := hrest
  exact ⟨hvalid, by simpa [Option.isNone_iff_eq_none, Option.isSome_iff_ne_none] using hresult,
    by simpa [Option.isNone_iff_eq_none, Option.isSome_iff_ne_none] using hreceipt⟩

end TaskUpdate

/-! ## Calls that bring nothing new -/

/-- The parameters and the clock are what the record holds. -/
structure SaveParams.Restates (params : SaveParams) (now : Nat) (existing : TaskRecord) : Prop where
  taskId            : existing.taskId = params.taskId
  orderId           : existing.orderId = none
  contextId         : existing.contextId = params.contextId
  requesterIdentity : existing.requesterIdentity = some params.requesterIdentity
  idempotencyKey    : existing.idempotencyKey = params.idempotencyKey
  capability        : existing.capability = some params.capability
  targetAgent       : existing.targetAgent = some params.targetAgent
  status            : existing.status = params.result.status
  result            : existing.result = some params.result
  receipt           : existing.receipt = some params.receipt
  updatedAt         : existing.updatedAt = toISOString now

/-- Every field of the update is absent or what the record holds, and so is the clock. -/
structure TaskUpdate.Restates (updates : TaskUpdate) (now : Nat) (existing : TaskRecord) : Prop where
  orderId           : ∀ v ∈ updates.orderId, v = existing.orderId
  contextId         : ∀ v ∈ updates.contextId, v = existing.contextId
  requesterIdentity : ∀ v ∈ updates.requesterIdentity, v = existing.requesterIdentity
  idempotencyKey    : ∀ v ∈ updates.idempotencyKey, v = existing.idempotencyKey
  capability        : ∀ v ∈ updates.capability, v = existing.capability
  targetAgent       : ∀ v ∈ updates.targetAgent, v = existing.targetAgent
  status            : ∀ status ∈ updates.status.join, status = existing.status
  result            : ∀ v ∈ updates.result, v = existing.result
  receipt           : ∀ v ∈ updates.receipt, v = existing.receipt
  updatedAt         : existing.updatedAt = toISOString now

theorem SaveParams.restates_iff {params : SaveParams} {now : Nat} {existing : TaskRecord} :
    params.toRecord now = existing ↔ params.Restates now existing := by
  constructor
  · rintro rfl
    exact ⟨rfl, rfl, rfl, rfl, rfl, rfl, rfl, rfl, rfl, rfl, rfl⟩
  · rintro ⟨h₁, h₂, h₃, h₄, h₅, h₆, h₇, h₈, h₉, h₁₀, h₁₁⟩
    cases existing
    simp only at h₁ h₂ h₃ h₄ h₅ h₆ h₇ h₈ h₉ h₁₀ h₁₁
    subst h₁ h₂ h₃ h₄ h₅ h₆ h₇ h₈ h₉ h₁₀ h₁₁
    rfl

theorem getD_eq_self {α : Type} {o : Option α} {a : α} : o.getD a = a ↔ ∀ v ∈ o, v = a := by
  cases o <;> simp

theorem TaskUpdate.restates_iff {updates : TaskUpdate} {now : Nat} {existing : TaskRecord} :
    updates.apply existing (updates.nextStatus existing) now = existing ↔
      updates.Restates now existing := by
  constructor
  · intro h
    have hfields := h
    unfold apply at hfields
    rw [TaskRecord.mk.injEq] at hfields
    obtain ⟨_, h₁, h₂, h₃, h₄, h₅, h₆, h₇, h₈, h₉, h₁₀⟩ := hfields
    exact ⟨getD_eq_self.mp h₁, getD_eq_self.mp h₂, getD_eq_self.mp h₃, getD_eq_self.mp h₄,
      getD_eq_self.mp h₅, getD_eq_self.mp h₆, getD_eq_self.mp h₇, getD_eq_self.mp h₈,
      getD_eq_self.mp h₉, h₁₀.symm⟩
  · rintro ⟨h₁, h₂, h₃, h₄, h₅, h₆, h₇, h₈, h₉, h₁₀⟩
    unfold apply
    rw [getD_eq_self.mpr h₁, getD_eq_self.mpr h₂, getD_eq_self.mpr h₃, getD_eq_self.mpr h₄,
      getD_eq_self.mpr h₅, getD_eq_self.mpr h₆, getD_eq_self.mpr h₈, getD_eq_self.mpr h₉, ← h₁₀]
    have hstatus : updates.nextStatus existing = existing.status := getD_eq_self.mpr h₇
    rw [hstatus]

/-! ## A sample -/

/-- A completed task saved for the requester `id`. -/
def TaskStore.sampleParams (taskId : String) (key : Option String) (id summary : String) : SaveParams where
  taskId := taskId
  contextId := none
  requesterIdentity := ⟨.user, id, none⟩
  idempotencyKey := key
  capability := "ops.read"
  targetAgent := "agent"
  result := ⟨taskId, none, .completed, some summary, [], none, none, none, none, none, false, none,
    none⟩
  receipt := ⟨⟨"receipt:1", "intent", "ops.read", .executed, "2026-01-01T00:00:00.000Z", .ok,
    some taskId, none, none, "agent", none, none, none, none, none, none, none⟩, "signature"⟩

end MapProtocol
