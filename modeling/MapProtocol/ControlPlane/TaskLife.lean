import MapProtocol.ControlPlane.StoreRuns

/-!
# The life of a task record

Three promises about a record while calls of `save` and `update` go by, each with the exact
condition on a call under which it is kept.

* A terminal record is immutable. Both calls let a write with the same status through. `update` then
  compares the result and the receipt only; `save` compares nothing.
* The identity of a task is fixed. `update` checks that the values it is given are the stored ones,
  but takes an explicit `undefined` for an absent field; `save` replaces the record.
* The result and the receipt of a record name its task, and its status is its result's. `update`
  checks this; `save` does not.

What holds without a condition is that the status only moves along the transition table.
-/

namespace MapProtocol

open Js

namespace TaskStore

variable {store : TaskStore}
variable {now : Nat} {existing : TaskRecord}

/-! ## Terminal records -/

/-- A terminal record stays as it is. -/
def Unaltered (r r' : TaskRecord) : Prop := isTerminal r.status = true → r' = r

/-- **The condition on a write of a terminal record**: it is refused, or brings what is stored. -/
def SparesTerminal (store : TaskStore) : WriteLabel → Prop
  | .save now _ params => store.checkSave params = .ok () →
      ∀ existing, store.get params.taskId = some existing → isTerminal existing.status = true →
        params.Restates now existing
  | .update now _ t updates => ∀ existing, store.get t = some existing →
      updates.validateTransition existing (updates.nextStatus existing) = .ok () →
      isTerminal existing.status = true → updates.Restates now existing

theorem write_unaltered (store : TaskStore) (w : WriteLabel) :
    Kept Unaltered store (store.write w) ↔ SparesTerminal store w := by
  have hrefl : ∀ r, Unaltered r r := fun _ _ => rfl
  cases w with
  | save now fault params =>
      rw [kept_save store now fault params hrefl]
      unfold Unaltered SparesTerminal
      simp only [SaveParams.restates_iff]
  | update now fault t updates =>
      rw [kept_update store now fault t updates hrefl]
      unfold Unaltered SparesTerminal
      simp only [TaskUpdate.restates_iff]

/-- **Terminal records are immutable**, exactly in the runs whose writes spare them: at any two
moments of the run, a record that is terminal at the first stands unaltered at the second. -/
theorem terminal_immutable (store : TaskStore) (ls : List WriteLabel) :
    Transition.StepsMeet write SparesTerminal store ls ↔ ∀ ks js, ks ++ js <+: ls →
      Kept Unaltered (Transition.run write store ks) (Transition.run write store (ks ++ js)) := by
  refine Transition.stepsMeet_iff_kept (fun s => Kept.refl (fun _ _ => rfl) s) ?_
    (fun s w => write_unaltered s w) store ls
  refine Kept.trans fun a b c hab hbc hterminal => ?_
  obtain rfl := hab hterminal
  exact hbc hterminal

/-- **A completed task saved again** gets another result. -/
theorem terminal_overwritten :
    ¬ Kept Unaltered
      (Transition.run write empty [.save 0 none (sampleParams "t" none "alice" "first")])
      (Transition.run write empty [.save 0 none (sampleParams "t" none "alice" "first"),
        .save 0 none (sampleParams "t" none "alice" "second")]) := by
  intro h
  obtain ⟨r', hr', hsame⟩ := h "t" _ rfl
  have hresult := congrArg (fun r => r.result.bind ResultPackage.summary) (hsame rfl)
  obtain rfl := Option.some.inj hr'
  exact absurd hresult (by decide)

/-! ## Identity -/

/-- The two records belong to the same request: the requester with its tenant, the key, the
capability and the agent. -/
structure SameIdentity (r r' : TaskRecord) : Prop where
  requesterIdentity : r'.requesterIdentity = r.requesterIdentity
  idempotencyKey    : r'.idempotencyKey = r.idempotencyKey
  capability        : r'.capability = r.capability
  targetAgent       : r'.targetAgent = r.targetAgent

/-- The members of an identity that `JSON.stringify` writes. -/
def identityMembers (identity : RequesterIdentity) : List (String × String) :=
  ("type", identity.type.text) :: ("id", identity.id) ::
    match identity.tenantId with
    | none   => []
    | some t => [("tenant_id", t)]

theorem stringify_identity (identity : RequesterIdentity) :
    stringify identity.toJs = stringify (stringMembers (identityMembers identity)) := by
  obtain ⟨type, id, tenantId⟩ := identity
  cases tenantId <;> rfl

/-- **Identities are told apart by their JSON text.** -/
theorem stringify_identity_injective {i j : RequesterIdentity}
    (h : stringify i.toJs = stringify j.toJs) : i = j := by
  -- the text can be parsed back, so that it determines the members
  have hparse : ∀ i : RequesterIdentity, parse (stringify i.toJs) =
      some (.obj (stringMembers (identityMembers i))) := by
    intro i
    rw [stringify_identity]
    refine parse_stringify_strings (by simp [identityMembers]) ?_
    obtain ⟨type, id, tenantId⟩ := i
    cases tenantId <;> rfl
  have hmembers : stringMembers (identityMembers i) = stringMembers (identityMembers j) := by
    have hboth := hparse i
    rw [h, hparse j] at hboth
    simpa using hboth.symm
  have htype : ∀ a b : IdentityType, a.text = b.text → a = b := by
    intro a b hab
    cases a <;> cases b <;> first | rfl | exact absurd hab (by decide)
  obtain ⟨type, id, tenantId⟩ := i
  obtain ⟨type', id', tenantId'⟩ := j
  cases tenantId with
  | none =>
      cases tenantId' with
      | none =>
          simp only [stringMembers, identityMembers, List.map_cons, List.map_nil,
            List.cons.injEq, Prod.mk.injEq, JsValue.str.injEq, true_and, and_true] at hmembers
          rw [htype _ _ hmembers.1, hmembers.2]
      | some t' => simp [stringMembers, identityMembers] at hmembers
  | some t =>
      cases tenantId' with
      | none => simp [stringMembers, identityMembers] at hmembers
      | some t' =>
          simp only [stringMembers, identityMembers, List.map_cons, List.map_nil,
            List.cons.injEq, Prod.mk.injEq, JsValue.str.injEq, true_and, and_true] at hmembers
          rw [htype _ _ hmembers.1, hmembers.2.1, hmembers.2.2]

/-- The call brings the identity that the record holds. -/
structure BringsIdentity (params : SaveParams) (existing : TaskRecord) : Prop where
  requesterIdentity : existing.requesterIdentity = some params.requesterIdentity
  idempotencyKey    : existing.idempotencyKey = params.idempotencyKey
  capability        : existing.capability = some params.capability
  targetAgent       : existing.targetAgent = some params.targetAgent

/-- The update sets no field of the identity that the record holds to `undefined`. -/
structure ErasesNone (updates : TaskUpdate) (existing : TaskRecord) : Prop where
  requesterIdentity : updates.requesterIdentity = some none → existing.requesterIdentity = none
  idempotencyKey    : updates.idempotencyKey = some none → existing.idempotencyKey = none
  capability        : updates.capability = some none → existing.capability = none
  targetAgent       : updates.targetAgent = some none → existing.targetAgent = none

/-- **The condition on a write of a record**: it is refused, or leaves the identity alone. -/
def SparesIdentity (store : TaskStore) : WriteLabel → Prop
  | .save _ _ params => store.checkSave params = .ok () →
      ∀ existing, store.get params.taskId = some existing → BringsIdentity params existing
  | .update _ _ t updates => ∀ existing, store.get t = some existing →
      updates.validateTransition existing (updates.nextStatus existing) = .ok () →
        ErasesNone updates existing

/-- A field that repeats the held value, unless it erases it. -/
theorem getD_of_repeats {α : Type} {field : Option (Option α)} {held : Option α}
    (h : TaskUpdate.Repeats field held) :
    field.getD held = held ↔ (field = some none → held = none) := by
  cases field with
  | none => simp
  | some v =>
      cases v with
      | none => simp [eq_comm]
      | some v => simp [h v rfl]

theorem sameIdentity_toRecord {params : SaveParams} :
    SameIdentity existing (params.toRecord now) ↔ BringsIdentity params existing :=
  ⟨fun h => ⟨h.1.symm, h.2.symm, h.3.symm, h.4.symm⟩,
    fun h => ⟨h.1.symm, h.2.symm, h.3.symm, h.4.symm⟩⟩

/-- An update that passes the checks keeps the identity unless it erases a part of it. -/
theorem sameIdentity_apply {updates : TaskUpdate} {next : TaskStatus}
    (h : updates.validateIdentity existing = .ok ()) :
    SameIdentity existing (updates.apply existing next now) ↔ ErasesNone updates existing := by
  obtain ⟨hjson, hkey, hcapability, hagent⟩ := TaskUpdate.validateIdentity_eq_ok h
  have hidentity : TaskUpdate.Repeats updates.requesterIdentity existing.requesterIdentity := by
    intro v hv
    -- the check compares the JSON texts of the identities
    have htext := hjson v hv
    unfold identityJson at htext
    cases hheld : existing.requesterIdentity with
    | none => simp [hheld] at htext
    | some held =>
        rw [hheld] at htext
        rw [stringify_identity_injective (Option.some.inj htext)]
  constructor
  · rintro ⟨h₁, h₂, h₃, h₄⟩
    exact ⟨(getD_of_repeats hidentity).mp h₁, (getD_of_repeats hkey).mp h₂,
      (getD_of_repeats hcapability).mp h₃, (getD_of_repeats hagent).mp h₄⟩
  · rintro ⟨h₁, h₂, h₃, h₄⟩
    exact ⟨(getD_of_repeats hidentity).mpr h₁, (getD_of_repeats hkey).mpr h₂,
      (getD_of_repeats hcapability).mpr h₃, (getD_of_repeats hagent).mpr h₄⟩

theorem write_sameIdentity (store : TaskStore) (w : WriteLabel) :
    Kept SameIdentity store (store.write w) ↔ SparesIdentity store w := by
  have hrefl : ∀ r, SameIdentity r r := fun _ => ⟨rfl, rfl, rfl, rfl⟩
  cases w with
  | save now fault params =>
      rw [kept_save store now fault params hrefl]
      unfold SparesIdentity
      simp only [sameIdentity_toRecord]
  | update now fault t updates =>
      rw [kept_update store now fault t updates hrefl]
      unfold SparesIdentity
      refine forall_congr' fun existing => forall_congr' fun _ => forall_congr' fun hok => ?_
      exact sameIdentity_apply (TaskUpdate.validateTransition_eq_ok hok).1

/-- **The identity of a task is fixed**, exactly in the runs whose writes spare it. -/
theorem identity_fixed (store : TaskStore) (ls : List WriteLabel) :
    Transition.StepsMeet write SparesIdentity store ls ↔ ∀ ks js, ks ++ js <+: ls →
      Kept SameIdentity (Transition.run write store ks)
        (Transition.run write store (ks ++ js)) := by
  refine Transition.stepsMeet_iff_kept (fun s => Kept.refl (fun _ => ⟨rfl, rfl, rfl, rfl⟩) s) ?_
    (fun s w => write_sameIdentity s w) store ls
  refine Kept.trans fun a b c hab hbc => ?_
  exact ⟨hbc.1.trans hab.1, hbc.2.trans hab.2, hbc.3.trans hab.3, hbc.4.trans hab.4⟩

/-- **Both calls change an identity**: `save` gives a task to another requester, `update` takes the
requester from it. -/
theorem identity_replaced :
    (¬ Kept SameIdentity
      (Transition.run write empty [.save 0 none (sampleParams "t" none "alice" "done")])
      (Transition.run write empty [.save 0 none (sampleParams "t" none "alice" "done"),
        .save 0 none (sampleParams "t" none "bob" "done")])) ∧
    ¬ Kept SameIdentity
      (Transition.run write empty [.save 0 none (sampleParams "t" none "alice" "done")])
      (Transition.run write empty [.save 0 none (sampleParams "t" none "alice" "done"),
        .update 0 none "t" { requesterIdentity := some none }]) := by
  constructor
  · intro h
    obtain ⟨r', hr', hsame⟩ := h "t" _ rfl
    have hidentity := hsame.requesterIdentity
    obtain rfl := Option.some.inj hr'
    exact absurd hidentity (by decide)
  · intro h
    obtain ⟨r', hr', hsame⟩ := h "t" _ rfl
    have hidentity := hsame.requesterIdentity
    obtain rfl := Option.some.inj hr'
    exact absurd hidentity (by decide)

/-! ## Coherence -/

/-- The ids and the statuses that a record repeats agree, and it is kept under its own id. -/
structure Coherent (t : String) (r : TaskRecord) : Prop where
  taskId  : r.taskId = t
  result  : ∀ result ∈ r.result, result.taskId = r.taskId ∧ result.status = r.status
  receipt : ∀ receipt ∈ r.receipt, receipt.taskId = some r.taskId

/-- **The condition on a write**: a `save` is refused, or its result and receipt name its task. -/
def NamesTask (store : TaskStore) : WriteLabel → Prop
  | .save _ _ params => store.checkSave params = .ok () →
      params.result.taskId = params.taskId ∧ params.receipt.taskId = some params.taskId
  | .update _ _ _ _ => True

theorem coherent_apply {updates : TaskUpdate} {t : String} (hexisting : Coherent t existing)
    (h : updates.validateTransition existing (updates.nextStatus existing) = .ok ()) :
    Coherent t (updates.apply existing (updates.nextStatus existing) now) := by
  obtain ⟨_, houtcome, hmoves⟩ := TaskUpdate.validateTransition_eq_ok h
  obtain ⟨hresult, hreceipt⟩ := TaskUpdate.validateOutcome_eq_ok houtcome
  refine ⟨hexisting.taskId, fun result hr => ?_, fun receipt hr => ?_⟩
  · have hgetD : result ∈ updates.result.getD existing.result := hr
    cases hu : updates.result with
    | none =>
        -- the old result stays, so the status stays too: a move brings a result
        rw [hu] at hgetD
        obtain ⟨hid, hstatus⟩ := hexisting.result result hgetD
        have hsame : existing.status = updates.nextStatus existing := by
          by_contra hne
          simp [hu] at hmoves
          exact hne hmoves
        exact ⟨hid, hstatus.trans hsame⟩
    | some given =>
        rw [hu] at hgetD
        exact hresult result (by rw [hu]; exact hgetD)
  · have hgetD : receipt ∈ updates.receipt.getD existing.receipt := hr
    cases hu : updates.receipt with
    | none =>
        rw [hu] at hgetD
        exact hexisting.receipt receipt hgetD
    | some given =>
        rw [hu] at hgetD
        exact hreceipt receipt (by rw [hu]; exact hgetD)

theorem write_coherent {w : WriteLabel} (hstore : All Coherent store) :
    All Coherent (store.write w) ↔ NamesTask store w := by
  cases w with
  | save now fault params =>
      rw [all_save store now fault params hstore]
      unfold NamesTask
      refine forall_congr' fun _ => ⟨fun h => ?_, fun h => ⟨rfl, ?_, ?_⟩⟩
      · exact ⟨(h.result params.result rfl).1, h.receipt params.receipt rfl⟩
      · rintro result ⟨⟩
        exact ⟨h.1, rfl⟩
      · rintro receipt ⟨⟩
        exact h.2
  | update now fault t updates =>
      rw [all_update store now fault t updates hstore]
      exact ⟨fun _ => trivial, fun _ r hr hok => coherent_apply (hstore t r hr) hok⟩

/-- One step along the transition table, or none. -/
def Moves (r r' : TaskRecord) : Prop :=
  r'.status = r.status ∨ r'.status ∈ taskTransitions r.status

theorem moves_of_assert {r : TaskRecord} {next : TaskStatus}
    (h : assertValidTransition r.status next = .ok ()) :
    next = r.status ∨ next ∈ taskTransitions r.status := by
  rcases assertValidTransition_eq_ok.mp h with heq | ⟨_, hmem⟩
  · exact .inl heq.symm
  · exact .inr hmem

theorem write_moves (store : TaskStore) (w : WriteLabel) : Kept Moves store (store.write w) := by
  have hrefl : ∀ r, Moves r r := fun _ => .inl rfl
  cases w with
  | save now fault params =>
      refine (kept_save store now fault params hrefl).mpr fun hok existing hget => ?_
      exact moves_of_assert (checkSave_status hok hget)
  | update now fault t updates =>
      refine (kept_update store now fault t updates hrefl).mpr fun existing _ hok => ?_
      by_cases hsame : existing.status = updates.nextStatus existing
      · exact .inl hsame.symm
      · exact moves_of_assert ((TaskUpdate.validateTransition_eq_ok hok).2.2 hsame).1

/-- **Records are coherent** in every state of a run exactly when they are so at its start and every
`save` names its task. The statuses move along the transition table in any case. -/
theorem records_coherent (store : TaskStore) (ls : List WriteLabel) :
    (All Coherent store ∧ Transition.StepsMeet write NamesTask store ls ↔
      ∀ ks, ks <+: ls → All Coherent (Transition.run write store ks)) ∧
    ∀ ks w, ks ++ [w] <+: ls → Kept Moves (Transition.run write store ks)
      (Transition.run write store (ks ++ [w])) := by
  refine ⟨⟨fun h => ?_, fun h => ?_⟩, fun ks w _ => ?_⟩
  · exact (Transition.stepsMeet_iff (I := All Coherent) (fun _ _ hs => write_coherent hs) h.1).mp h.2
  · have hstart : All Coherent store := h [] (List.nil_prefix)
    exact ⟨hstart, (Transition.stepsMeet_iff (I := All Coherent) (fun _ _ hs => write_coherent hs)
      hstart).mpr h⟩
  · rw [Transition.run_append]
    exact write_moves _ w

/-- **A `save` of another task's result** leaves a record that contradicts itself. -/
theorem record_incoherent :
    ¬ All Coherent (Transition.run write empty
      [.save 0 none { sampleParams "t" none "alice" "done" with taskId := "u" }]) := by
  intro h
  have hresult := (h "u" _ rfl).result _ rfl
  exact absurd hresult.1 (by decide)

end TaskStore

end MapProtocol
