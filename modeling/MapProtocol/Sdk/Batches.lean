import MapProtocol.Js.Value
import Mathlib.Data.List.Perm.Basic
import Mathlib.Data.List.ReduceOption

/-!
# Batches of dispatches

`dispatchBatch` of the TypeScript client, over what the `dispatch` of each request comes to.

The parallel path takes a request for failed when what it threw is truthy, and reads the code and the
status of whatever that is. The sequential path reads them of a `MapAPIError` only, and cannot read
the message of `undefined` or `null` (`parallel_eq_sequential_iff`).
-/

namespace MapProtocol.Sdk

open Js

/-- What a `dispatch` throws: any value, which may be an instance of `MapAPIError`. -/
structure Thrown where
  value      : JsValue
  isApiError : Bool
  isObject   : isApiError = true → value.truthy = true

inductive DispatchOutcome (R : Type) where
  | result (r : R)
  | thrown (t : Thrown)

structure BatchDispatchError where
  index   : Nat
  code    : JsValue
  message : JsValue
  status  : JsValue

/-- The results pushed, one of which may be `null`, and the errors. -/
structure BatchDispatchResult (R : Type) where
  results : List (Option R)
  errors  : List BatchDispatchError

namespace BatchDispatchResult

variable {R : Type}

def empty : BatchDispatchResult R := ⟨[], []⟩

def pushResult (batch : BatchDispatchResult R) (r : Option R) : BatchDispatchResult R :=
  { batch with results := batch.results ++ [r] }

def pushError (batch : BatchDispatchResult R) (e : BatchDispatchError) : BatchDispatchResult R :=
  { batch with errors := batch.errors ++ [e] }

@[simp] theorem errors_pushResult (batch : BatchDispatchResult R) (r : Option R) :
    (batch.pushResult r).errors = batch.errors := rfl

@[simp] theorem errors_pushError (batch : BatchDispatchResult R) (e : BatchDispatchError) :
    (batch.pushError e).errors = batch.errors ++ [e] := rfl

end BatchDispatchResult

inductive BatchPromise (R : Type) where
  | pending
  | resolved (batch : BatchDispatchResult R)
  | rejected (typeError : String)

namespace Thrown

/-- `error.code ?? 'internal_error'`, `error.message` and `error.status ?? 500`. -/
def apiErrorEntry (t : Thrown) (index : Nat) : BatchDispatchError where
  index   := index
  code    := (t.value.property "code").orElse (.str "internal_error")
  message := t.value.property "message"
  status  := (t.value.property "status").orElse (.num 500)

def internalErrorEntry (t : Thrown) (index : Nat) : BatchDispatchError where
  index   := index
  code    := .str "internal_error"
  message := t.value.property "message"
  status  := .num 500

end Thrown

section Batch

variable {R : Type}
variable {outcomes : List (DispatchOutcome R)} {i : Nat}

/-! ## One after the other -/

/-- The loop of the sequential path, from request `i` on. -/
def dispatchFrom (i : Nat) :
    List (DispatchOutcome R) → BatchDispatchResult R → BatchPromise R
  | [], batch                   => .resolved batch
  | .result r :: outcomes, batch => dispatchFrom (i + 1) outcomes (batch.pushResult (some r))
  | .thrown t :: outcomes, batch =>
      -- `(error as Error).message` is read of whatever else was thrown
      if t.isApiError then dispatchFrom (i + 1) outcomes (batch.pushError (t.apiErrorEntry i))
      else
        match t.value with
        | .undefined => .rejected "Cannot read properties of undefined (reading 'message')"
        | .null      => .rejected "Cannot read properties of null (reading 'message')"
        | _          => dispatchFrom (i + 1) outcomes (batch.pushError (t.internalErrorEntry i))

/-! ## In parallel -/

/-- `{ index, result, error }` -/
structure Response (R : Type) where
  index  : Nat
  result : Option R
  error  : Option Thrown

inductive PromiseSettledResult (R : Type) where
  | fulfilled (value : Response R)
  | rejected (reason : Thrown)

/-- `this.dispatch(req).then(…, …)`. Both callbacks return, so that the promise is fulfilled. -/
def respond (index : Nat) : DispatchOutcome R → PromiseSettledResult R
  | .result r => .fulfilled ⟨index, some r, none⟩
  | .thrown t => .fulfilled ⟨index, none, some t⟩

/-- The places of `Promise.allSettled`, each filled when its request finishes. -/
def settle (outcomes : List (DispatchOutcome R)) (order : List Nat) :
    List (Option (PromiseSettledResult R)) :=
  order.foldl (fun places i => places.set i (outcomes[i]?.map (respond i)))
    (List.replicate outcomes.length none)

/-- The responses, once every place is filled. -/
def allSettled (outcomes : List (DispatchOutcome R)) (order : List Nat) :
    Option (List (PromiseSettledResult R)) :=
  let places := settle outcomes order
  if places.all Option.isSome then some places.reduceOption else none

/-- The loop over the responses, from place `i` on. -/
def collectFrom (i : Nat) :
    List (PromiseSettledResult R) → BatchDispatchResult R → BatchDispatchResult R
  | [], batch                              => batch
  | .fulfilled response :: responses, batch =>
      match response.error with
      | some t =>
          -- `if (response.value.error)`: a falsy value passes for no error
          if t.value.truthy then
            collectFrom (i + 1) responses (batch.pushError (t.apiErrorEntry response.index))
          else collectFrom (i + 1) responses (batch.pushResult response.result)
      | none   => collectFrom (i + 1) responses (batch.pushResult response.result)
  | .rejected reason :: responses, batch    =>
      collectFrom (i + 1) responses (batch.pushError (reason.internalErrorEntry i))

/-- `dispatchBatch`, where the requests finish in the order given. -/
def dispatchBatch (parallel : Bool) (outcomes : List (DispatchOutcome R)) (order : List Nat) :
    BatchPromise R :=
  if parallel then
    match allSettled outcomes order with
    | some responses => .resolved (collectFrom 0 responses .empty)
    | none           => .pending
  else dispatchFrom 0 outcomes .empty

theorem length_settle (outcomes : List (DispatchOutcome R)) (order : List Nat) :
    (settle outcomes order).length = outcomes.length := by
  unfold settle
  have hfold : ∀ places : List (Option (PromiseSettledResult R)),
      (order.foldl (fun places i => places.set i (outcomes[i]?.map (respond i))) places).length =
        places.length := by
    induction order with
    | nil => exact fun _ => rfl
    | cons i order ih =>
        intro places
        rw [List.foldl_cons, ih, List.length_set]
  rw [hfold, List.length_replicate]

/-- The place of a request that has finished. -/
theorem getElem?_settle {order : List Nat} (hi : i < outcomes.length) (hmem : i ∈ order) :
    (settle outcomes order)[i]? = some (outcomes[i]?.map (respond i)) := by
  unfold settle
  have hfold : ∀ places : List (Option (PromiseSettledResult R)), places.length = outcomes.length →
      i ∈ order ∨ places[i]? = some (outcomes[i]?.map (respond i)) →
      (order.foldl (fun places i => places.set i (outcomes[i]?.map (respond i))) places)[i]? =
        some (outcomes[i]?.map (respond i)) := by
    clear hmem
    induction order with
    | nil =>
        rintro places - (hmem | hplace)
        · cases hmem
        · exact hplace
    | cons j order ih =>
        intro places hlength hplace
        rw [List.foldl_cons]
        refine ih _ (by rw [List.length_set, hlength]) ?_
        by_cases hij : j = i
        · subst hij
          exact .inr (by rw [List.getElem?_set_self (by omega)])
        · rw [List.getElem?_set_ne hij]
          rcases hplace with hmem | hplace
          · exact .inl ((List.mem_cons.mp hmem).resolve_left fun h => hij h.symm)
          · exact .inr hplace
  exact hfold _ (List.length_replicate ..) (.inl hmem)

/-- **Whatever the order of the finishes, the responses are in the order of the requests.** -/
theorem allSettled_eq {order : List Nat} (h : order.Perm (List.range outcomes.length)) :
    allSettled outcomes order = some (outcomes.mapIdx respond) := by
  have hplaces : settle outcomes order = (outcomes.mapIdx respond).map some := by
    refine List.ext_getElem? fun i => ?_
    by_cases hi : i < outcomes.length
    · rw [getElem?_settle hi (h.mem_iff.mpr (List.mem_range.mpr hi))]
      simp [hi]
    · have hlength := length_settle outcomes order
      rw [List.getElem?_eq_none (by omega), List.getElem?_eq_none (by simp; omega)]
  unfold allSettled
  simp [hplaces, List.reduceOption, List.filterMap_map]

/-! ## The two paths -/

/-- Both paths make the same entry of what was thrown. -/
def Thrown.Alike (t : Thrown) : Prop :=
  t.value.truthy = true ∧ (t.isApiError = true ∨
    (t.value.property "code" = .undefined ∨ t.value.property "code" = .null ∨
        t.value.property "code" = .str "internal_error") ∧
      (t.value.property "status" = .undefined ∨ t.value.property "status" = .null ∨
        t.value.property "status" = .num 500))

theorem orElse_eq_iff {v w : JsValue} :
    v.orElse w = w ↔ v = .undefined ∨ v = .null ∨ v = w := by
  cases v <;> simp [JsValue.orElse]

theorem apiErrorEntry_eq_iff {t : Thrown} :
    t.apiErrorEntry i = t.internalErrorEntry i ↔
      (t.value.property "code" = .undefined ∨ t.value.property "code" = .null ∨
          t.value.property "code" = .str "internal_error") ∧
        (t.value.property "status" = .undefined ∨ t.value.property "status" = .null ∨
          t.value.property "status" = .num 500) := by
  simp [Thrown.apiErrorEntry, Thrown.internalErrorEntry, orElse_eq_iff]

/-- The responses of the requests from place `i` on. -/
def respondFrom (i : Nat) : List (DispatchOutcome R) → List (PromiseSettledResult R)
  | []                  => []
  | outcome :: outcomes => respond i outcome :: respondFrom (i + 1) outcomes

theorem mapIdx_respond (i : Nat) (outcomes : List (DispatchOutcome R)) :
    (outcomes.mapIdx fun j => respond (i + j)) = respondFrom i outcomes := by
  induction outcomes generalizing i with
  | nil => rfl
  | cons outcome outcomes ih =>
      rw [List.mapIdx_cons, respondFrom, ← ih (i + 1)]
      simp only [Nat.add_zero, Nat.add_comm, Nat.add_left_comm]

/-- What the loop over the responses adds comes from the places it is at. -/
theorem errors_collectFrom (i : Nat) (outcomes : List (DispatchOutcome R))
    (batch : BatchDispatchResult R) :
    ∃ added, (collectFrom i (respondFrom i outcomes) batch).errors = batch.errors ++ added ∧
      ∀ e ∈ added, i ≤ e.index := by
  induction outcomes generalizing i batch with
  | nil => exact ⟨[], by simp [respondFrom, collectFrom]⟩
  | cons outcome outcomes ih =>
      have hpush : ∀ batch' : BatchDispatchResult R, ∀ front,
          batch'.errors = batch.errors ++ front → (∀ e ∈ front, i ≤ e.index) →
          ∃ added, (collectFrom (i + 1) (respondFrom (i + 1) outcomes) batch').errors =
            batch.errors ++ added ∧ ∀ e ∈ added, i ≤ e.index := by
        intro batch' front herrors hfront
        obtain ⟨added, hadded, hle⟩ := ih (i + 1) batch'
        refine ⟨front ++ added, by rw [hadded, herrors, List.append_assoc], fun e he => ?_⟩
        rcases List.mem_append.mp he with hbefore | hafter
        · exact hfront e hbefore
        · exact (Nat.le_succ i).trans (hle e hafter)
      cases outcome with
      | result r => exact hpush _ [] (by simp) (by simp)
      | thrown t =>
          rw [respondFrom, respond, collectFrom]
          dsimp only
          split
          · exact hpush _ [t.apiErrorEntry i] rfl (by simp [Thrown.apiErrorEntry])
          · exact hpush _ [] (by simp) (by simp)

theorem errors_dispatchFrom {batch batch' : BatchDispatchResult R}
    (h : dispatchFrom i outcomes batch = .resolved batch') :
    batch.errors <+: batch'.errors := by
  induction outcomes generalizing i batch with
  | nil =>
      obtain rfl : batch = batch' := by simpa [dispatchFrom] using h
      exact List.prefix_rfl
  | cons outcome outcomes ih =>
      cases outcome with
      | result r =>
          rw [dispatchFrom] at h
          have hpushed : (batch.pushResult (some r)).errors <+: batch'.errors := ih h
          exact hpushed
      | thrown t =>
          rw [dispatchFrom] at h
          split at h
          · exact (List.prefix_append _ _).trans (ih h)
          · split at h
            · cases h
            · cases h
            · exact (List.prefix_append _ _).trans (ih h)

section Thrown

variable {i : Nat} {t : Thrown} {outcomes : List (DispatchOutcome R)} {batch : BatchDispatchResult R}

theorem dispatchFrom_thrown (htruthy : t.value.truthy = true) :
    dispatchFrom i (.thrown t :: outcomes) batch =
      dispatchFrom (i + 1) outcomes (batch.pushError
        (if t.isApiError then t.apiErrorEntry i else t.internalErrorEntry i)) := by
  rw [dispatchFrom]
  split
  · rfl
  · cases hvalue : t.value <;> simp_all [JsValue.truthy]

theorem collectFrom_thrown (htruthy : t.value.truthy = true) :
    collectFrom i (respondFrom i (.thrown t :: outcomes)) batch =
      collectFrom (i + 1) (respondFrom (i + 1) outcomes) (batch.pushError (t.apiErrorEntry i)) := by
  rw [respondFrom, respond, collectFrom]
  exact if_pos htruthy

theorem apiErrorEntry_of_eq (htruthy : t.value.truthy = true) (hother : t.isApiError = false)
    (h : .resolved (collectFrom i (respondFrom i (.thrown t :: outcomes)) batch) =
      dispatchFrom i (.thrown t :: outcomes) batch) :
    t.apiErrorEntry i = t.internalErrorEntry i := by
  rw [collectFrom_thrown htruthy, dispatchFrom_thrown htruthy, if_neg (by simp [hother])] at h
  -- both loops only add to the errors they have pushed so far
  obtain ⟨added, hadded, -⟩ :=
    errors_collectFrom (i + 1) outcomes (batch.pushError (t.apiErrorEntry i))
  obtain ⟨rest, hrest⟩ := errors_dispatchFrom h.symm
  rw [hadded, BatchDispatchResult.errors_pushError, BatchDispatchResult.errors_pushError,
    List.append_assoc, List.append_assoc, List.append_cancel_left_eq] at hrest
  exact (List.cons.inj hrest).1.symm

theorem ne_of_falsy (hfalsy : ¬ t.value.truthy = true) :
    .resolved (collectFrom i (respondFrom i (.thrown t :: outcomes)) batch) ≠
      dispatchFrom i (.thrown t :: outcomes) batch := by
  intro h
  rw [respondFrom, respond, collectFrom, dispatchFrom,
    if_neg fun happi => hfalsy (t.isObject happi)] at h
  dsimp only at h
  rw [if_neg hfalsy] at h
  obtain ⟨added, hadded, hle⟩ := errors_collectFrom (i + 1) outcomes (batch.pushResult none)
  split at h
  · cases h
  · cases h
  · obtain ⟨rest, hrest⟩ := errors_dispatchFrom h.symm
    rw [hadded, BatchDispatchResult.errors_pushError, BatchDispatchResult.errors_pushResult,
      List.append_assoc, List.append_cancel_left_eq] at hrest
    -- the entry of place `i` would have to come from a later place
    have hplace : i + 1 ≤ (t.internalErrorEntry i).index :=
      hle _ (by rw [← hrest]; exact List.mem_append_left _ (List.mem_singleton_self _))
    exact absurd hplace (Nat.not_succ_le_self i)

end Thrown

/-- The two loops from one place on. -/
theorem dispatchFrom_eq_iff (i : Nat) (outcomes : List (DispatchOutcome R))
    (batch : BatchDispatchResult R) :
    .resolved (collectFrom i (respondFrom i outcomes) batch) = dispatchFrom i outcomes batch ↔
      ∀ t, .thrown t ∈ outcomes → t.Alike := by
  induction outcomes generalizing i batch with
  | nil => simp [respondFrom, collectFrom, dispatchFrom]
  | cons outcome outcomes ih =>
      cases outcome with
      | result r =>
          simpa [dispatchFrom, respondFrom, respond, collectFrom] using
            ih (i + 1) (batch.pushResult (some r))
      | thrown t =>
          have hall : (∀ t', .thrown t' ∈ .thrown t :: outcomes → t'.Alike) ↔
              t.Alike ∧ ∀ t', .thrown t' ∈ outcomes → t'.Alike := by
            simp
          rw [hall]
          by_cases halike : t.Alike
          · have hentry : (if t.isApiError then t.apiErrorEntry i else t.internalErrorEntry i) =
                t.apiErrorEntry i := by
              rcases halike.2 with happi | hplain
              · rw [if_pos happi]
              · rw [← apiErrorEntry_eq_iff.mpr hplain, ite_self]
            rw [and_iff_right halike, collectFrom_thrown halike.1, dispatchFrom_thrown halike.1,
              hentry]
            exact ih (i + 1) (batch.pushError (t.apiErrorEntry i))
          · refine iff_of_false (fun heq => ?_) fun h => halike h.1
            by_cases htruthy : t.value.truthy = true
            · refine halike ⟨htruthy, ?_⟩
              by_cases happi : t.isApiError = true
              · exact .inl happi
              · exact .inr (apiErrorEntry_eq_iff.mp
                  (apiErrorEntry_of_eq htruthy (Bool.not_eq_true _ ▸ happi) heq))
            · exact ne_of_falsy htruthy heq

/-- **The two paths agree exactly when each error thrown looks alike to them.** -/
theorem parallel_eq_sequential_iff (outcomes : List (DispatchOutcome R)) :
    (∀ order : List Nat, order.Perm (List.range outcomes.length) →
        dispatchBatch true outcomes order = dispatchBatch false outcomes order) ↔
      ∀ t, .thrown t ∈ outcomes → t.Alike := by
  have hresponses : outcomes.mapIdx respond = respondFrom 0 outcomes := by
    rw [← mapIdx_respond]
    simp only [Nat.zero_add]
  rw [← dispatchFrom_eq_iff 0 outcomes (.empty : BatchDispatchResult R), ← hresponses]
  constructor
  · intro h
    have hsame := h _ (List.Perm.refl _)
    rwa [dispatchBatch, if_pos rfl, allSettled_eq (List.Perm.refl _)] at hsame
  · intro h order horder
    rw [dispatchBatch, if_pos rfl, allSettled_eq horder]
    exact h

end Batch

/-- An error of the system, with its own code. -/
def connectionRefused : Thrown where
  value      := .obj [("message", .str "connect ECONNREFUSED"), ("code", .str "ECONNREFUSED")]
  isApiError := false
  isObject   := nofun

/-- In parallel the batch reports the error's own code. -/
theorem parallel_eq_sequential_fails :
    ¬ ∀ (outcomes : List (DispatchOutcome Unit)) (order : List Nat),
      order.Perm (List.range outcomes.length) →
        dispatchBatch true outcomes order = dispatchBatch false outcomes order := by
  intro h
  have hsame := h [.thrown connectionRefused] [0] (List.Perm.refl _)
  simp [dispatchBatch, allSettled, settle, respond, collectFrom, dispatchFrom, connectionRefused,
    List.reduceOption, JsValue.truthy, JsValue.property, OrderedMap.getEntries,
    Thrown.apiErrorEntry, Thrown.internalErrorEntry, JsValue.orElse,
    BatchDispatchResult.pushError] at hsame

end MapProtocol.Sdk
