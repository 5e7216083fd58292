import Mathlib.Data.List.Basic

/-!
# The latest of two events

A history lists events, the latest first. Where two events switch something on and off, `Latest on
off` says that it is on: of the two, `on` came last.
-/

namespace MapProtocol

variable {α : Type*}

/-- Of `on` and `off`, the latest in the history is `on`. -/
def Latest (on off : α) : List α → Prop
  | []           => False
  | e :: history => e = on ∨ e ≠ off ∧ Latest on off history

instance instDecidableLatest [DecidableEq α] (on off : α) :
    (history : List α) → Decidable (Latest on off history)
  | []           => isFalse id
  | e :: history =>
      have : Decidable (Latest on off history) := instDecidableLatest on off history
      inferInstanceAs (Decidable (e = on ∨ e ≠ off ∧ Latest on off history))

namespace Latest

variable {on off : α} {events history : List α}

@[simp] theorem nil_iff : Latest on off [] ↔ False := Iff.rfl

/-- Behind events that do not switch it off. -/
theorem append_iff (h : off ∉ events) :
    Latest on off (events ++ history) ↔ on ∈ events ∨ Latest on off history := by
  induction events with
  | nil => simp
  | cons e events ih =>
      obtain ⟨hne, hoff⟩ := not_or.mp fun hmem => h (List.mem_cons.mpr hmem)
      rw [List.cons_append, Latest, ih hoff, List.mem_cons, or_assoc, eq_comm]
      simp [Ne.symm hne]

/-- Where nothing switches it off. -/
theorem iff_mem (h : off ∉ events) : Latest on off events ↔ on ∈ events := by
  have happend := @append_iff α on off events [] h
  rwa [List.append_nil, nil_iff, or_false] at happend

/-- Behind events that have no part in it. -/
theorem append_others (h : on ∉ events ∧ off ∉ events) :
    Latest on off (events ++ history) ↔ Latest on off history := by
  rw [append_iff h.2, or_iff_right h.1]

end Latest

end MapProtocol
