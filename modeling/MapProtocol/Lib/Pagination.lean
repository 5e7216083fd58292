import Mathlib.Data.List.Basic
import Mathlib.Tactic.Ring

/-!
# Pages of a list

A list is read page by page. Each page but the last comes with a cursor, the key of its last item, and
the next page begins after the first item that has this key. `walk` follows the cursors from the start
until there is none. It ends with all items in order exactly where each cursor finds its own item
(`completes_iff`).
-/

namespace MapProtocol

/-- What is read page by page. A cursor that is not `usable` counts as none. -/
structure Listing (α κ : Type) where
  items    : List α
  cursorOf : α → κ
  usable   : κ → Bool

namespace Listing

variable {α κ : Type} [DecidableEq κ] (l : Listing α κ) (limit : Nat)

/-- Where the page of a cursor begins; a cursor that is not found begins at the start. -/
def start : Option κ → Nat
  | none        => 0
  | some cursor =>
      if l.usable cursor then
        ((l.items.findIdx? fun a => decide (l.cursorOf a = cursor)).map (· + 1)).getD 0
      else 0

/-- The items of a page, and the next cursor. -/
def page (cursor : Option κ) : List α × Option κ :=
  let startIndex := l.start cursor
  let nextCursorIndex := startIndex + limit
  ((l.items.drop startIndex).take limit,
    if nextCursorIndex < l.items.length then
      (l.items[nextCursorIndex - 1]?).map l.cursorOf
    else none)

/-- All pages from a cursor on, where there are fewer than `fuel`. -/
def walk : Nat → Option κ → Option (List α)
  | 0, _           => none
  | fuel + 1, cursor =>
      match l.page limit cursor with
      | (items, none)      => some items
      | (items, some next) => (walk fuel (some next)).map (items ++ ·)

/-- The walk from the start ends, and has read every item once and in order. -/
def Completes : Prop := ∃ fuel, l.walk limit fuel none = some l.items

/-- The cursor of the item at `p` leads to the item after it. -/
def Finds (p : Nat) : Prop := ∃ a, l.items[p]? = some a ∧ l.start (some (l.cursorOf a)) = p + 1

/-- The last item of each page but the last has a usable cursor, which no item before it has. -/
def CursorsFind : Prop :=
  ∀ k a, (k + 1) * limit < l.items.length → l.items[(k + 1) * limit - 1]? = some a →
    l.usable (l.cursorOf a) = true ∧
      ∀ j < (k + 1) * limit - 1, ∀ b, l.items[j]? = some b → l.cursorOf b ≠ l.cursorOf a

variable {l limit}

theorem walk_eq (fuel : Nat) (cursor : Option κ) : l.walk limit (fuel + 1) cursor =
    match l.page limit cursor with
    | (items, none)      => some items
    | (items, some next) => (l.walk limit fuel (some next)).map (items ++ ·) := rfl

theorem start_some (cursor : κ) : l.start (some cursor) =
    if l.usable cursor then
      ((l.items.findIdx? fun a => decide (l.cursorOf a = cursor)).map (· + 1)).getD 0
    else 0 := rfl

/-- No cursor leads beyond its own item. -/
theorem start_le {p : Nat} {a : α} (ha : l.items[p]? = some a) :
    l.start (some (l.cursorOf a)) ≤ p + 1 := by
  obtain ⟨hp, hget⟩ := List.getElem?_eq_some_iff.mp ha
  rw [start_some]
  split
  · cases hfind : l.items.findIdx? fun b => decide (l.cursorOf b = l.cursorOf a) with
    | none => exact Nat.zero_le _
    | some i =>
        obtain ⟨hi, -, hfirst⟩ := List.findIdx?_eq_some_iff_getElem.mp hfind
        have hle : i ≤ p := by
          by_contra hlt
          have hnot := hfirst p (Nat.lt_of_not_le hlt)
          rw [hget] at hnot
          exact hnot (by simp)
        exact Nat.succ_le_succ hle
  · exact Nat.zero_le _

theorem finds_iff {p : Nat} {a : α} (ha : l.items[p]? = some a) :
    l.start (some (l.cursorOf a)) = p + 1 ↔
      l.usable (l.cursorOf a) = true ∧
        ∀ j < p, ∀ b, l.items[j]? = some b → l.cursorOf b ≠ l.cursorOf a := by
  obtain ⟨hp, hget⟩ := List.getElem?_eq_some_iff.mp ha
  rw [start_some]
  by_cases husable : l.usable (l.cursorOf a) = true
  · rw [if_pos husable]
    constructor
    · intro hstart
      refine ⟨husable, fun j hj b hb heq => ?_⟩
      cases hfind : l.items.findIdx? fun b => decide (l.cursorOf b = l.cursorOf a) with
      | none =>
          rw [hfind] at hstart
          cases hstart
      | some i =>
          rw [hfind] at hstart
          obtain rfl : i = p := Nat.succ.inj hstart
          obtain ⟨_, -, hfirst⟩ := List.findIdx?_eq_some_iff_getElem.mp hfind
          obtain ⟨hjlt, hjget⟩ := List.getElem?_eq_some_iff.mp hb
          exact hfirst j hj (by rw [hjget]; exact decide_eq_true heq)
    · rintro ⟨-, hfirst⟩
      have hfind : (l.items.findIdx? fun b => decide (l.cursorOf b = l.cursorOf a)) = some p := by
        refine List.findIdx?_eq_some_iff_getElem.mpr ⟨hp, by simp [hget], fun j hj heq => ?_⟩
        have hjlt : j < l.items.length := Nat.lt_trans hj hp
        exact hfirst j hj _ (List.getElem?_eq_getElem hjlt) (of_decide_eq_true heq)
      rw [hfind]
      rfl
  · rw [if_neg husable]
    constructor
    · intro h
      cases h
    · exact fun h => absurd h.1 husable

/-! ## Walking -/

/-- One page: the last one, or a full one with the cursor of its last item. -/
theorem walk_succ (hlimit : 1 ≤ limit) (fuel : Nat) (cursor : Option κ) :
    (l.items.length ≤ l.start cursor + limit ∧
      l.walk limit (fuel + 1) cursor = some (l.items.drop (l.start cursor))) ∨
    ∃ a, l.start cursor + limit < l.items.length ∧
      l.items[l.start cursor + limit - 1]? = some a ∧
        l.walk limit (fuel + 1) cursor = (l.walk limit fuel (some (l.cursorOf a))).map
          ((l.items.drop (l.start cursor)).take limit ++ ·) := by
  by_cases hlast : l.start cursor + limit < l.items.length
  · right
    have hp : l.start cursor + limit - 1 < l.items.length := by omega
    refine ⟨l.items[l.start cursor + limit - 1], hlast, List.getElem?_eq_getElem hp, ?_⟩
    have hpage : l.page limit cursor =
        ((l.items.drop (l.start cursor)).take limit,
          some (l.cursorOf l.items[l.start cursor + limit - 1])) := by
      unfold page
      dsimp only
      rw [if_pos hlast, List.getElem?_eq_getElem hp]
      rfl
    rw [walk_eq, hpage]
  · left
    refine ⟨by omega, ?_⟩
    have hpage : l.page limit cursor = (l.items.drop (l.start cursor), none) := by
      unfold page
      dsimp only
      rw [if_neg hlast, List.take_of_length_le (by rw [List.length_drop]; omega)]
    rw [walk_eq, hpage]

/-- A walk that ends has read at least as many items as there were. -/
theorem le_length_walk (hlimit : 1 ≤ limit) {fuel : Nat} {cursor : Option κ} {out : List α}
    (h : l.walk limit fuel cursor = some out) :
    l.items.length - l.start cursor ≤ out.length := by
  induction fuel generalizing cursor out with
  | zero => cases h
  | succ fuel ih =>
      rcases @walk_succ _ _ _ l limit hlimit fuel cursor with ⟨-, hwalk⟩ | ⟨a, hlast, ha, hwalk⟩
      · rw [hwalk] at h
        cases h
        rw [List.length_drop]
      · rw [hwalk] at h
        obtain ⟨rest, hrest, rfl⟩ := Option.map_eq_some_iff.mp h
        have hlength := ih hrest
        have hnext := start_le ha
        rw [List.length_append, List.length_take, List.length_drop]
        omega

/-- A walk that reads no item twice finds every cursor. -/
theorem finds_of_walk (hlimit : 1 ≤ limit) {fuel : Nat} {cursor : Option κ} {out : List α}
    (h : l.walk limit fuel cursor = some out)
    (hout : out.length = l.items.length - l.start cursor) (k : Nat)
    (hk : l.start cursor + (k + 1) * limit < l.items.length) :
    l.Finds (l.start cursor + (k + 1) * limit - 1) := by
  induction fuel generalizing cursor out k with
  | zero => cases h
  | succ fuel ih =>
      have hfirst : limit ≤ (k + 1) * limit := Nat.le_mul_of_pos_left _ (Nat.succ_pos k)
      rcases @walk_succ _ _ _ l limit hlimit fuel cursor with ⟨hlast, -⟩ | ⟨a, hlast, ha, hwalk⟩
      · omega
      · rw [hwalk] at h
        obtain ⟨rest, hrest, rfl⟩ := Option.map_eq_some_iff.mp h
        have hlength := le_length_walk hlimit hrest
        have hnext := start_le ha
        rw [List.length_append, List.length_take, List.length_drop] at hout
        have hexact : l.start (some (l.cursorOf a)) = l.start cursor + limit := by omega
        cases k with
        | zero =>
            rw [Nat.zero_add, Nat.one_mul]
            exact ⟨a, ha, by omega⟩
        | succ k =>
            have hshift : l.start cursor + (k + 1 + 1) * limit =
                l.start (some (l.cursorOf a)) + (k + 1) * limit := by
              rw [hexact]
              ring
            rw [hshift] at hk ⊢
            exact ih hrest (by omega) k hk

/-- A walk that finds every cursor reads what is left. -/
theorem walk_of_finds (hlimit : 1 ≤ limit) {fuel : Nat} {cursor : Option κ}
    (hfuel : l.items.length - l.start cursor < fuel)
    (hfinds : ∀ k, l.start cursor + (k + 1) * limit < l.items.length →
      l.Finds (l.start cursor + (k + 1) * limit - 1)) :
    l.walk limit fuel cursor = some (l.items.drop (l.start cursor)) := by
  induction fuel generalizing cursor with
  | zero => exact absurd hfuel (Nat.not_lt_zero _)
  | succ fuel ih =>
      rcases @walk_succ _ _ _ l limit hlimit fuel cursor with ⟨-, hwalk⟩ | ⟨a, hlast, ha, hwalk⟩
      · exact hwalk
      · obtain ⟨b, hb, hstart⟩ := hfinds 0 (by omega)
        rw [Nat.zero_add, Nat.one_mul] at hb hstart
        obtain rfl : a = b := Option.some.inj (ha.symm.trans hb)
        have hexact : l.start (some (l.cursorOf a)) = l.start cursor + limit := by omega
        have hrest := @ih (some (l.cursorOf a)) (by omega) fun k hk => by
          have hshift : l.start (some (l.cursorOf a)) + (k + 1) * limit =
              l.start cursor + (k + 1 + 1) * limit := by
            rw [hexact]
            ring
          rw [hshift] at hk ⊢
          exact hfinds (k + 1) hk
        rw [hwalk, hrest, hexact, Option.map_some, ← List.drop_drop, List.take_append_drop]

/-- **When pages cover a list.** -/
theorem completes_iff (hlimit : 1 ≤ limit) : l.Completes limit ↔ l.CursorsFind limit := by
  have hstart : l.start none = 0 := rfl
  have hcursors : l.CursorsFind limit ↔
      ∀ k, l.start none + (k + 1) * limit < l.items.length →
        l.Finds (l.start none + (k + 1) * limit - 1) := by
    simp only [hstart, Nat.zero_add]
    constructor
    · intro h k hk
      have hp : (k + 1) * limit - 1 < l.items.length := by omega
      refine ⟨_, List.getElem?_eq_getElem hp, ?_⟩
      exact (finds_iff (List.getElem?_eq_getElem hp)).mpr
        (h k _ hk (List.getElem?_eq_getElem hp))
    · intro h k a hk ha
      obtain ⟨b, hb, hfinds⟩ := h k hk
      obtain rfl : a = b := Option.some.inj (ha.symm.trans hb)
      exact (finds_iff ha).mp hfinds
  rw [hcursors]
  constructor
  · rintro ⟨fuel, hwalk⟩ k hk
    exact finds_of_walk hlimit hwalk rfl k hk
  · intro h
    exact ⟨l.items.length + 1, walk_of_finds hlimit (Nat.lt_succ_of_le (Nat.sub_le _ _)) h⟩

end Listing

end MapProtocol
