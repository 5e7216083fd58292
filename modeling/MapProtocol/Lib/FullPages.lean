import Mathlib.Data.List.Nodup
import Mathlib.Tactic.Ring

/-!
# Full pages of a list

A list is read page by page, and each page that is full comes with a cursor, the key of its last item.
Where the page of a cursor begins is up to the listing. `followPages` follows the cursors from the
start until there is none. It ends with all items in order exactly where each cursor leads behind its
own item (`readsAll_iff`).
-/

namespace MapProtocol

variable {α κ : Type}

/-- All pages from a cursor on, where there are fewer than `fuel`. -/
def followPages (page : Option κ → List α × Option κ) : Nat → Option κ → Option (List α)
  | 0, _             => none
  | fuel + 1, cursor =>
      match page cursor with
      | (items, none)      => some items
      | (items, some next) => (followPages page fuel (some next)).map (items ++ ·)

structure FullPages (α κ : Type) where
  items    : List α
  cursorOf : α → κ
  startOf  : κ → Nat

namespace FullPages

variable (l : FullPages α κ) (limit : Nat)
variable {cursor : Option κ} {fuel : Nat}

/-- Where the page of a cursor begins. -/
def start (cursor : Option κ) : Nat := (cursor.map l.startOf).getD 0

/-- The items of a page, and the next cursor if the page is full. -/
def page (cursor : Option κ) : List α × Option κ :=
  let items := (l.items.drop (l.start cursor)).take limit
  (items, if items.length = limit then items.getLast?.map l.cursorOf else none)

/-- Following the cursors from the start ends, and has read every item once and in order. -/
def ReadsAll : Prop := ∃ fuel, followPages (l.page limit) fuel none = some l.items

/-- The cursor of each full page leads to the item behind it, and the cursor of a full page that ends
the list leads beyond the list. -/
def CursorsLead : Prop :=
  ∀ k a, l.items[(k + 1) * limit - 1]? = some a →
    ((k + 1) * limit < l.items.length → l.startOf (l.cursorOf a) = (k + 1) * limit) ∧
      ((k + 1) * limit = l.items.length → l.items.length ≤ l.startOf (l.cursorOf a))

variable {l limit}

/-- A page that is not full is the last one. -/
theorem page_last (h : l.items.length < l.start cursor + limit) (hlimit : 1 ≤ limit) :
    l.page limit cursor = (l.items.drop (l.start cursor), none) := by
  have hall : (l.items.drop (l.start cursor)).take limit = l.items.drop (l.start cursor) :=
    List.take_of_length_le (by rw [List.length_drop]; omega)
  unfold page
  rw [hall]
  dsimp only
  rw [if_neg (by rw [List.length_drop]; omega)]

/-- A full page comes with the cursor of its last item. -/
theorem page_full (h : l.start cursor + limit ≤ l.items.length) (hlimit : 1 ≤ limit) :
    ∃ a, l.items[l.start cursor + limit - 1]? = some a ∧
      l.page limit cursor =
        ((l.items.drop (l.start cursor)).take limit, some (l.cursorOf a)) := by
  have hplace : l.start cursor + limit - 1 < l.items.length := by omega
  have hlength : ((l.items.drop (l.start cursor)).take limit).length = limit := by
    rw [List.length_take, List.length_drop]
    omega
  have hlast : ((l.items.drop (l.start cursor)).take limit).getLast? =
      some l.items[l.start cursor + limit - 1] := by
    have hsame : l.start cursor + (limit - 1) = l.start cursor + limit - 1 := by omega
    rw [List.getLast?_eq_getElem?, hlength, List.getElem?_take_of_lt (by omega), List.getElem?_drop,
      hsame, List.getElem?_eq_getElem hplace]
  refine ⟨l.items[l.start cursor + limit - 1], List.getElem?_eq_getElem hplace, ?_⟩
  unfold page
  dsimp only
  rw [if_pos hlength, hlast, Option.map_some]

/-- One page: one that is not full, or a full one with the cursor of its last item. -/
theorem followPages_succ (hlimit : 1 ≤ limit) (fuel : Nat) (cursor : Option κ) :
    (l.items.length < l.start cursor + limit ∧
      followPages (l.page limit) (fuel + 1) cursor = some (l.items.drop (l.start cursor))) ∨
    ∃ a, l.start cursor + limit ≤ l.items.length ∧
      l.items[l.start cursor + limit - 1]? = some a ∧
        followPages (l.page limit) (fuel + 1) cursor =
          (followPages (l.page limit) fuel (some (l.cursorOf a))).map
            ((l.items.drop (l.start cursor)).take limit ++ ·) := by
  rw [followPages]
  rcases Nat.lt_or_ge l.items.length (l.start cursor + limit) with hshort | hfull
  · rw [page_last hshort hlimit]
    exact .inl ⟨hshort, rfl⟩
  · obtain ⟨a, ha, hpage⟩ := page_full hfull hlimit
    rw [hpage]
    exact .inr ⟨a, hfull, ha, rfl⟩

/-- The first item that is read is the one where the page begins. -/
theorem head?_followPages (hlimit : 1 ≤ limit) {out : List α}
    (h : followPages (l.page limit) fuel cursor = some out) :
    out.head? = l.items[l.start cursor]? := by
  cases fuel with
  | zero => cases h
  | succ fuel =>
      rcases @followPages_succ _ _ l limit hlimit fuel cursor with ⟨-, hwalk⟩ | ⟨a, hfull, -, hwalk⟩
      · rw [hwalk] at h
        cases h
        rw [List.head?_drop]
      · rw [hwalk] at h
        obtain ⟨rest, -, rfl⟩ := Option.map_eq_some_iff.mp h
        have hfirst : ((l.items.drop (l.start cursor)).take limit).head? =
            l.items[l.start cursor]? := by
          rw [List.head?_take, if_neg (by omega), List.head?_drop]
        have hitem : l.start cursor < l.items.length := by omega
        rw [List.head?_append, hfirst, List.getElem?_eq_getElem hitem, Option.some_or]

/-- The cursors that lead from place `p` on. -/
def LeadFrom (l : FullPages α κ) (limit p : Nat) : Prop :=
  ∀ k a, l.items[p + (k + 1) * limit - 1]? = some a →
    (p + (k + 1) * limit < l.items.length → l.startOf (l.cursorOf a) = p + (k + 1) * limit) ∧
      (p + (k + 1) * limit = l.items.length → l.items.length ≤ l.startOf (l.cursorOf a))

theorem LeadFrom.next {p : Nat} (h : l.LeadFrom limit p) : l.LeadFrom limit (p + limit) := by
  intro k a ha
  have hshift : p + limit + (k + 1) * limit = p + (k + 1 + 1) * limit := by ring
  rw [hshift] at ha ⊢
  exact h (k + 1) a ha

/-- Where the pages from a full one on read what is left, those behind it read what is left behind it, and
begin there. -/
theorem rest_of_followPages {fuel p : Nat} {rest : List α} (hlimit : 1 ≤ limit)
    (hrest : followPages (l.page limit) fuel cursor = some rest)
    (hall : (l.items.drop p).take limit ++ rest = l.items.drop p) :
    rest = l.items.drop (p + limit) ∧ l.items[p + limit]? = l.items[l.start cursor]? := by
  have hleft : rest = l.items.drop (p + limit) := by
    have hsplit := List.take_append_drop limit (l.items.drop p)
    rw [List.drop_drop] at hsplit
    exact List.append_cancel_left (hall.trans hsplit.symm)
  have hhead := head?_followPages hlimit hrest
  rw [hleft, List.head?_drop] at hhead
  exact ⟨hleft, hhead⟩

/-- Pages that read what is left, each item once, have cursors that lead. -/
theorem leadFrom_of_followPages (hlimit : 1 ≤ limit) (hnodup : l.items.Nodup)
    (h : followPages (l.page limit) fuel cursor = some (l.items.drop (l.start cursor))) :
    l.LeadFrom limit (l.start cursor) := by
  induction fuel generalizing cursor with
  | zero => cases h
  | succ fuel ih =>
      intro k b hb
      have hk : limit ≤ (k + 1) * limit := Nat.le_mul_of_pos_left _ (Nat.succ_pos k)
      have hplace := (List.getElem?_eq_some_iff.mp hb).1
      rcases @followPages_succ _ _ l limit hlimit fuel cursor with
        ⟨hlast, -⟩ | ⟨a, hfull, ha, hwalk⟩
      · omega
      · rw [hwalk] at h
        obtain ⟨rest, hrest, hall⟩ := Option.map_eq_some_iff.mp h
        obtain ⟨hleft, hhead⟩ := rest_of_followPages hlimit hrest hall
        rcases Nat.lt_or_ge (l.start cursor + limit) (l.items.length) with hmore | hdone
        · have hnext : l.start (some (l.cursorOf a)) = l.start cursor + limit :=
            ((List.getElem?_inj hmore hnodup).mp hhead).symm
          rw [hleft, ← hnext] at hrest
          cases k with
          | zero =>
              rw [Nat.zero_add, Nat.one_mul] at hb ⊢
              obtain rfl : a = b := Option.some.inj (ha.symm.trans hb)
              exact ⟨fun _ => hnext, fun hend => by omega⟩
          | succ k =>
              have hshift : l.start cursor + (k + 1 + 1) * limit =
                  l.start (some (l.cursorOf a)) + (k + 1) * limit := by
                rw [hnext]
                ring
              rw [hshift] at hb ⊢
              exact ih hrest k b hb
        · -- the page ended the list, so that the next one is empty
          have hend : l.start cursor + (k + 1) * limit = l.start cursor + limit := by omega
          rw [hend] at hb ⊢
          obtain rfl : a = b := Option.some.inj (ha.symm.trans hb)
          refine ⟨fun hmore => by omega, fun _ => ?_⟩
          rw [List.getElem?_eq_none hdone] at hhead
          exact List.getElem?_eq_none_iff.mp hhead.symm

/-- Cursors that lead read what is left. -/
theorem followPages_of_leadFrom (hlimit : 1 ≤ limit)
    (hfuel : l.items.length + 1 - l.start cursor < fuel) (h : l.LeadFrom limit (l.start cursor)) :
    followPages (l.page limit) fuel cursor = some (l.items.drop (l.start cursor)) := by
  induction fuel generalizing cursor with
  | zero => exact absurd hfuel (Nat.not_lt_zero _)
  | succ fuel ih =>
      rcases @followPages_succ _ _ l limit hlimit fuel cursor with ⟨-, hwalk⟩ | ⟨a, hfull, ha, hwalk⟩
      · exact hwalk
      · have hlead := h 0 a (by rwa [Nat.zero_add, Nat.one_mul])
        rw [Nat.zero_add, Nat.one_mul] at hlead
        have hrest : followPages (l.page limit) fuel (some (l.cursorOf a)) =
            some (l.items.drop (l.start cursor + limit)) := by
          rcases Nat.lt_or_ge (l.start cursor + limit) l.items.length with hmore | hdone
          · have hnext : l.start (some (l.cursorOf a)) = l.start cursor + limit := hlead.1 hmore
            have hwalk' := ih (by omega) (hnext ▸ h.next)
            rwa [hnext] at hwalk'
          · have hbeyond : l.items.length ≤ l.start (some (l.cursorOf a)) := hlead.2 (by omega)
            -- the page behind the end is empty, and the last one
            cases fuel with
            | zero => omega
            | succ fuel =>
                rcases @followPages_succ _ _ l limit hlimit fuel (some (l.cursorOf a)) with
                  ⟨-, hwalk'⟩ | ⟨-, hfull', -⟩
                · rw [hwalk', List.drop_eq_nil_of_le hbeyond, List.drop_eq_nil_of_le hdone]
                · omega
        rw [hwalk, hrest, Option.map_some, ← List.drop_drop, List.take_append_drop]

/-- **When full pages cover a list.** -/
theorem readsAll_iff (hlimit : 1 ≤ limit) (hnodup : l.items.Nodup) :
    l.ReadsAll limit ↔ l.CursorsLead limit := by
  have hlead : l.CursorsLead limit ↔ l.LeadFrom limit (l.start none) := by
    unfold CursorsLead LeadFrom
    have hstart : l.start none = 0 := rfl
    simp only [hstart, Nat.zero_add]
  rw [hlead]
  constructor
  · rintro ⟨fuel, hwalk⟩
    exact leadFrom_of_followPages hlimit hnodup hwalk
  · intro h
    exact ⟨l.items.length + 2, followPages_of_leadFrom hlimit (by omega) h⟩

end FullPages

end MapProtocol
