import MapProtocol.Lib.OrderedMap
import Mathlib.Data.List.Induction

/-!
# Grouping

Things that come one after the other are grouped with those that are the same in some way, in the
order in which the first of each group came. A group has all that are the same as its first
(`members_of_mem_grouped`). A map that is updated at the key of each holds what comes of each group,
if the keys tell the groups apart (`entries_gather`).
-/

namespace MapProtocol

structure Group (α : Type) where
  first : α
  later : List α

variable {α κ ν : Type}

def Group.members (g : Group α) : List α := g.first :: g.later

/-- Put a thing behind those of its group, or where it is the first, behind all the groups. -/
def place (same : α → α → Bool) (x : α) : List (Group α) → List (Group α)
  | []      => [⟨x, []⟩]
  | g :: gs =>
      if same g.first x then { g with later := g.later ++ [x] } :: gs else g :: place same x gs

def grouped (same : α → α → Bool) (xs : List α) : List (Group α) :=
  xs.foldl (fun gs x => place same x gs) []

/-- What updates, one for each member, make of a group. -/
def Group.total (update : Option ν → α → ν) (g : Group α) : ν :=
  g.later.foldl (fun v x => update (some v) x) (update none g.first)

def gather [DecidableEq κ] (key : α → κ) (update : Option ν → α → ν) (xs : List α) :
    OrderedMap κ ν :=
  xs.foldl (fun m x => m.set (key x) (update (m.get (key x)) x)) .empty

section

variable {same : α → α → Bool} {key : α → κ} {update : Option ν → α → ν}
variable {x : α} {gs : List (Group α)}

theorem first_of_mem_place {g : Group α} (h : g ∈ place same x gs) :
    g.first = x ∨ ∃ g' ∈ gs, g.first = g'.first := by
  induction gs with
  | nil => exact .inl (congrArg Group.first (List.mem_singleton.mp h))
  | cons g' gs ih =>
      unfold place at h
      split at h
      · rcases List.mem_cons.mp h with rfl | h
        · exact .inr ⟨g', List.mem_cons_self .., rfl⟩
        · exact .inr ⟨g, List.mem_cons_of_mem _ h, rfl⟩
      · rcases List.mem_cons.mp h with rfl | h
        · exact .inr ⟨g, List.mem_cons_self .., rfl⟩
        · rcases ih h with hfirst | ⟨g'', hmem, hfirst⟩
          · exact .inl hfirst
          · exact .inr ⟨g'', List.mem_cons_of_mem _ hmem, hfirst⟩

/-! ## The members of the groups -/

/-- What is placed goes into the first group that it is the same as, or begins one. -/
theorem place_cases (same : α → α → Bool) (x : α) (gs : List (Group α)) :
    ((∀ g ∈ gs, same g.first x = false) ∧ place same x gs = gs ++ [⟨x, []⟩]) ∨
      ∃ before g after, gs = before ++ g :: after ∧ same g.first x = true ∧
        place same x gs = before ++ { g with later := g.later ++ [x] } :: after := by
  induction gs with
  | nil => exact .inl ⟨nofun, rfl⟩
  | cons g gs ih =>
      by_cases hsame : same g.first x = true
      · exact .inr ⟨[], g, gs, rfl, hsame, by rw [place, if_pos hsame]; rfl⟩
      · have hplace : place same x (g :: gs) = g :: place same x gs := by rw [place, if_neg hsame]
        rcases ih with ⟨hnone, heq⟩ | ⟨before, g', after, rfl, hg', heq⟩
        · refine .inl ⟨List.forall_mem_cons.mpr ⟨by simpa using hsame, hnone⟩, ?_⟩
          rw [hplace, heq, List.cons_append]
        · refine .inr ⟨g :: before, g', after, rfl, hg', ?_⟩
          rw [hplace, heq, List.cons_append]

/-- The groups of some things: each has all that are the same as its first, and they are apart. -/
structure Grouping (same : α → α → Bool) (xs : List α) (gs : List (Group α)) : Prop where
  members : ∀ g ∈ gs, g.members = xs.filter (same g.first)
  apart   : gs.Pairwise fun g g' => same g.first g'.first = false
  covers  : ∀ x ∈ xs, ∃ g ∈ gs, same g.first x = true

theorem Grouping.members_of_other {xs : List α} (h : Grouping same xs gs) {g : Group α}
    (hg : g ∈ gs) (hsame : same g.first x = false) :
    g.members = (xs ++ [x]).filter (same g.first) := by
  rw [List.filter_append, List.filter_cons_of_neg (by simp [hsame]), List.filter_nil,
    List.append_nil]
  exact h.members g hg

section

variable (refl : ∀ x, same x x = true) (symm : ∀ x y, same x y = true → same y x = true)
  (trans : ∀ x y z, same x y = true → same y z = true → same x z = true)

variable {xs : List α} {x : α} {g : Group α}

include refl symm trans

/-- A thing that no group takes begins one. -/
theorem Grouping.begin_group {gs : List (Group α)} (h : Grouping same xs gs)
    (hnone : ∀ g ∈ gs, same g.first x = false) :
    Grouping same (xs ++ [x]) (gs ++ [⟨x, []⟩]) := by
  constructor
  · intro g hg
    rcases List.mem_append.mp hg with hg | hg
    · exact h.members_of_other hg (hnone g hg)
    · rw [List.mem_singleton.mp hg]
      -- nothing before it is the same
      have hempty : xs.filter (same x) = [] := by
        rw [List.filter_eq_nil_iff]
        intro y hy hsame
        obtain ⟨g', hg', hcover⟩ := h.covers y hy
        have hback := trans _ _ _ hcover (symm _ _ hsame)
        exact absurd (hback.symm.trans (hnone g' hg')) (by decide)
      show [x] = (xs ++ [x]).filter (same x)
      rw [List.filter_append, hempty, List.filter_cons_of_pos (refl x)]
      rfl
  · rw [List.pairwise_append]
    refine ⟨h.apart, List.pairwise_singleton _ _, ?_⟩
    intro g hg g' hg'
    rw [List.mem_singleton.mp hg']
    exact hnone g hg
  · intro y hy
    rcases List.mem_append.mp hy with hy | hy
    · obtain ⟨g, hg, hcover⟩ := h.covers y hy
      exact ⟨g, List.mem_append_left _ hg, hcover⟩
    · refine ⟨⟨x, []⟩, by simp, ?_⟩
      rw [List.mem_singleton.mp hy]
      exact refl x

omit refl in
/-- No second group takes what one takes. -/
theorem Grouping.alone {before after : List (Group α)} (h : Grouping same xs (before ++ g :: after))
    (hg : same g.first x = true) :
    ∀ g' ∈ before ++ after, same g'.first x = false := by
  intro g' hg'
  have hapart := List.pairwise_append.mp h.apart
  apply Bool.eq_false_iff.mpr
  intro hsame
  rcases List.mem_append.mp hg' with hg' | hg'
  · have hfalse := hapart.2.2 g' hg' g (List.mem_cons_self ..)
    exact absurd ((trans _ _ _ hsame (symm _ _ hg)).symm.trans hfalse) (by decide)
  · have hfalse := List.rel_of_pairwise_cons hapart.2.1 hg'
    exact absurd ((trans _ _ _ hg (symm _ _ hsame)).symm.trans hfalse) (by decide)

omit refl in
/-- A thing goes behind those of the group that takes it. -/
theorem Grouping.join_group {before after : List (Group α)}
    (h : Grouping same xs (before ++ g :: after)) (hg : same g.first x = true) :
    Grouping same (xs ++ [x]) (before ++ { g with later := g.later ++ [x] } :: after) := by
  have halone := h.alone symm trans hg
  constructor
  · intro g' hg'
    rcases List.mem_append.mp hg' with hmem | hmem
    · exact h.members_of_other (List.mem_append_left _ hmem)
        (halone g' (List.mem_append_left _ hmem))
    · rcases List.mem_cons.mp hmem with rfl | hmem
      · have hmembers := h.members g (by simp)
        show g.members ++ [x] = (xs ++ [x]).filter (same g.first)
        rw [List.filter_append, List.filter_cons_of_pos hg, hmembers]
        rfl
      · refine h.members_of_other ?_ (halone g' (List.mem_append_right _ hmem))
        exact List.mem_append_right _ (List.mem_cons_of_mem g hmem)
  · have hapart := h.apart
    rw [List.pairwise_append, List.pairwise_cons] at hapart ⊢
    refine ⟨hapart.1, hapart.2.1, ?_⟩
    intro g' hg' g'' hg''
    rcases List.mem_cons.mp hg'' with rfl | hg''
    · exact hapart.2.2 g' hg' g (List.mem_cons_self ..)
    · exact hapart.2.2 g' hg' g'' (List.mem_cons_of_mem g hg'')
  · intro y hy
    have hgroup : ∃ g' ∈ before ++ g :: after, same g'.first y = true := by
      rcases List.mem_append.mp hy with hy | hy
      · exact h.covers y hy
      · exact ⟨g, by simp, List.mem_singleton.mp hy ▸ hg⟩
    obtain ⟨g', hg', hcover⟩ := hgroup
    rcases List.mem_append.mp hg' with hmem | hmem
    · exact ⟨g', List.mem_append_left _ hmem, hcover⟩
    · rcases List.mem_cons.mp hmem with rfl | hmem
      · exact ⟨_, List.mem_append_right _ (List.mem_cons_self ..), hcover⟩
      · exact ⟨g', List.mem_append_right _ (List.mem_cons_of_mem _ hmem), hcover⟩

theorem Grouping.place {gs : List (Group α)} (h : Grouping same xs gs) (x : α) :
    Grouping same (xs ++ [x]) (place same x gs) := by
  rcases place_cases same x gs with ⟨hnone, heq⟩ | ⟨before, g, after, rfl, hg, heq⟩
  · rw [heq]
    exact h.begin_group refl symm trans hnone
  · rw [heq]
    exact h.join_group symm trans hg

theorem grouping_grouped (xs : List α) : Grouping same xs (grouped same xs) := by
  induction xs using List.reverseRecOn with
  | nil => exact ⟨nofun, .nil, nofun⟩
  | append_singleton xs x ih =>
      unfold grouped
      rw [List.foldl_append]
      exact ih.place refl symm trans x

/-- **A group has all that are the same as its first.** -/
theorem members_of_mem_grouped (h : g ∈ grouped same xs) :
    g.members = xs.filter (same g.first) :=
  (grouping_grouped refl symm trans xs).members g h

end

/-! ## Updating a map -/

theorem total_later (g : Group α) (x : α) :
    Group.total update { g with later := g.later ++ [x] } =
      update (some (g.total update)) x := by
  unfold Group.total
  rw [List.foldl_append]
  rfl

variable [DecidableEq κ]

/-- One thing is put into its group as the map is updated. -/
theorem setEntries_place (update : Option ν → α → ν)
    (h : ∀ g ∈ gs, key g.first = key x ↔ same g.first x = true) :
    OrderedMap.setEntries (key x)
        (update (OrderedMap.getEntries (key x) (gs.map fun g => (key g.first, g.total update))) x)
        (gs.map fun g => (key g.first, g.total update)) =
      (place same x gs).map fun g => (key g.first, g.total update) := by
  induction gs with
  | nil => rfl
  | cons g gs ih =>
      obtain ⟨hg, hgs⟩ := List.forall_mem_cons.mp h
      by_cases hsame : same g.first x = true
      · have hkey := hg.mpr hsame
        rw [place, if_pos hsame, List.map_cons, List.map_cons, total_later,
          OrderedMap.getEntries, if_pos hkey, OrderedMap.setEntries, if_pos hkey]
        rw [← hkey]
      · have hkey : key g.first ≠ key x := fun heq => hsame (hg.mp heq)
        rw [place, if_neg hsame, List.map_cons, List.map_cons, OrderedMap.getEntries, if_neg hkey,
          OrderedMap.setEntries, if_neg hkey, ih hgs]

/-- **The map holds what comes of each group**, in the order of the groups. -/
theorem entries_gather {xs : List α}
    (h : ∀ x ∈ xs, ∀ y ∈ xs, key x = key y ↔ same x y = true) :
    (gather key update xs).entries =
      (grouped same xs).map fun g => (key g.first, g.total update) := by
  -- whatever was gathered before: the groups begin with members of the list
  have hrun : ∀ (ys : List α), (∀ y ∈ ys, y ∈ xs) → ∀ (m : OrderedMap κ ν) (gs : List (Group α)),
      (∀ g ∈ gs, g.first ∈ xs) → m.entries = gs.map (fun g => (key g.first, g.total update)) →
      (ys.foldl (fun m x => m.set (key x) (update (m.get (key x)) x)) m).entries =
        (ys.foldl (fun gs x => place same x gs) gs).map fun g => (key g.first, g.total update) := by
    intro ys hys
    induction ys with
    | nil => exact fun m gs _ hm => hm
    | cons y ys ih =>
        obtain ⟨hy, hys⟩ := List.forall_mem_cons.mp hys
        intro m gs hgs hm
        refine ih hys _ _ ?_ ?_
        · intro g hg
          rcases first_of_mem_place hg with hfirst | ⟨g', hg', hfirst⟩
          · exact hfirst ▸ hy
          · exact hfirst ▸ hgs g' hg'
        · have hstep := setEntries_place update
            fun g hg => h g.first (hgs g hg) y hy
          rw [← hm] at hstep
          exact hstep
  exact hrun xs (fun _ hx => hx) .empty [] nofun rfl

end

end MapProtocol
