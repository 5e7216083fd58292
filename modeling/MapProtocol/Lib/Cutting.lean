import Mathlib.Data.List.Chain

/-!
# Cutting a list at doubled separators

`cut sep` takes a list apart at every two separators in a row, as `split` does at a separator of two
characters; what follows the last of them, which may still grow, stands apart. A reader that keeps
that remainder and cuts it again with the next part loses no record (`cut_append`).
-/

namespace MapProtocol

variable {α : Type} {sep : α}

/-- A line has no two separators in a row, and one may follow it. -/
theorem isChain_line {line : List α} (h : sep ∉ line) (hne : line ≠ []) {xs : List α}
    (hxs : (sep :: xs).IsChain fun x y => ¬(x = sep ∧ y = sep)) :
    (line ++ sep :: xs).IsChain fun x y => ¬(x = sep ∧ y = sep) := by
  induction line with
  | nil => exact absurd rfl hne
  | cons x line ih =>
      have hx : x ≠ sep := fun heq => h (by simp [heq])
      cases line with
      | nil => exact List.isChain_cons_cons.mpr ⟨fun hboth => hx hboth.1, hxs⟩
      | cons y line =>
          have hline := ih (fun hmem => h (List.mem_cons_of_mem x hmem)) (by simp)
          exact List.isChain_cons_cons.mpr ⟨fun hboth => hx hboth.1, hline⟩

variable [DecidableEq α]

def cut (sep : α) : List α → List (List α) × List α
  | []  => ([], [])
  | [x] => ([], [x])
  | x :: y :: xs =>
      if x = sep ∧ y = sep then
        let (records, rest) := cut sep xs
        ([] :: records, rest)
      else match cut sep (y :: xs) with
        | ([], rest)                => ([], x :: rest)
        | (record :: records, rest) => ((x :: record) :: records, rest)

example : cut 0 [1, 0, 2, 0, 0, 0, 3, 0, 0, 0] = ([[1, 0, 2], [0, 3]], [0]) := by decide

theorem cut_seps (xs : List α) :
    cut sep (sep :: sep :: xs) = ([] :: (cut sep xs).1, (cut sep xs).2) := by
  rw [cut, if_pos ⟨rfl, rfl⟩]

/-- What is not cut remains. -/
theorem rest_of_uncut {xs : List α} (h : (cut sep xs).1 = []) : (cut sep xs).2 = xs := by
  induction xs using cut.induct sep with
  | case1 => rfl
  | case2 x => rfl
  | case3 x y xs hseps records rest hcut ih =>
      rw [cut, if_pos hseps] at h
      cases h
  | case4 x y xs hseps rest hcut ih =>
      rw [hcut] at ih
      have hrest : rest = y :: xs := ih rfl
      rw [cut, if_neg hseps, hcut, hrest]
  | case5 x y xs hseps record records rest hcut ih =>
      rw [cut, if_neg hseps, hcut] at h
      cases h

/-- **Cutting in parts**: the remainder is cut again together with what follows. -/
theorem cut_append (xs ys : List α) : cut sep (xs ++ ys) =
    ((cut sep xs).1 ++ (cut sep ((cut sep xs).2 ++ ys)).1, (cut sep ((cut sep xs).2 ++ ys)).2) := by
  induction xs using cut.induct sep with
  | case1 => rfl
  | case2 x => rfl
  | case3 x y xs hseps records rest hcut ih =>
      rw [List.cons_append, List.cons_append, cut, if_pos hseps, cut, if_pos hseps, ih]
      rfl
  | case4 x y xs hseps rest hcut ih =>
      have huncut : (cut sep (x :: y :: xs)).1 = [] := by
        rw [cut, if_neg hseps, hcut]
      rw [huncut, rest_of_uncut huncut]
      rfl
  | case5 x y xs hseps record records rest hcut ih =>
      rw [List.cons_append, List.cons_append, cut, if_neg hseps, cut, if_neg hseps, hcut]
      rw [List.cons_append, hcut] at ih
      rw [ih]
      rfl

/-- Two separators end a record in which, and at whose end, none stand in a row. -/
theorem cut_record {record : List α} (xs : List α)
    (h : (record ++ [sep]).IsChain fun x y => ¬(x = sep ∧ y = sep)) :
    cut sep (record ++ sep :: sep :: xs) = (record :: (cut sep xs).1, (cut sep xs).2) := by
  induction record with
  | nil => exact cut_seps xs
  | cons x record ih =>
      cases record with
      | nil =>
          have hx : ¬(x = sep ∧ sep = sep) := by simpa using h
          rw [List.cons_append, List.nil_append, cut, if_neg hx, cut_seps]
      | cons y record =>
          obtain ⟨hxy, hrest⟩ := List.isChain_cons_cons.mp h
          have hcut := ih hrest
          rw [List.cons_append] at hcut
          rw [List.cons_append, List.cons_append, cut, if_neg hxy, hcut]

/-- Before the second separator nothing is cut. -/
theorem uncut_of_isChain {xs : List α} (h : xs.IsChain fun x y => ¬(x = sep ∧ y = sep)) :
    (cut sep xs).1 = [] := by
  induction xs using cut.induct sep with
  | case1 => rfl
  | case2 x => rfl
  | case3 x y xs hseps records rest hcut ih =>
      exact absurd hseps (List.isChain_cons_cons.mp h).1
  | case4 x y xs hseps rest hcut ih => rw [cut, if_neg hseps, hcut]
  | case5 x y xs hseps record records rest hcut ih =>
      rw [hcut] at ih
      cases ih (List.isChain_cons_cons.mp h).2

end MapProtocol
