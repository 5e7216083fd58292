import Mathlib.Data.List.Forall2

/-!
# Words

The words of a text are its maximal runs of word characters. `occursAsWord` scans a text for a keyword
between two boundaries, and finds it exactly when one of the words is the keyword
(`occursAsWord_iff`). The words of a text that a separator cuts in two are those of both parts
(`words_append_cons`).
-/

namespace MapProtocol

variable {α κ : Type}

/-- The runs of word characters, an empty one between two separators. -/
def words (isWord : α → Bool) (cs : List α) : List (List α) := cs.splitOnP fun c => !isWord c

section Words

variable {isWord : α → Bool}

theorem words_append_cons {c : α} (hc : isWord c = false) (xs ys : List α) :
    words isWord (xs ++ c :: ys) = words isWord xs ++ words isWord ys :=
  List.splitOnP_append_cons xs ys (by simp [hc])

theorem words_of_forall {w : List α} (h : ∀ c ∈ w, isWord c = true) : words isWord w = [w] :=
  List.splitOnP_eq_singleton fun c hc => by simp [h c hc]

theorem words_word_cons {w : List α} (h : ∀ c ∈ w, isWord c = true) {c : α} (hc : isWord c = false)
    (ys : List α) : words isWord (w ++ c :: ys) = w :: words isWord ys := by
  rw [words_append_cons hc, words_of_forall h, List.singleton_append]

/-- A text is its first word, and a separator with what follows it, if any. -/
theorem eq_word_or_cons (isWord : α → Bool) (cs : List α) :
    (∀ c ∈ cs, isWord c = true) ∨ ∃ w c rest, cs = w ++ c :: rest ∧
      (∀ d ∈ w, isWord d = true) ∧ isWord c = false := by
  induction cs with
  | nil => exact .inl nofun
  | cons c cs ih =>
      by_cases hc : isWord c = true
      · rcases ih with hall | ⟨w, d, rest, rfl, hw, hd⟩
        · exact .inl (List.forall_mem_cons.mpr ⟨hc, hall⟩)
        · exact .inr ⟨c :: w, d, rest, rfl, List.forall_mem_cons.mpr ⟨hc, hw⟩, hd⟩
      · exact .inr ⟨[], c, cs, rfl, nofun, by simpa using hc⟩

/-- A word is what is read up to the first separator. -/
theorem takeWhile_word {w rest : List α} (hw : ∀ c ∈ w, isWord c = true)
    (hrest : rest.head?.any isWord = false) : (w ++ rest).takeWhile isWord = w := by
  have hstop : rest.takeWhile isWord = [] := by
    cases rest with
    | nil => rfl
    | cons c rest => exact List.takeWhile_cons_of_neg (by simpa using hrest)
  rw [List.takeWhile_append_of_pos hw, hstop, List.append_nil]

/-- Behind it stands a separator, if anything. -/
theorem head_dropWhile_word (isWord : α → Bool) (cs : List α) :
    (cs.dropWhile isWord).head?.any isWord = false := by
  have hstop := List.head?_dropWhile_not isWord cs
  cases hhead : (cs.dropWhile isWord).head? with
  | none => rfl
  | some c =>
      rw [hhead] at hstop
      exact hstop

end Words

/-! ## Looking for a keyword -/

section Occurs

variable (isWord : α → Bool) (same : κ → α → Bool)

/-- What follows the keyword, if the text begins with it. -/
def afterKeyword : List κ → List α → Option (List α)
  | [], cs           => some cs
  | k :: ks, c :: cs => if same k c then afterKeyword ks cs else none
  | _ :: _, []       => none

/-- Does the text begin with the keyword, and with nothing more that belongs to the word? -/
def beginsWithWord (keyword : List κ) (cs : List α) : Bool :=
  match afterKeyword same keyword cs with
  | some rest => !rest.head?.any isWord
  | none      => false

/-- Is the keyword anywhere between two boundaries? `inWord`: does a word character stand before the
text? -/
def occursAsWord (keyword : List κ) : Bool → List α → Bool
  | _, []           => false
  | inWord, c :: cs =>
      (!inWord && beginsWithWord isWord same keyword (c :: cs)) ||
        occursAsWord keyword (isWord c) cs

variable {isWord same} {keyword : List κ}

/-- The word is the keyword, letter by letter. -/
abbrev IsKeyword (same : κ → α → Bool) (keyword : List κ) (w : List α) : Prop :=
  List.Forall₂ (fun k c => same k c = true) keyword w

theorem afterKeyword_eq_some_iff {cs rest : List α} :
    afterKeyword same keyword cs = some rest ↔ ∃ w, cs = w ++ rest ∧ IsKeyword same keyword w := by
  induction keyword generalizing cs with
  | nil => simp [afterKeyword, eq_comm]
  | cons k ks ih =>
      cases cs with
      | nil => simp [afterKeyword]
      | cons c cs =>
          rw [afterKeyword]
          by_cases hsame : same k c = true
          · rw [if_pos hsame, ih]
            constructor
            · rintro ⟨w, rfl, hw⟩
              exact ⟨c :: w, rfl, .cons hsame hw⟩
            · rintro ⟨w, heq, hw⟩
              cases hw with
              | cons _ hw =>
                  obtain ⟨-, rfl⟩ := List.cons.inj heq
                  exact ⟨_, rfl, hw⟩
          · rw [if_neg hsame]
            refine iff_of_false nofun ?_
            rintro ⟨w, heq, hw⟩
            cases hw with
            | cons hfirst _ => exact hsame ((List.cons.inj heq).1 ▸ hfirst)

def LettersAreWord (isWord : α → Bool) (same : κ → α → Bool) (keyword : List κ) : Prop :=
  ∀ k ∈ keyword, ∀ c, same k c = true → isWord c = true

theorem forall_mem_keyword (hletters : LettersAreWord isWord same keyword) {w : List α}
    (h : IsKeyword same keyword w) : ∀ c ∈ w, isWord c = true := by
  induction h with
  | nil => nofun
  | cons hsame hrest ih =>
      refine List.forall_mem_cons.mpr ⟨hletters _ (List.mem_cons_self ..) _ hsame, ih ?_⟩
      exact fun k hk => hletters k (List.mem_cons_of_mem _ hk)

/-- The first word is the keyword. -/
theorem beginsWithWord_iff (hletters : LettersAreWord isWord same keyword) {w rest : List α}
    (hw : ∀ c ∈ w, isWord c = true) (hrest : rest.head?.any isWord = false) :
    beginsWithWord isWord same keyword (w ++ rest) = true ↔ IsKeyword same keyword w := by
  unfold beginsWithWord
  constructor
  · intro h
    split at h
    · rename_i rest' hafter
      obtain ⟨w', heq, hkeyword⟩ := afterKeyword_eq_some_iff.mp hafter
      -- both words end where no word character follows
      have hend : rest'.head?.any isWord = false := by simpa using h
      have hsame : w = w' := by
        rw [← takeWhile_word hw hrest, heq, takeWhile_word (forall_mem_keyword hletters hkeyword) hend]
      exact hsame ▸ hkeyword
    · cases h
  · intro h
    rw [afterKeyword_eq_some_iff.mpr ⟨w, rfl, h⟩]
    simp [hrest]

/-- Inside a word nothing is found, nor at the separator behind it. -/
theorem occursAsWord_inWord {w : List α} (hw : ∀ c ∈ w, isWord c = true) (rest : List α) :
    occursAsWord isWord same keyword true (w ++ rest) = occursAsWord isWord same keyword true rest := by
  induction w with
  | nil => rfl
  | cons c w ih =>
      obtain ⟨hc, hw⟩ := List.forall_mem_cons.mp hw
      rw [List.cons_append, occursAsWord, hc, Bool.not_true, Bool.false_and, Bool.false_or, ih hw]

/-- From the start of a word on. -/
theorem occursAsWord_word (hne : keyword ≠ []) (hletters : LettersAreWord isWord same keyword)
    {w rest : List α} (hw : ∀ c ∈ w, isWord c = true) (hrest : rest.head?.any isWord = false) :
    occursAsWord isWord same keyword false (w ++ rest) = true ↔
      IsKeyword same keyword w ∨ occursAsWord isWord same keyword true rest = true := by
  cases w with
  | nil =>
      have hnot : ¬ IsKeyword same keyword ([] : List α) := fun h =>
        hne (List.forall₂_nil_right_iff.mp h)
      rw [List.nil_append, or_iff_right hnot]
      cases rest with
      | nil => rfl
      | cons c rest =>
          have hbegins : beginsWithWord isWord same keyword (c :: rest) = false := by
            rw [← Bool.not_eq_true]
            exact fun h => hnot ((beginsWithWord_iff hletters (List.forall_mem_nil _) hrest).mp h)
          rw [occursAsWord, occursAsWord, hbegins, Bool.and_false, Bool.and_false]
  | cons c w =>
      have hbegins := beginsWithWord_iff hletters hw hrest
      obtain ⟨hc, hw⟩ := List.forall_mem_cons.mp hw
      rw [List.cons_append] at hbegins ⊢
      rw [occursAsWord, hc, occursAsWord_inWord hw, Bool.not_false, Bool.true_and, Bool.or_eq_true,
        hbegins]

/-- **The scan finds the keyword exactly when it is one of the words.** -/
theorem occursAsWord_iff (hne : keyword ≠ []) (hletters : LettersAreWord isWord same keyword)
    (cs : List α) :
    occursAsWord isWord same keyword false cs = true ↔
      ∃ w ∈ words isWord cs, IsKeyword same keyword w := by
  induction hn : cs.length using Nat.strongRecOn generalizing cs with
  | ind n ih =>
      -- word by word: what follows the separator is shorter
      rcases eq_word_or_cons isWord cs with hall | ⟨w, c, rest, rfl, hw, hc⟩
      · have hscan := @occursAsWord_word _ _ isWord same keyword hne hletters cs [] hall rfl
        rw [List.append_nil, occursAsWord] at hscan
        rw [hscan, words_of_forall hall]
        simp
      · have hshort : rest.length < n := by
          rw [← hn, List.length_append, List.length_cons]
          omega
        have hbehind : occursAsWord isWord same keyword true (c :: rest) =
            occursAsWord isWord same keyword false rest := by
          rw [occursAsWord, hc, Bool.not_true, Bool.false_and, Bool.false_or]
        rw [occursAsWord_word hne hletters hw (by simpa using hc), hbehind,
          ih rest.length hshort rest rfl, words_word_cons hw hc]
        simp

end Occurs

end MapProtocol
