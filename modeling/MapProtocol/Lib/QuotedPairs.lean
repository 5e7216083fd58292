import Mathlib.Data.List.Basic

/-!
# Pairs with quoted values

A list of pairs is written as `a="x",b="y"`, and as a block in braces where there is any. Nothing is
escaped, so what is written is read back exactly where there are no quotes in it (`readBlock_block`).
-/

namespace MapProtocol.QuotedPairs

/-- A name and a value. -/
abbrev Pair := List Char × List Char

/-! ## Writing -/

def writePair (p : Pair) : List Char := p.1 ++ '=' :: '"' :: (p.2 ++ ['"'])

def write : List Pair → List Char
  | []           => []
  | [p]          => writePair p
  | p :: q :: ps => writePair p ++ ',' :: write (q :: ps)

/-- The pairs in braces, or nothing where there are none. -/
def block (ps : List Pair) : List Char := if ps = [] then [] else '{' :: (write ps ++ ['}'])

theorem write_ne_nil {ps : List Pair} (h : ps ≠ []) : write ps ≠ [] := by
  cases ps with
  | nil => exact absurd rfl h
  | cons p ps => cases ps <;> simp [write, writePair]

theorem length_le_write (ps : List Pair) : 2 * ps.length ≤ (write ps).length := by
  induction ps with
  | nil => exact Nat.le_refl 0
  | cons p ps ih =>
      cases ps with
      | nil =>
          simp [write, writePair]
          omega
      | cons q ps =>
          simp only [write, writePair, List.length_append, List.length_cons] at ih ⊢
          omega

/-- What is written is made of the names, the values and the separators. -/
theorem mem_write {c : Char} {ps : List Pair} (h : c ∈ write ps) :
    c ∈ ['=', '"', ','] ∨ ∃ p ∈ ps, c ∈ p.1 ∨ c ∈ p.2 := by
  have hpair : ∀ {p : Pair}, c ∈ writePair p → c ∈ ['=', '"', ','] ∨ c ∈ p.1 ∨ c ∈ p.2 := by
    intro p h
    unfold writePair at h
    simp only [List.mem_append, List.mem_cons, List.not_mem_nil, or_false] at h ⊢
    tauto
  induction ps with
  | nil => cases h
  | cons p ps ih =>
      cases ps with
      | nil =>
          rcases hpair h with hc | hc
          · exact .inl hc
          · exact .inr ⟨p, List.mem_cons_self .., hc⟩
      | cons q ps =>
          rcases List.mem_append.mp h with hc | hc
          · rcases hpair hc with hc | hc
            · exact .inl hc
            · exact .inr ⟨p, List.mem_cons_self .., hc⟩
          · rcases List.mem_cons.mp hc with rfl | hc
            · exact .inl (by decide)
            · rcases ih hc with hc | ⟨r, hr, hc⟩
              · exact .inl hc
              · exact .inr ⟨r, List.mem_cons_of_mem _ hr, hc⟩

/-! ## Reading -/

/-- A name, up to the first quote: before it stands `=`. -/
def readName : List Char → Option (List Char × List Char)
  | '=' :: '"' :: cs => some ([], cs)
  | '"' :: _         => none
  | c :: cs          => (readName cs).map fun (name, cs) => (c :: name, cs)
  | []               => none

/-- A value, up to the next quote. -/
def readValue : List Char → Option (List Char × List Char)
  | '"' :: cs => some ([], cs)
  | c :: cs   => (readValue cs).map fun (value, cs) => (c :: value, cs)
  | []        => none

/-- At most `fuel` pairs. -/
def read : Nat → List Char → Option (List Pair × List Char)
  | 0, _         => none
  | fuel + 1, cs =>
      (readName cs).bind fun (name, cs) => (readValue cs).bind fun (value, cs) =>
        match cs with
        | ',' :: cs => (read fuel cs).map fun (ps, cs) => ((name, value) :: ps, cs)
        | cs        => some ([(name, value)], cs)

/-- The pairs of a block, if there is one, and what follows it. -/
def readBlock : List Char → Option (List Pair × List Char)
  | '{' :: cs =>
      match read cs.length cs with
      | some (ps, '}' :: cs) => some (ps, cs)
      | _                    => none
  | cs => some ([], cs)

theorem readName_append {name : List Char} (h : '"' ∉ name) (rest : List Char) :
    readName (name ++ '=' :: '"' :: rest) = some (name, rest) := by
  induction name with
  | nil => simp [readName]
  | cons c name ih =>
      obtain ⟨hc, hname⟩ := not_or.mp (mt List.mem_cons.mpr h)
      have hstep : readName (c :: (name ++ '=' :: '"' :: rest)) =
          (readName (name ++ '=' :: '"' :: rest)).map fun (name, cs) => (c :: name, cs) := by
        refine readName.eq_3 c _ ?_ (Ne.symm hc)
        -- the name goes on before the quote
        intro cs _ hcs
        cases name with
        | nil => cases hcs
        | cons d name =>
            have hd : d = '"' := (List.cons.inj hcs).1
            exact hname (hd ▸ List.mem_cons_self ..)
      rw [List.cons_append, hstep, ih hname, Option.map_some]

theorem readValue_append {value : List Char} (h : '"' ∉ value) (rest : List Char) :
    readValue (value ++ '"' :: rest) = some (value, rest) := by
  induction value with
  | nil => simp [readValue]
  | cons c value ih =>
      obtain ⟨hc, hvalue⟩ := not_or.mp (mt List.mem_cons.mpr h)
      rw [List.cons_append, readValue.eq_2 _ _ (Ne.symm hc), ih hvalue, Option.map_some]

def Unquoted (p : Pair) : Prop := '"' ∉ p.1 ∧ '"' ∉ p.2

instance (p : Pair) : Decidable (Unquoted p) := inferInstanceAs (Decidable (_ ∧ _))

/-- **What is written without quotes is read back.** -/
theorem read_write {ps : List Pair} (hne : ps ≠ []) (hquotes : ∀ p ∈ ps, Unquoted p)
    {rest : List Char} (hrest : rest.head? ≠ some ',') {fuel : Nat} (hfuel : ps.length ≤ fuel) :
    read fuel (write ps ++ rest) = some (ps, rest) := by
  induction ps generalizing fuel with
  | nil => exact absurd rfl hne
  | cons p ps ih =>
      obtain ⟨hp, hps⟩ := List.forall_mem_cons.mp hquotes
      obtain ⟨fuel, rfl⟩ : ∃ n, fuel = n + 1 := ⟨fuel - 1, by
        rw [List.length_cons] at hfuel
        omega⟩
      have hpair : ∀ more, read (fuel + 1) (writePair p ++ more) = match more with
          | ',' :: cs => (read fuel cs).map fun (ps, cs) => (p :: ps, cs)
          | cs        => some ([p], cs) := by
        intro more
        have htext : writePair p ++ more = p.1 ++ '=' :: '"' :: (p.2 ++ '"' :: more) := by
          simp [writePair]
        rw [htext, read, readName_append hp.1, Option.bind_some]
        dsimp only
        rw [readValue_append hp.2, Option.bind_some]
      cases ps with
      | nil =>
          rw [write, hpair]
          split
          · exact absurd rfl hrest
          · rfl
      | cons q ps =>
          have hnext := ih (List.cons_ne_nil q ps) hps (Nat.le_of_succ_le_succ hfuel)
          rw [write, List.append_assoc, hpair]
          show (read fuel (write (q :: ps) ++ rest)).map _ = _
          rw [hnext, Option.map_some]

/-- **A block without quotes is read back**, whatever follows that does not look like one. -/
theorem readBlock_block {ps : List Pair} (hquotes : ∀ p ∈ ps, Unquoted p) {rest : List Char}
    (hrest : rest.head? ≠ some '{') : readBlock (block ps ++ rest) = some (ps, rest) := by
  unfold block
  split
  · rename_i hnil
    subst hnil
    rw [List.nil_append, readBlock.eq_2]
    rintro cs rfl
    exact hrest rfl
  · rename_i hne
    have hlength := length_le_write ps
    have hread : read (write ps ++ '}' :: rest).length (write ps ++ '}' :: rest) =
        some (ps, '}' :: rest) := read_write hne hquotes (by simp) (by
        rw [List.length_append]
        omega)
    have htext : '{' :: (write ps ++ ['}']) ++ rest = '{' :: (write ps ++ '}' :: rest) := by simp
    rw [htext, readBlock, hread]
    rfl

end MapProtocol.QuotedPairs
