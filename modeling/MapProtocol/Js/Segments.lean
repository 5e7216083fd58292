import MapProtocol.Js.Uri

/-!
# Encoded path segments

A client that writes a text into a path keeps some characters and percent-encodes the bytes of the
others. Where a dot is among those it keeps, an encoded segment is a dot segment only if the text
itself is one (`SegmentEncoder.plain_encode`).
-/

namespace MapProtocol.Js

/-- The characters that an encoder of path segments keeps. -/
structure SegmentEncoder where
  keeps   : Char → Bool
  percent : keeps '%' = false
  dot     : keeps '.' = true
  segment : ∀ c, keeps c = true → isSegmentChar c = true

/-! ## Bytes below 128 -/

/-- A byte below 128 stands only for the character that it is. -/
theorem toNat_of_mem_utf8 {c : Char} {b : UInt8} (hb : b.toNat < 128)
    (h : b ∈ utf8 (String.singleton c)) : c.toNat = b.toNat := by
  have hvalid : c.val.toNat < 0x110000 := by
    rcases c.valid with h | h <;> omega
  rw [utf8_singleton] at h
  unfold String.utf8EncodeChar at h
  dsimp only at h
  split at h
  · rename_i hlow
    rw [List.mem_singleton.mp h]
    show c.val.toNat = (UInt8.ofNat c.val.toNat).toNat
    rw [UInt8.toNat_ofNat']
    omega
  · exfalso
    have hhigh : ∀ n, 128 ≤ n % 256 → b ≠ UInt8.ofNat n := by
      rintro n hn rfl
      rw [UInt8.toNat_ofNat'] at hb
      omega
    split at h
    · simp only [List.mem_cons, List.not_mem_nil, or_false] at h
      rcases h with h | h <;> exact hhigh _ (by omega) h
    · split at h
      · simp only [List.mem_cons, List.not_mem_nil, or_false] at h
        rcases h with h | h | h <;> exact hhigh _ (by omega) h
      · simp only [List.mem_cons, List.not_mem_nil, or_false] at h
        rcases h with h | h | h | h <;> exact hhigh _ (by omega) h

theorem dot_notMem_utf8 {c : Char} (hc : c ≠ '.') : (0x2E : UInt8) ∉ utf8 (String.singleton c) := by
  intro h
  have hdot := toNat_of_mem_utf8 (by decide) h
  exact hc (Char.toNat_inj.mp hdot)

/-! ## Dots written out -/

theorem dotted_cons {c : Char} (hc : c ≠ '%') (cs : List Char) : dotted (c :: cs) = c :: dotted cs := by
  rw [dotted.eq_def]
  split
  · rename_i h
    exact absurd (List.cons.inj h).1 hc
  · rename_i h
    exact absurd (List.cons.inj h).1 hc
  · rename_i h
    obtain ⟨rfl, rfl⟩ := List.cons.inj h
    rfl
  · rename_i h
    cases h

theorem dotted_of_notMem {cs : List Char} (h : '%' ∉ cs) : dotted cs = cs := by
  induction cs with
  | nil => rfl
  | cons c cs ih =>
      rw [List.mem_cons, not_or] at h
      rw [dotted_cons (Ne.symm h.1), ih h.2]

theorem hexDigit_facts (n : Fin 16) :
    (upperHexDigit n = '2' → n.val = 2) ∧ (upperHexDigit n = 'E' → n.val = 14) ∧
      upperHexDigit n ≠ '%' ∧ upperHexDigit n ≠ 'e' ∧ isSegmentChar (upperHexDigit n) = true := by
  revert n
  decide

theorem dotted_percentByte {b : UInt8} (hb : b ≠ 0x2E) (cs : List Char) :
    dotted (percentByte b ++ cs) = percentByte b ++ dotted cs := by
  have hlt := b.toNat_lt
  have hne : b.toNat ≠ 0x2E := fun h => hb (UInt8.toNat_inj.mp h)
  obtain ⟨htwo, -, hhigh, -, -⟩ := hexDigit_facts ⟨b.toNat / 16, by omega⟩
  obtain ⟨-, hE, hlow, hlower, -⟩ := hexDigit_facts ⟨b.toNat % 16, by omega⟩
  have hopen : dotted ('%' :: upperHexDigit (b.toNat / 16) :: upperHexDigit (b.toNat % 16) :: cs) =
      '%' :: dotted (upperHexDigit (b.toNat / 16) :: upperHexDigit (b.toNat % 16) :: cs) := by
    rw [dotted.eq_def]
    split
    · rename_i h
      simp only [List.cons.injEq, true_and] at h
      exact absurd h.2.1 hlower
    · rename_i h
      simp only [List.cons.injEq, true_and] at h
      have htwo' : b.toNat / 16 = 2 := htwo h.1
      have hE' : b.toNat % 16 = 14 := hE h.2.1
      omega
    · rename_i h
      obtain ⟨rfl, rfl⟩ := List.cons.inj h
      rfl
    · rename_i h
      cases h
  show dotted ('%' :: upperHexDigit (b.toNat / 16) :: upperHexDigit (b.toNat % 16) :: cs) = _
  rw [hopen, dotted_cons hhigh, dotted_cons hlow]
  rfl

theorem isSegmentChar_percentByte (b : UInt8) : ∀ c ∈ percentByte b, isSegmentChar c = true := by
  have hlt := b.toNat_lt
  have hhigh := (hexDigit_facts ⟨b.toNat / 16, by omega⟩).2.2.2.2
  have hlow := (hexDigit_facts ⟨b.toNat % 16, by omega⟩).2.2.2.2
  unfold percentByte
  simp only [List.forall_mem_cons, List.not_mem_nil, false_implies, implies_true, and_true]
  exact ⟨by decide, hhigh, hlow⟩

namespace SegmentEncoder

variable (e : SegmentEncoder)

def encode (cs : List Char) : List Char :=
  cs.flatMap fun c => if e.keeps c then [c] else percentEncode c

theorem encode_cons (c : Char) (cs : List Char) :
    e.encode (c :: cs) = (if e.keeps c then [c] else percentEncode c) ++ e.encode cs := rfl

theorem isSegmentChar_encode (cs : List Char) : ∀ c ∈ e.encode cs, isSegmentChar c = true := by
  intro c hc
  obtain ⟨d, -, hc⟩ := List.mem_flatMap.mp hc
  split at hc
  · rename_i hkept
    rw [List.mem_singleton.mp hc]
    exact e.segment d hkept
  · obtain ⟨b, -, hc⟩ := List.mem_flatMap.mp hc
    exact isSegmentChar_percentByte b c hc

theorem keeps_ne_percent {c : Char} (h : e.keeps c = true) : c ≠ '%' := by
  rintro rfl
  exact absurd (h.symm.trans e.percent) (by decide)

theorem dotted_encode (cs : List Char) : dotted (e.encode cs) = e.encode cs := by
  induction cs with
  | nil => rfl
  | cons c cs ih =>
      rw [encode_cons]
      split
      · rename_i hkept
        rw [List.singleton_append, dotted_cons (e.keeps_ne_percent hkept), ih]
      · rename_i hcoded
        have hdot : c ≠ '.' := by
          rintro rfl
          exact hcoded e.dot
        have hbytes : ∀ bs : List UInt8, (0x2E : UInt8) ∉ bs →
            dotted (bs.flatMap percentByte ++ e.encode cs) =
              bs.flatMap percentByte ++ e.encode cs := by
          intro bs
          induction bs with
          | nil => exact fun _ => ih
          | cons b bs ihb =>
              intro hbs
              have hb : b ≠ 0x2E := fun h => hbs (h ▸ List.mem_cons_self)
              rw [List.flatMap_cons, List.append_assoc, dotted_percentByte hb,
                ihb fun h => hbs (List.mem_cons_of_mem b h)]
        exact hbytes _ (dot_notMem_utf8 hdot)

theorem percentEncode_head (c : Char) : ∃ cs, percentEncode c = '%' :: cs := by
  unfold percentEncode
  rw [utf8_singleton]
  cases hcases : String.utf8EncodeChar c with
  | nil => exact absurd hcases String.utf8EncodeChar_ne_nil
  | cons b bs => exact ⟨_, rfl⟩

theorem eq_of_encode {cs ds : List Char} (h : e.encode cs = ds) (hds : '%' ∉ ds) : cs = ds := by
  induction cs generalizing ds with
  | nil => exact h
  | cons c cs ih =>
      rw [encode_cons] at h
      split at h
      · have htail : '%' ∉ e.encode cs := by
          intro hmem
          rw [← h] at hds
          exact hds (List.mem_cons_of_mem c hmem)
        rw [ih rfl htail]
        exact h
      · obtain ⟨rest, hrest⟩ := percentEncode_head c
        rw [hrest] at h
        exact absurd (by rw [← h]; exact List.mem_cons_self) hds

/-- An encoded text is a segment like another, unless the text is a dot segment. -/
theorem plain_encode {cs : List Char} (hsingle : cs ≠ ['.']) (hdouble : cs ≠ ['.', '.']) :
    PlainSegment (e.encode cs) where
  chars := e.isSegmentChar_encode cs
  singleDot := decide_eq_false fun h => hsingle (e.eq_of_encode
    ((e.dotted_encode cs).symm.trans h) (by decide))
  doubleDot := decide_eq_false fun h => hdouble (e.eq_of_encode
    ((e.dotted_encode cs).symm.trans h) (by decide))

end SegmentEncoder

/-! ## Encoders -/

theorem isSegmentChar_of_kept {others : List Char}
    (hothers : (others.all isSegmentChar) = true) {c : Char}
    (h : (c.isAlphanum || others.contains c) = true) : isSegmentChar c = true := by
  rcases Bool.or_eq_true_iff.mp h with hletter | hother
  · have hall : ∀ n : Fin 128, (Char.ofNat n).isAlphanum = true →
        isSegmentChar (Char.ofNat n) = true := by decide
    have hc := hall ⟨c.toNat, toNat_lt_of_isAlphanum hletter⟩
    rw [Char.ofNat_toNat] at hc
    exact hc hletter
  · exact List.all_eq_true.mp hothers c (List.contains_iff_mem.mp hother)

/-- `encodeURIComponent`. -/
def uriComponent : SegmentEncoder where
  keeps := isUnreserved
  percent := by decide
  dot := by decide
  segment _ h := isSegmentChar_of_kept (by decide) h

theorem encodeURIComponent_eq (s : String) :
    encodeURIComponent s = String.ofList (uriComponent.encode s.toList) := rfl

end MapProtocol.Js
