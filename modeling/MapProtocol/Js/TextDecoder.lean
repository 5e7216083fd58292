import MapProtocol.Js.Uri

/-!
# Decoding a stream

`TextDecoder.decode(chunk, { stream: true })`, for a stream that no byte order mark begins: the bytes
of a character that a chunk cuts are kept for the next. A text is read from its bytes
(`decodeStream_utf8`).
-/

namespace MapProtocol.Js

variable {p : PendingBytes} {b n : Nat}

/-- The characters that a byte ends, and what is waited for after it. -/
def decodeByte : Option PendingBytes → Nat → List Char × Option PendingBytes
  | none, b   =>
      match firstByte b with
      | .inl c => ([c], none)
      | .inr p => ([], some p)
  | some p, b =>
      if p.lower ≤ b ∧ b ≤ p.upper then
        let bits := p.bits * 0x40 + (b - 0x80)
        if p.needed = 1 then ([Char.ofNat bits], none)
        else ([], some ⟨p.needed - 1, 0x80, 0xBF, bits⟩)
      else match firstByte b with
        | .inl c => (['\uFFFD', c], none)
        | .inr q => (['\uFFFD'], some q)

/-- The text of a chunk, and what is kept. -/
def decodeStream (pending : Option PendingBytes) : List Nat → List Char × Option PendingBytes
  | []      => ([], pending)
  | b :: bs =>
      let (cs, pending) := decodeByte pending b
      let (text, pending) := decodeStream pending bs
      (cs ++ text, pending)

/-! ## Texts -/

theorem decodeStream_more (hlow : p.lower ≤ b) (hhigh : b ≤ p.upper) (hneeded : p.needed ≠ 1)
    (bs : List Nat) : decodeStream (some p) (b :: bs) =
      decodeStream (some ⟨p.needed - 1, 0x80, 0xBF, p.bits * 0x40 + (b - 0x80)⟩) bs := by
  simp [decodeStream, decodeByte, hlow, hhigh, hneeded]

theorem decodeStream_last (hlow : p.lower ≤ b) (hhigh : b ≤ p.upper) (hneeded : p.needed = 1)
    (bs : List Nat) : decodeStream (some p) (b :: bs) =
      (Char.ofNat (p.bits * 0x40 + (b - 0x80)) :: (decodeStream none bs).1,
        (decodeStream none bs).2) := by
  simp [decodeStream, decodeByte, hlow, hhigh, hneeded]

theorem decodeStream_single {c : Char} (h : firstByte b = .inl c) (bs : List Nat) :
    decodeStream none (b :: bs) = (c :: (decodeStream none bs).1, (decodeStream none bs).2) := by
  simp [decodeStream, decodeByte, h]

theorem decodeStream_first (h : firstByte b = .inr p) (bs : List Nat) :
    decodeStream none (b :: bs) = decodeStream (some p) bs := by
  simp [decodeStream, decodeByte, h]

theorem firstByte_two (hlow : 0x80 ≤ n) (hhigh : n ≤ 0x7FF) :
    firstByte (n / 64 % 32 + 192) = .inr ⟨1, 0x80, 0xBF, n / 64⟩ := by
  have hbits : n / 64 % 32 + 192 - 0xC0 = n / 64 := by omega
  unfold firstByte
  rw [if_neg (by omega), if_pos (by omega), hbits]

/-- The second of three bytes is bounded so that no text is written in more bytes than it needs, and
no surrogate is. -/
theorem firstByte_three (hlow : 0x800 ≤ n) (hhigh : n ≤ 0xFFFF)
    (hsurrogate : n < 0xD800 ∨ 0xDFFF < n) : ∃ lower upper,
      firstByte (n / 4096 % 16 + 224) = .inr ⟨2, lower, upper, n / 4096⟩ ∧
        lower ≤ n / 64 % 64 + 128 ∧ n / 64 % 64 + 128 ≤ upper := by
  unfold firstByte
  rw [if_neg (by omega), if_neg (by omega)]
  by_cases hfirst : n / 4096 % 16 + 224 = 0xE0
  · have hbits : n / 4096 = 0 := by omega
    rw [if_pos hfirst, hbits]
    exact ⟨_, _, rfl, by omega, by omega⟩
  · rw [if_neg hfirst]
    by_cases hlast : n / 4096 % 16 + 224 = 0xED
    · have hbits : n / 4096 = 0xD := by omega
      rw [if_pos hlast, hbits]
      exact ⟨_, _, rfl, by omega, by omega⟩
    · have hbits : n / 4096 % 16 + 224 - 0xE0 = n / 4096 := by omega
      rw [if_neg hlast, if_pos (by omega), hbits]
      exact ⟨_, _, rfl, by omega, by omega⟩

theorem firstByte_four (hlow : 0x10000 ≤ n) (hhigh : n < 0x110000) : ∃ lower upper,
    firstByte (n / 262144 % 8 + 240) = .inr ⟨3, lower, upper, n / 262144⟩ ∧
      lower ≤ n / 4096 % 64 + 128 ∧ n / 4096 % 64 + 128 ≤ upper := by
  unfold firstByte
  rw [if_neg (by omega), if_neg (by omega), if_neg (by omega), if_neg (by omega), if_neg (by omega)]
  by_cases hfirst : n / 262144 % 8 + 240 = 0xF0
  · have hbits : n / 262144 = 0 := by omega
    rw [if_pos hfirst, hbits]
    exact ⟨_, _, rfl, by omega, by omega⟩
  · rw [if_neg hfirst]
    by_cases hlast : n / 262144 % 8 + 240 = 0xF4
    · have hbits : n / 262144 = 4 := by omega
      rw [if_pos hlast, hbits]
      exact ⟨_, _, rfl, by omega, by omega⟩
    · have hbits : n / 262144 % 8 + 240 - 0xF0 = n / 262144 := by omega
      rw [if_neg hlast, if_pos (by omega), hbits]
      exact ⟨_, _, rfl, by omega, by omega⟩

/-- A character is read from its bytes. -/
theorem decodeStream_char (c : Char) (bs : List Nat) :
    decodeStream none ((utf8 (String.singleton c)).map UInt8.toNat ++ bs) =
      (c :: (decodeStream none bs).1, (decodeStream none bs).2) := by
  have hchar : ∀ n, n = c.val.toNat → Char.ofNat n = c := by
    rintro n rfl
    exact Char.ofNat_toNat c
  have hvalid : c.val.toNat < 0xD800 ∨ 0xDFFF < c.val.toNat ∧ c.val.toNat < 0x110000 := c.valid
  have hbyte : ∀ n < 256, (UInt8.ofNat n).toNat = n := by
    intro n hn
    rw [UInt8.toNat_ofNat']
    omega
  rw [utf8_singleton]
  unfold String.utf8EncodeChar
  dsimp only
  split
  · rename_i hone
    have hfirst : firstByte c.val.toNat = .inl c := by
      unfold firstByte
      rw [if_pos (by omega), hchar _ rfl]
    simp only [List.map_cons, List.map_nil, List.cons_append, List.nil_append]
    rw [hbyte _ (by omega), decodeStream_single hfirst]
  · rename_i hone
    split
    · rename_i htwo
      simp only [List.map_cons, List.map_nil, List.cons_append, List.nil_append]
      rw [hbyte _ (by omega), hbyte _ (by omega),
        decodeStream_first (firstByte_two (by omega) htwo),
        decodeStream_last (by dsimp only; omega) (by dsimp only; omega) rfl, hchar]
      dsimp only
      omega
    · rename_i htwo
      split
      · rename_i hthree
        obtain ⟨lower, upper, hfirst, hlower, hupper⟩ :=
          firstByte_three (n := c.val.toNat) (by omega) hthree (by omega)
        simp only [List.map_cons, List.map_nil, List.cons_append, List.nil_append]
        rw [hbyte _ (by omega), hbyte _ (by omega), hbyte _ (by omega), decodeStream_first hfirst,
          decodeStream_more hlower hupper (by dsimp only; decide),
          decodeStream_last (by dsimp only; omega) (by dsimp only; omega) rfl, hchar]
        dsimp only
        omega
      · rename_i hthree
        obtain ⟨lower, upper, hfirst, hlower, hupper⟩ :=
          firstByte_four (n := c.val.toNat) (by omega) (by omega)
        simp only [List.map_cons, List.map_nil, List.cons_append, List.nil_append]
        rw [hbyte _ (by omega), hbyte _ (by omega), hbyte _ (by omega), hbyte _ (by omega),
          decodeStream_first hfirst, decodeStream_more hlower hupper (by dsimp only; decide),
          decodeStream_more (by dsimp only; omega) (by dsimp only; omega) (by dsimp only; decide),
          decodeStream_last (by dsimp only; omega) (by dsimp only; omega) rfl, hchar]
        dsimp only
        omega

theorem decodeStream_utf8 (cs : List Char) :
    decodeStream none ((utf8 (String.ofList cs)).map UInt8.toNat) = (cs, none) := by
  induction cs with
  | nil => rfl
  | cons c cs ih =>
      rw [utf8_ofList_cons, List.map_append, decodeStream_char, ih]

end MapProtocol.Js
