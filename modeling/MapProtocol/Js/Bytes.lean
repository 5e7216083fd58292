import MapProtocol.Js.Text

/-!
# Bytes and base64url

`Buffer.from(text, "utf8").toString("base64url")` and its inverse. Encoding writes no padding;
decoding skips what is not in the alphabet, takes the characters in groups of four and drops a
character that is left alone.
-/

namespace MapProtocol.Js

def utf8 (s : String) : List UInt8 := s.toUTF8.data.toList

theorem utf8_singleton (c : Char) : utf8 (String.singleton c) = String.utf8EncodeChar c := by
  simp [utf8, String.toUTF8_eq_toByteArray, List.utf8Encode_singleton]

/-- What a decoder waits for inside a multi-byte sequence: how many bytes, between which bounds the
next one lies, and the bits read so far. -/
structure PendingBytes where
  needed : Nat
  lower  : Nat
  upper  : Nat
  bits   : Nat

/-- The first byte of a sequence: a character, or what is to follow. A byte that begins no sequence
is replaced. -/
def firstByte (b : Nat) : Char ⊕ PendingBytes :=
  if b < 0x80 then .inl (Char.ofNat b)
  else if 0xC2 ≤ b ∧ b ≤ 0xDF then .inr ⟨1, 0x80, 0xBF, b - 0xC0⟩
  else if b = 0xE0 then .inr ⟨2, 0xA0, 0xBF, 0⟩
  else if b = 0xED then .inr ⟨2, 0x80, 0x9F, 0xD⟩
  else if 0xE1 ≤ b ∧ b ≤ 0xEF then .inr ⟨2, 0x80, 0xBF, b - 0xE0⟩
  else if b = 0xF0 then .inr ⟨3, 0x90, 0xBF, 0⟩
  else if b = 0xF4 then .inr ⟨3, 0x80, 0x8F, 4⟩
  else if 0xF1 ≤ b ∧ b ≤ 0xF3 then .inr ⟨3, 0x80, 0xBF, b - 0xF0⟩
  else .inl '\uFFFD'

/-- Decoding with replacement: a sequence that breaks off is replaced, and the byte that broke it is
read again as a first byte. -/
def decodeReplacing : Option PendingBytes → List Nat → List Char
  | none, []             => []
  | some _, []           => ['\uFFFD']
  | none, b :: bs        =>
      match firstByte b with
      | .inl c => c :: decodeReplacing none bs
      | .inr p => decodeReplacing (some p) bs
  | some p, b :: bs      =>
      if p.lower ≤ b ∧ b ≤ p.upper then
        let bits := p.bits * 0x40 + (b - 0x80)
        if p.needed = 1 then Char.ofNat bits :: decodeReplacing none bs
        else decodeReplacing (some ⟨p.needed - 1, 0x80, 0xBF, bits⟩) bs
      else match firstByte b with
        | .inl c => '\uFFFD' :: c :: decodeReplacing none bs
        | .inr q => '\uFFFD' :: decodeReplacing (some q) bs

/-- The string of some UTF-8 bytes; what is not valid UTF-8 is replaced. -/
def fromUtf8 (bytes : List UInt8) : String :=
  (String.fromUTF8? ⟨bytes.toArray⟩).getD
    (String.ofList (decodeReplacing none (bytes.map UInt8.toNat)))

example : decodeReplacing none [0xC3, 0xA9, 0xE2, 0x82, 0x41, 0xFF] = "é\uFFFDA\uFFFD".toList := by
  decide

@[simp] theorem fromUtf8_utf8 (s : String) : fromUtf8 (utf8 s) = s := by
  have hbytes : (⟨(utf8 s).toArray⟩ : ByteArray) = s.toUTF8 := by simp [utf8]
  have hsome : String.fromUTF8? s.toUTF8 = some s := by
    simp only [String.fromUTF8?, String.toUTF8_eq_toByteArray]
    exact dif_pos s.isValidUTF8
  rw [fromUtf8, hbytes, hsome]
  rfl

def base64Alphabet : List Char :=
  "ABCDEFGHIJKLMNOPQRSTUVWXYZabcdefghijklmnopqrstuvwxyz0123456789-_".toList

def base64Char (n : Nat) : Char := base64Alphabet.getD n 'A'

/-- The value of a character of the alphabet; `+` and `/` are read too. -/
def base64Value (c : Char) : Option Nat :=
  if c = '+' then some 62
  else if c = '/' then some 63
  else base64Alphabet.findIdx? (· == c)

def encodeBytes : List UInt8 → List Char
  | a :: b :: c :: rest =>
      base64Char (a.toNat / 4) :: base64Char (a.toNat % 4 * 16 + b.toNat / 16) ::
        base64Char (b.toNat % 16 * 4 + c.toNat / 64) :: base64Char (c.toNat % 64) ::
        encodeBytes rest
  | [a, b] =>
      [base64Char (a.toNat / 4), base64Char (a.toNat % 4 * 16 + b.toNat / 16),
        base64Char (b.toNat % 16 * 4)]
  | [a] => [base64Char (a.toNat / 4), base64Char (a.toNat % 4 * 16)]
  | []  => []

def decodeValues : List Nat → List UInt8
  | p :: q :: r :: s :: rest =>
      UInt8.ofNat (p * 4 + q / 16) :: UInt8.ofNat (q % 16 * 16 + r / 4) ::
        UInt8.ofNat (r % 4 * 64 + s) :: decodeValues rest
  | [p, q, r] => [UInt8.ofNat (p * 4 + q / 16), UInt8.ofNat (q % 16 * 16 + r / 4)]
  | [p, q]    => [UInt8.ofNat (p * 4 + q / 16)]
  | _         => []

/-- `bytes.toString("base64url")`. -/
def base64urlOfBytes (bytes : List UInt8) : String := String.ofList (encodeBytes bytes)

/-- `Buffer.from(text, "base64url")`. -/
def bytesOfBase64url (text : String) : List UInt8 := decodeValues (text.toList.filterMap base64Value)

/-- `Buffer.from(input, "utf8").toString("base64url")`. -/
def base64url (input : String) : String := base64urlOfBytes (utf8 input)

theorem base64Value_base64Char {n : Nat} (h : n < 64) : base64Value (base64Char n) = some n := by
  have hall : ∀ k : Fin 64, base64Value (base64Char k) = some k.val := by decide +kernel
  exact hall ⟨n, h⟩

theorem filterMap_encodeBytes (bytes : List UInt8) :
    decodeValues ((encodeBytes bytes).filterMap base64Value) = bytes := by
  induction bytes using encodeBytes.induct with
  | case1 a b c rest ih =>
      have ha := a.toNat_lt
      have hb := b.toNat_lt
      have hc := c.toNat_lt
      simp only [encodeBytes, List.filterMap_cons]
      rw [base64Value_base64Char (by omega), base64Value_base64Char (by omega),
        base64Value_base64Char (by omega), base64Value_base64Char (by omega)]
      simp only [decodeValues, ih]
      -- three bytes are four groups of six bits
      have h₁ : a.toNat / 4 * 4 + (a.toNat % 4 * 16 + b.toNat / 16) / 16 = a.toNat := by omega
      have h₂ : (a.toNat % 4 * 16 + b.toNat / 16) % 16 * 16 +
          (b.toNat % 16 * 4 + c.toNat / 64) / 4 = b.toNat := by omega
      have h₃ : (b.toNat % 16 * 4 + c.toNat / 64) % 4 * 64 + c.toNat % 64 = c.toNat := by omega
      rw [h₁, h₂, h₃]
      simp
  | case2 a b =>
      have ha := a.toNat_lt
      have hb := b.toNat_lt
      simp only [encodeBytes, List.filterMap_cons, List.filterMap_nil]
      rw [base64Value_base64Char (by omega), base64Value_base64Char (by omega),
        base64Value_base64Char (by omega)]
      simp only [decodeValues]
      have h₁ : a.toNat / 4 * 4 + (a.toNat % 4 * 16 + b.toNat / 16) / 16 = a.toNat := by omega
      have h₂ : (a.toNat % 4 * 16 + b.toNat / 16) % 16 * 16 + b.toNat % 16 * 4 / 4 = b.toNat := by
        omega
      rw [h₁, h₂]
      simp
  | case3 a =>
      have ha := a.toNat_lt
      simp only [encodeBytes, List.filterMap_cons, List.filterMap_nil]
      rw [base64Value_base64Char (by omega), base64Value_base64Char (by omega)]
      simp only [decodeValues]
      have h₁ : a.toNat / 4 * 4 + a.toNat % 4 * 16 / 16 = a.toNat := by omega
      rw [h₁]
      simp
  | case4 => rfl

/-- **Decoding undoes encoding.** -/
@[simp] theorem bytesOfBase64url_base64urlOfBytes (bytes : List UInt8) :
    bytesOfBase64url (base64urlOfBytes bytes) = bytes := by
  simp [bytesOfBase64url, base64urlOfBytes, filterMap_encodeBytes]

theorem base64Char_ne_dot (n : Nat) : base64Char n ≠ '.' := by
  by_cases h : n < 64
  · have hall : ∀ k : Fin 64, base64Char k ≠ '.' := by decide +kernel
    exact hall ⟨n, h⟩
  · have hlen : base64Alphabet.length = 64 := by decide
    have hnone : base64Alphabet[n]? = none := List.getElem?_eq_none (by omega)
    simp [base64Char, List.getD, hnone]

theorem dot_notMem_encodeBytes (bytes : List UInt8) : '.' ∉ encodeBytes bytes := by
  induction bytes using encodeBytes.induct with
  | case1 a b c rest ih => simp [encodeBytes, ih, (base64Char_ne_dot _).symm]
  | case2 a b => simp [encodeBytes, (base64Char_ne_dot _).symm]
  | case3 a => simp [encodeBytes, (base64Char_ne_dot _).symm]
  | case4 => simp [encodeBytes]

theorem base64url_injective {a b : String} (h : base64url a = base64url b) : a = b := by
  have hbytes : utf8 a = utf8 b := by
    rw [← bytesOfBase64url_base64urlOfBytes (utf8 a), ← bytesOfBase64url_base64urlOfBytes (utf8 b)]
    exact congrArg bytesOfBase64url h
  rw [← fromUtf8_utf8 a, ← fromUtf8_utf8 b, hbytes]

end MapProtocol.Js
