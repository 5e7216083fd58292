import MapProtocol.Js.Segments
import MapProtocol.Js.Unescaping
import MapProtocol.Sdk.GoUrl

/-!
# Escapes of Go requests

Where a path has to be escaped, the Go client unescapes what it has joined and escapes the bytes. So
what is sent unescapes to what was joined (`percentBytes_requestTarget`), which has as many
characters as the path only if nothing was cleaned away or unescaped (`joinedPath_of_count`).
-/

namespace MapProtocol.Sdk

open Js

/-! ## Characters that are left -/

theorem isPathChar_of_isUnescaped {c : Char} (h : isUnescaped c = true) : isPathChar c = true := by
  unfold isPathChar
  rw [h]
  rfl

theorem isUnescaped_lt {c : Char} (h : isUnescaped c = true) : c.toNat < 128 :=
  isPathChar_lt (isPathChar_of_isUnescaped h)

theorem utf8_unescaped {c : Char} (h : isUnescaped c = true) :
    utf8 (String.singleton c) = [UInt8.ofNat c.toNat] := by
  have hval : c.val.toNat ≤ 127 := Nat.le_of_lt_succ (isUnescaped_lt h)
  rw [utf8_singleton]
  unfold String.utf8EncodeChar
  rw [if_pos hval]
  rfl

theorem toNat_byteChar (b : UInt8) : (Char.ofNat b.toNat).toNat = b.toNat := by
  have hlt := b.toNat_lt
  have hvalid : b.toNat.isValidChar := .inl (by omega)
  unfold Char.ofNat
  rw [dif_pos hvalid]
  rfl

/-- What the Go client leaves in a segment, where it escapes the path. -/
def goSegments : SegmentEncoder where
  keeps c := isUnescaped c && c ≠ '/'
  percent := by decide
  dot := by decide
  segment c h := by
    obtain ⟨hkept, hslash⟩ := Bool.and_eq_true_iff.mp h
    have hsegment := isSegmentChar_of_isPathChar (isPathChar_of_isUnescaped hkept)
    exact hsegment.resolve_left (of_decide_eq_true hslash)

/-! ## Escaped bytes -/

/-- The bytes of a character are escaped unless it is left. -/
theorem escapeBytes_singleton (c : Char) :
    (utf8 (String.singleton c)).flatMap escapeByte =
      if isUnescaped c then [c] else percentEncode c := by
  split
  · rename_i hkept
    have hlt := isUnescaped_lt hkept
    have hchar : Char.ofNat (UInt8.ofNat c.toNat).toNat = c := by
      rw [UInt8.toNat_ofNat', Nat.mod_eq_of_lt (by omega), Char.ofNat_toNat]
    rw [utf8_unescaped hkept, List.flatMap_singleton, escapeByte, hchar, if_pos hkept]
  · rename_i hkept
    unfold percentEncode
    apply List.flatMap_congr
    intro b hb
    have hescaped : ¬isUnescaped (Char.ofNat b.toNat) = true := by
      intro hunescaped
      have hlt := isUnescaped_lt hunescaped
      rw [toNat_byteChar] at hlt
      have hsame := toNat_of_mem_utf8 hlt hb
      rw [← hsame, Char.ofNat_toNat] at hunescaped
      exact hkept hunescaped
    exact if_neg hescaped

theorem escapeBytes_segment {cs : List Char} (h : '/' ∉ cs) :
    (utf8 (String.ofList cs)).flatMap escapeByte = goSegments.encode cs := by
  induction cs with
  | nil => rfl
  | cons c cs ih =>
      rw [List.mem_cons, not_or] at h
      have hkeeps : goSegments.keeps c = isUnescaped c := by
        show (isUnescaped c && decide (c ≠ '/')) = isUnescaped c
        rw [decide_eq_true (Ne.symm h.1), Bool.and_true]
      rw [utf8_ofList_cons, List.flatMap_append, escapeBytes_singleton, ih h.2,
        SegmentEncoder.encode_cons, hkeeps]

theorem percentBytes_escapeBytes (bytes : List UInt8) :
    percentBytes (bytes.flatMap escapeByte) = some bytes := by
  induction bytes with
  | nil => rfl
  | cons b bytes ih =>
      rw [List.flatMap_cons]
      by_cases hkept : isUnescaped (Char.ofNat b.toNat) = true
      · have hescape : escapeByte b = [Char.ofNat b.toNat] := if_pos hkept
        have hpercent : Char.ofNat b.toNat ≠ '%' := by
          intro h
          rw [h] at hkept
          exact absurd hkept (by decide)
        rw [hescape, List.singleton_append, percentBytes_cons hpercent, ih, utf8_unescaped hkept,
          toNat_byteChar, UInt8.ofNat_toNat]
        rfl
      · have hescape : escapeByte b = percentByte b := if_neg hkept
        rw [hescape, percentBytes_percentByte, ih]
        rfl

theorem slash_escapeBytes {cs : List Char} (h : '/' ∈ cs) :
    '/' ∈ (utf8 (String.ofList cs)).flatMap escapeByte := by
  obtain ⟨as, bs, rfl⟩ := List.append_of_mem h
  rw [utf8_ofList_append, utf8_ofList_cons, List.flatMap_append, List.flatMap_append]
  have hself : (utf8 (String.singleton '/')).flatMap escapeByte = ['/'] := by decide
  rw [hself]
  simp

/-! ## Targets -/

theorem percentBytes_requestTarget {path : List Char} {bytes : List UInt8}
    (h : percentBytes (joinedPath path) = some bytes) (hstar : joinedPath path ≠ "/%2A".toList) :
    percentBytes (requestTarget path) = some bytes := by
  unfold requestTarget
  dsimp only
  rw [h]
  dsimp only
  rw [if_neg hstar]
  split
  · exact h
  · exact percentBytes_escapeBytes bytes

theorem joinedPath_of_count {cs : List Char} {bytes : List UInt8}
    (h : percentBytes (joinedPath ('/' :: cs)) = some bytes)
    (hcount : ('/' :: cs).length ≤ bytes.countP isLeadByte) :
    joinedPath ('/' :: cs) = '/' :: cs ∧ '%' ∉ '/' :: cs := by
  obtain ⟨hle, hlt⟩ := countP_percentBytes h
  rcases joinedPath_cases cs with ⟨hjoined, -⟩ | hshorter
  · rw [hjoined] at hlt
    exact ⟨hjoined, fun hmem => absurd (hlt hmem) (by omega)⟩
  · omega

end MapProtocol.Sdk
