import MapProtocol.Js.Uri
import Mathlib.Data.List.Count

/-!
# Unescaping

Unescaping a component makes no text longer, and makes one with an escape shorter: a text has as many
characters as its bytes begin, and an escape is one byte (`countP_percentBytes`).
-/

namespace MapProtocol.Js

/-- A byte that begins a character. -/
def isLeadByte (b : UInt8) : Bool := b.toNat < 0x80 || 0xC0 ≤ b.toNat

/-- The bytes of a character begin one. -/
theorem countP_singleton (c : Char) : (utf8 (String.singleton c)).countP isLeadByte = 1 := by
  have hvalid : c.val.toNat < 0x110000 := by
    rcases c.valid with h | h <;> omega
  have hlead {n : Nat} (h : n % 256 < 0x80 ∨ 0xC0 ≤ n % 256) :
      isLeadByte (UInt8.ofNat n) = true := by
    unfold isLeadByte
    rw [UInt8.toNat_ofNat']
    simpa using h
  have htail {n : Nat} (hlow : 0x80 ≤ n % 256) (hhigh : n % 256 < 0xC0) :
      ¬isLeadByte (UInt8.ofNat n) = true := by
    unfold isLeadByte
    rw [UInt8.toNat_ofNat']
    simp
    omega
  rw [utf8_singleton]
  unfold String.utf8EncodeChar
  dsimp only
  split
  · rw [List.countP_cons_of_pos (hlead (by omega)), List.countP_nil]
  · split
    · rw [List.countP_cons_of_pos (hlead (by omega)),
        List.countP_cons_of_neg (htail (by omega) (by omega)), List.countP_nil]
    · split
      · rw [List.countP_cons_of_pos (hlead (by omega)),
          List.countP_cons_of_neg (htail (by omega) (by omega)),
          List.countP_cons_of_neg (htail (by omega) (by omega)), List.countP_nil]
      · rw [List.countP_cons_of_pos (hlead (by omega)),
          List.countP_cons_of_neg (htail (by omega) (by omega)),
          List.countP_cons_of_neg (htail (by omega) (by omega)),
          List.countP_cons_of_neg (htail (by omega) (by omega)), List.countP_nil]

theorem countP_utf8 (cs : List Char) :
    (utf8 (String.ofList cs)).countP isLeadByte = cs.length := by
  induction cs with
  | nil => rfl
  | cons c cs ih =>
      rw [utf8_ofList_cons, List.countP_append, countP_singleton, ih, List.length_cons]
      omega

/-- Unescaping begins no more characters than it reads, and fewer at an escape. -/
theorem countP_percentBytes {cs : List Char} {bytes : List UInt8}
    (h : percentBytes cs = some bytes) :
    bytes.countP isLeadByte ≤ cs.length ∧
      ('%' ∈ cs → bytes.countP isLeadByte < cs.length) := by
  fun_induction percentBytes cs generalizing bytes with
  | case1 =>
      cases h
      simp
  | case2 a b cs ih =>
      obtain ⟨high, -, hlow⟩ := Option.bind_eq_some_iff.mp h
      obtain ⟨low, -, hrest⟩ := Option.bind_eq_some_iff.mp hlow
      obtain ⟨rest, hcs, heq⟩ := Option.bind_eq_some_iff.mp hrest
      cases heq
      have hcount := (ih hcs).1
      have hbyte : (UInt8.ofNat (16 * high + low) :: rest).countP isLeadByte ≤
          rest.countP isLeadByte + 1 := by
        rw [List.countP_cons]
        split <;> omega
      simp only [List.length_cons]
      exact ⟨by omega, fun _ => by omega⟩
  | case3 => cases h
  | case4 c cs _ hc ih =>
      obtain ⟨rest, hcs, heq⟩ := Option.bind_eq_some_iff.mp h
      cases heq
      obtain ⟨hle, hlt⟩ := ih hcs
      rw [List.countP_append, countP_singleton, List.length_cons]
      refine ⟨by omega, fun hmem => ?_⟩
      have htail := hlt ((List.mem_cons.mp hmem).resolve_left fun h => hc h.symm)
      omega

theorem percentBytes_append {as bs : List Char} (h : '%' ∉ as) :
    percentBytes (as ++ bs) =
      (percentBytes bs).map (utf8 (String.ofList as) ++ ·) := by
  induction as with
  | nil => cases hbs : percentBytes bs <;> simp [hbs, utf8]
  | cons a as ih =>
      rw [List.mem_cons, not_or] at h
      rw [List.cons_append, percentBytes_cons (Ne.symm h.1), ih h.2, Option.map_map,
        utf8_ofList_cons]
      congr 1
      funext bytes
      exact (List.append_assoc _ _ _).symm

theorem percentBytes_plain {cs : List Char} (h : '%' ∉ cs) :
    percentBytes cs = some (utf8 (String.ofList cs)) := by
  have happend := @percentBytes_append cs [] h
  rw [List.append_nil] at happend
  rw [happend]
  exact congrArg some (List.append_nil _)

theorem decodeURIComponent_eq_some {s t : String} :
    decodeURIComponent s = some t ↔ percentBytes s.toList = some (utf8 t) := by
  unfold decodeURIComponent
  constructor
  · intro h
    obtain ⟨bytes, hbytes, htext⟩ := Option.bind_eq_some_iff.mp h
    rw [hbytes]
    unfold String.fromUTF8? at htext
    split at htext
    · cases htext
      rfl
    · cases htext
  · intro h
    rw [h]
    exact fromUTF8?_utf8 t

end MapProtocol.Js
