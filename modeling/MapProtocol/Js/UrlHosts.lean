import MapProtocol.Js.Json
import MapProtocol.Js.JsonNumbers

/-!
# Hosts of a URL

The hosts that the URL parser of the platform gives, and how they are written in `hostname`: a domain, an
IPv4 or an IPv6 address, or, where the scheme is not one of the web's, some other text. A domain is in small
letters of ASCII, has no bracket, and does not end in a number: a name that does is an IPv4 address. So
the text of an address tells which address it is.
-/

namespace MapProtocol.Js

variable {n : Nat} {c : Char} {pieces : List Nat} {address : Ipv6}

/-! ## Hosts -/

/-- `0x` and hexadecimal digits. -/
def isHexNumber : List Char → Bool
  | '0' :: x :: ds => (x == 'x' || x == 'X') && ds.all fun d => (hexValue d).isSome
  | _              => false

/-- The last label of a domain, a single dot at the end apart. -/
def lastLabel (cs : List Char) : List Char :=
  match (splitChars '.' cs).reverse with
  | [] :: label :: _ => label
  | label :: _       => label
  | []               => []

/-- Does a domain end in a number? -/
def endsInNumber (cs : List Char) : Bool :=
  let label := lastLabel cs
  (!label.isEmpty && label.all isDigit) || isHexNumber label

/-- A letter as it stands in a hostname. -/
def isHostChar (c : Char) : Bool := c.toNat < 128 && !(65 ≤ c.toNat && c.toNat ≤ 90)

structure Domain where
  text      : String
  chars     : ∀ c ∈ text.toList, isHostChar c = true
  noBracket : '[' ∉ text.toList
  noNumber  : endsInNumber text.toList = false

abbrev Ipv4 := Fin (2 ^ 32)

structure Ipv6 where
  pieces : List Nat
  length : pieces.length = 8
  bound  : ∀ p ∈ pieces, p < 2 ^ 16

inductive Host where
  | domain (d : Domain)
  | ipv4 (address : Ipv4)
  | ipv6 (address : Ipv6)
  | other (text : String)

/-! ## Texts -/

/-- The four parts of an IPv4 address. -/
def Ipv4.octets (address : Ipv4) : List Nat :=
  [address.val / 2 ^ 24, address.val / 2 ^ 16 % 2 ^ 8, address.val / 2 ^ 8 % 2 ^ 8,
    address.val % 2 ^ 8]

def Ipv4.chars (address : Ipv4) : List Char :=
  List.intercalate ['.'] (address.octets.map (Nat.toDigits 10))

/-- How many zeros the pieces begin with. -/
def leadingZeros (pieces : List Nat) : Nat := (pieces.takeWhile (· = 0)).length

/-- The first longest run of zeros, its index and its length, of the pieces from `index` on, if it is
longer than `best`. -/
def longestZeros (index : Nat) (best : Nat × Nat) : List Nat → Nat × Nat
  | []      => best
  | p :: ps =>
      -- a later run has to be strictly longer, so that the first of the longest is kept
      let run := leadingZeros (p :: ps)
      longestZeros (index + 1) (if best.2 < run then (index, run) else best) ps

def writtenPieces (pieces : List Nat) : List Char :=
  List.intercalate [':'] (pieces.map (Nat.toDigits 16))

/-- The pieces, the first longest run of two zeros or more as `::`. -/
def Ipv6.chars (address : Ipv6) : List Char :=
  -- a single zero is not compressed
  let run := longestZeros 0 (0, 1) address.pieces
  if run.2 = 1 then writtenPieces address.pieces
  else writtenPieces (address.pieces.take run.1) ++
    ':' :: ':' :: writtenPieces (address.pieces.drop (run.1 + run.2))

def Host.hostname : Host → String
  | .domain d     => d.text
  | .ipv4 address => String.ofList address.chars
  | .ipv6 address => String.ofList ('[' :: (address.chars ++ [']']))
  | .other text   => text

example : (Host.ipv4 ⟨0x7F000001, by decide⟩).hostname = "127.0.0.1" := by decide

example : (Host.ipv6 ⟨[0, 0, 0, 0, 0, 0, 0, 1], by decide, by decide⟩).hostname = "[::1]" := by decide

example : (Host.ipv6 ⟨[0xFE80, 0, 0, 1, 0, 0, 0, 0xA], by decide, by decide⟩).hostname =
    "[fe80:0:0:1::a]" := by decide

/-! ## Digits -/

theorem digit_of_mem_toDigits {b : Nat} (hb : 1 < b) (h : c ∈ Nat.toDigits b n) :
    ∃ d < b, c = Nat.digitChar d := by
  induction n using Nat.strongRecOn with
  | _ n ih =>
      by_cases hlt : n < b
      · rw [Nat.toDigits_of_lt_base hlt, List.mem_singleton] at h
        exact ⟨n, hlt, h⟩
      · have hle : b ≤ n := Nat.not_lt.mp hlt
        rw [Nat.toDigits_of_base_le hb hle, List.mem_append, List.mem_singleton] at h
        rcases h with hfront | hlast
        · exact ih (n / b) (Nat.div_lt_self (by omega) hb) hfront
        · exact ⟨n % b, Nat.mod_lt _ (by omega), hlast⟩

theorem hostChar_of_mem_toDigits {b : Nat} (hb : 1 < b) (hle : b ≤ 16) (h : c ∈ Nat.toDigits b n) :
    isHostChar c = true ∧ c ≠ '.' ∧ c ≠ ':' ∧ c ≠ '[' := by
  have hdigits : ∀ d : Fin 16, isHostChar (Nat.digitChar d.val) = true ∧ Nat.digitChar d.val ≠ '.' ∧
      Nat.digitChar d.val ≠ ':' ∧ Nat.digitChar d.val ≠ '[' := by decide
  obtain ⟨d, hd, rfl⟩ := digit_of_mem_toDigits hb h
  exact hdigits ⟨d, by omega⟩

theorem toDigits_ten_injective {m n : Nat} (h : Nat.toDigits 10 m = Nat.toDigits 10 n) : m = n := by
  rw [← Nat.ofDigitChars_ten_toDigits (n := m), h, Nat.ofDigitChars_ten_toDigits]

theorem eq_one_of_toDigits (h : Nat.toDigits 16 n = ['1']) : n = 1 := by
  by_cases hlt : n < 16
  · have hdigits : ∀ d : Fin 16, [Nat.digitChar d.val] = ['1'] → d.val = 1 := by decide
    rw [Nat.toDigits_of_lt_base hlt] at h
    exact hdigits ⟨n, hlt⟩ h
  · rw [Nat.toDigits_of_base_le (by decide) (Nat.not_lt.mp hlt)] at h
    have hlength := congrArg List.length h
    rw [List.length_append, List.length_singleton, List.length_singleton] at hlength
    have hnil : Nat.toDigits 16 (n / 16) = [] := List.length_eq_zero_iff.mp (by omega)
    exact absurd hnil Nat.toDigits_ne_nil

theorem mem_intercalate {sep c : Char} {parts : List (List Char)} (h : c ∈ List.intercalate [sep] parts) :
    c = sep ∨ ∃ part ∈ parts, c ∈ part := by
  induction parts with
  | nil => cases h
  | cons part parts ih =>
      cases parts with
      | nil =>
          rw [List.intercalate_singleton] at h
          exact .inr ⟨part, List.mem_singleton_self _, h⟩
      | cons next parts =>
          rw [List.intercalate_cons_cons, List.mem_append, List.mem_append, List.mem_singleton] at h
          rcases h with (hfirst | hsep) | hrest
          · exact .inr ⟨part, List.mem_cons_self .., hfirst⟩
          · exact .inl hsep
          · rcases ih hrest with hsep | ⟨other, hother, hc⟩
            · exact .inl hsep
            · exact .inr ⟨other, List.mem_cons_of_mem _ hother, hc⟩

theorem head_intercalate_toDigits {b : Nat} (sep : Char) (n : Nat) (ns : List Nat) :
    ∃ c ∈ Nat.toDigits b n, ∃ cs, List.intercalate [sep] ((n :: ns).map (Nat.toDigits b)) = c :: cs := by
  cases hdigits : Nat.toDigits b n with
  | nil => exact absurd hdigits Nat.toDigits_ne_nil
  | cons c cs =>
      refine ⟨c, List.mem_cons_self .., ?_⟩
      rw [List.map_cons, hdigits]
      cases ns with
      | nil => exact ⟨cs, by rw [List.map_nil, List.intercalate_singleton]⟩
      | cons m ns => exact ⟨_, by rw [List.map_cons, List.intercalate_cons_cons_left]⟩

/-! ## IPv4 -/

theorem dot_notMem_toDigits (n : Nat) : '.' ∉ Nat.toDigits 10 n := by
  intro h
  obtain ⟨-, hdot, -⟩ := hostChar_of_mem_toDigits (by decide) (by decide) h
  exact hdot rfl

theorem splitChars_ipv4 (address : Ipv4) :
    splitChars '.' address.chars = address.octets.map (Nat.toDigits 10) := by
  unfold Ipv4.chars Ipv4.octets
  simp only [List.map_cons, List.map_nil, List.intercalate_cons_cons, List.intercalate_singleton,
    List.append_assoc, List.singleton_append]
  rw [splitChars_append (dot_notMem_toDigits _), splitChars_append (dot_notMem_toDigits _),
    splitChars_append (dot_notMem_toDigits _), splitChars_of_notMem (dot_notMem_toDigits _)]

theorem ipv4_chars_injective {a b : Ipv4} (h : a.chars = b.chars) : a = b := by
  have hsplit : a.octets.map (Nat.toDigits 10) = b.octets.map (Nat.toDigits 10) := by
    rw [← splitChars_ipv4, ← splitChars_ipv4, h]
  have hoctets : a.octets = b.octets :=
    List.map_injective_iff.mpr (fun _ _ => toDigits_ten_injective) hsplit
  unfold Ipv4.octets at hoctets
  simp only [List.cons.injEq] at hoctets
  obtain ⟨h1, h2, h3, h4, -⟩ := hoctets
  exact Fin.ext (by omega)

theorem isHostChar_ipv4 {address : Ipv4} (h : c ∈ address.chars) :
    isHostChar c = true ∧ c ≠ '[' := by
  rcases mem_intercalate h with rfl | ⟨part, hpart, hc⟩
  · decide
  · obtain ⟨n, -, rfl⟩ := List.mem_map.mp hpart
    obtain ⟨hchar, -, -, hbracket⟩ := hostChar_of_mem_toDigits (by decide) (by decide) hc
    exact ⟨hchar, hbracket⟩

/-! ## IPv6 -/

theorem longestZeros_cases (index : Nat) (best : Nat × Nat) (pieces : List Nat) :
    longestZeros index best pieces = best ∨ ∃ k, best.2 < leadingZeros (pieces.drop k) ∧
      longestZeros index best pieces = (index + k, leadingZeros (pieces.drop k)) := by
  induction pieces generalizing index best with
  | nil => exact .inl rfl
  | cons p ps ih =>
      rw [longestZeros]
      by_cases hlonger : best.2 < leadingZeros (p :: ps)
      · rw [if_pos hlonger]
        rcases ih (index + 1) (index, leadingZeros (p :: ps)) with hsame | ⟨k, hk, hfound⟩
        · exact .inr ⟨0, hlonger, hsame⟩
        · refine .inr ⟨k + 1, hlonger.trans hk, ?_⟩
          rw [hfound, List.drop_succ_cons, Nat.add_assoc, Nat.add_comm 1 k]
      · rw [if_neg hlonger]
        rcases ih (index + 1) best with hsame | ⟨k, hk, hfound⟩
        · exact .inl hsame
        · refine .inr ⟨k + 1, hk, ?_⟩
          rw [hfound, List.drop_succ_cons, Nat.add_assoc, Nat.add_comm 1 k]

theorem zeros_append_drop (pieces : List Nat) :
    List.replicate (leadingZeros pieces) 0 ++ pieces.drop (leadingZeros pieces) = pieces := by
  induction pieces with
  | nil => rfl
  | cons p ps ih =>
      by_cases hp : p = 0
      · subst hp
        have hrun : leadingZeros (0 :: ps) = leadingZeros ps + 1 := by simp [leadingZeros]
        rw [hrun, List.replicate_succ, List.drop_succ_cons, List.cons_append, ih]
      · have hrun : leadingZeros (p :: ps) = 0 := by simp [leadingZeros, hp]
        rw [hrun]
        rfl

theorem ipv6_chars_cases (address : Ipv6) :
    address.chars = writtenPieces address.pieces ∨
      ∃ front run back, address.pieces = front ++ (List.replicate run 0 ++ back) ∧
        address.chars = writtenPieces front ++ ':' :: ':' :: writtenPieces back := by
  unfold Ipv6.chars
  dsimp only
  rcases longestZeros_cases 0 (0, 1) address.pieces with hnone | ⟨k, hk, hfound⟩
  · rw [hnone]
    exact .inl (if_pos rfl)
  · rw [hfound, Nat.zero_add]
    dsimp only
    have hlong : ¬ leadingZeros (address.pieces.drop k) = 1 := by
      dsimp only at hk
      omega
    rw [if_neg hlong]
    refine .inr ⟨address.pieces.take k, leadingZeros (address.pieces.drop k), _, ?_, rfl⟩
    rw [← List.drop_drop, zeros_append_drop, List.take_append_drop]

theorem isHostChar_writtenPieces (h : c ∈ writtenPieces pieces) :
    isHostChar c = true ∧ c ≠ '[' := by
  rcases mem_intercalate h with rfl | ⟨part, hpart, hc⟩
  · decide
  · obtain ⟨n, -, rfl⟩ := List.mem_map.mp hpart
    obtain ⟨hchar, -, -, hbracket⟩ := hostChar_of_mem_toDigits (by decide) (by decide) hc
    exact ⟨hchar, hbracket⟩

theorem isHostChar_ipv6 (h : c ∈ address.chars) :
    isHostChar c = true := by
  rcases ipv6_chars_cases address with hall | ⟨front, run, back, -, hparts⟩
  · rw [hall] at h
    exact (isHostChar_writtenPieces h).1
  · rw [hparts, List.mem_append, List.mem_cons, List.mem_cons] at h
    rcases h with hfront | rfl | rfl | hback
    · exact (isHostChar_writtenPieces hfront).1
    · decide
    · decide
    · exact (isHostChar_writtenPieces hback).1

theorem writtenPieces_head {p : Nat} {ps : List Nat} :
    ∃ c cs, writtenPieces (p :: ps) = c :: cs ∧ c ≠ ':' := by
  obtain ⟨c, hc, cs, hwritten⟩ := @head_intercalate_toDigits 16 ':' p ps
  exact ⟨c, cs, hwritten, (hostChar_of_mem_toDigits (by decide) (by decide) hc).2.2.1⟩

theorem pieces_of_chars {rest : List Char} (h : address.chars = ':' :: ':' :: rest) :
    ∃ run back, address.pieces = List.replicate run 0 ++ back ∧ rest = writtenPieces back := by
  rcases ipv6_chars_cases address with hall | ⟨front, run, back, hpieces, hparts⟩
  · cases hcases : address.pieces with
    | nil =>
        have hlength := address.length
        rw [hcases] at hlength
        cases hlength
    | cons p ps =>
        obtain ⟨c, cs, hwritten, hc⟩ := @writtenPieces_head p ps
        rw [h, hcases, hwritten] at hall
        exact absurd (List.cons.inj hall).1.symm hc
  · cases front with
    | nil =>
        rw [h] at hparts
        obtain ⟨-, hbehind⟩ := List.cons.inj hparts
        obtain ⟨-, hrest⟩ := List.cons.inj hbehind
        exact ⟨run, back, hpieces, hrest⟩
    | cons p ps =>
        obtain ⟨c, cs, hwritten, hc⟩ := @writtenPieces_head p ps
        rw [h, hwritten, List.cons_append] at hparts
        exact absurd (List.cons.inj hparts).1.symm hc

theorem writtenPieces_eq_nil (h : writtenPieces pieces = []) : pieces = [] := by
  cases pieces with
  | nil => rfl
  | cons p ps =>
      obtain ⟨c, cs, hwritten, -⟩ := @writtenPieces_head p ps
      rw [hwritten] at h
      cases h

theorem writtenPieces_eq_one (h : writtenPieces pieces = ['1']) : pieces = [1] := by
  cases pieces with
  | nil => cases h
  | cons p ps =>
      unfold writtenPieces at h
      cases ps with
      | nil =>
          rw [List.map_singleton, List.intercalate_singleton] at h
          rw [eq_one_of_toDigits h]
      | cons q qs =>
          rw [List.map_cons, List.map_cons, List.intercalate_cons_cons] at h
          have hcolon : ':' ∈ ['1'] := h ▸ by simp
          exact absurd hcolon (by decide)

def unspecified : Ipv6 := ⟨[0, 0, 0, 0, 0, 0, 0, 0], by decide, by decide⟩

def loopback : Ipv6 := ⟨[0, 0, 0, 0, 0, 0, 0, 1], by decide, by decide⟩

theorem ipv6_ext {a b : Ipv6} (h : a.pieces = b.pieces) : a = b := by
  cases a
  cases b
  cases h
  rfl

theorem ipv6_chars_unspecified :
    address.chars = "::".toList ↔ address = unspecified := by
  constructor
  · intro h
    -- nothing is written behind the colons, so that all eight pieces are zeros
    obtain ⟨run, back, hpieces, hrest⟩ := pieces_of_chars h
    rw [writtenPieces_eq_nil hrest.symm, List.append_nil] at hpieces
    have hrun : run = 8 := by simpa [hpieces] using address.length
    exact ipv6_ext (by rw [hpieces, hrun]; rfl)
  · rintro rfl
    decide

theorem ipv6_chars_loopback :
    address.chars = "::1".toList ↔ address = loopback := by
  constructor
  · intro h
    obtain ⟨run, back, hpieces, hrest⟩ := pieces_of_chars h
    rw [writtenPieces_eq_one hrest.symm] at hpieces
    have hrun : run = 7 := by simpa [hpieces] using address.length
    exact ipv6_ext (by rw [hpieces, hrun]; rfl)
  · rintro rfl
    decide

end MapProtocol.Js
