import MapProtocol.Js.Bytes
import MapProtocol.Js.Json

/-!
# Percent-encoding and request targets

`encodeURIComponent`, `decodeURIComponent`, and `new URL(target, base).pathname` for the target of a
request. A target that begins with one slash is read here as the URL standard says: the path ends at
`?` or `#`, dot segments are resolved and what may not stand in a path is percent-encoded. Any other
target (an absolute URL, a host after two slashes), and one with a `^`, which platforms treat
differently, is left to the platform, the parameter `foreign`.
-/

namespace MapProtocol.Js

variable {c : Char} {segment cs : List Char} {segments : List (List Char)}

/-! ## Percent-encoding -/

def upperHexDigit (n : Nat) : Char := "0123456789ABCDEF".toList.getD n '0'

/-- `%XX`. -/
def percentByte (b : UInt8) : List Char :=
  ['%', upperHexDigit (b.toNat / 16), upperHexDigit (b.toNat % 16)]

def percentEncode (c : Char) : List Char := (utf8 (String.singleton c)).flatMap percentByte

/-- The characters that `encodeURIComponent` leaves as they are. -/
def isUnreserved (c : Char) : Bool := c.isAlphanum || "-_.!~*'()".toList.contains c

def encodeComponent (c : Char) : List Char := if isUnreserved c then [c] else percentEncode c

def encodeURIComponent (s : String) : String := String.ofList (s.toList.flatMap encodeComponent)

/-- The bytes of a text whose escapes are resolved; `none` where an escape is malformed. -/
def percentBytes : List Char → Option (List UInt8)
  | []                  => some []
  | '%' :: a :: b :: cs => do
      let high ← hexValue a
      let low ← hexValue b
      let rest ← percentBytes cs
      return UInt8.ofNat (16 * high + low) :: rest
  | '%' :: _            => none
  | c :: cs             => do
      let rest ← percentBytes cs
      return utf8 (String.singleton c) ++ rest

/-- `decodeURIComponent(s)`; `none` is its `URIError`. -/
def decodeURIComponent (s : String) : Option String := do
  let bytes ← percentBytes s.toList
  String.fromUTF8? ⟨bytes.toArray⟩

example : encodeURIComponent "a/é b" = "a%2F%C3%A9%20b" := by decide

theorem utf8_append (a b : String) : utf8 (a ++ b) = utf8 a ++ utf8 b := by
  simp [utf8, String.toUTF8_eq_toByteArray]

theorem utf8_ofList_append (as bs : List Char) :
    utf8 (String.ofList (as ++ bs)) = utf8 (String.ofList as) ++ utf8 (String.ofList bs) := by
  rw [← utf8_append]
  congr 1
  apply String.toList_injective
  simp

theorem utf8_ofList_cons (c : Char) (cs : List Char) :
    utf8 (String.ofList (c :: cs)) = utf8 (String.singleton c) ++ utf8 (String.ofList cs) :=
  utf8_ofList_append [c] cs

theorem fromUTF8?_utf8 (s : String) : String.fromUTF8? ⟨(utf8 s).toArray⟩ = some s := by
  have hbytes : (⟨(utf8 s).toArray⟩ : ByteArray) = s.toUTF8 := by simp [utf8]
  rw [hbytes]
  simp only [String.fromUTF8?, String.toUTF8_eq_toByteArray]
  exact dif_pos s.isValidUTF8

theorem hexValue_upperHexDigit {n : Nat} (h : n < 16) : hexValue (upperHexDigit n) = some n := by
  have hall : ∀ k : Fin 16, hexValue (upperHexDigit k) = some k.val := by decide
  exact hall ⟨n, h⟩

theorem percentBytes_percentByte (b : UInt8) (cs : List Char) :
    percentBytes (percentByte b ++ cs) = (percentBytes cs).map (b :: ·) := by
  have hb := b.toNat_lt
  have hvalue : 16 * (b.toNat / 16) + b.toNat % 16 = b.toNat := by omega
  unfold percentByte
  rw [List.cons_append, List.cons_append, List.cons_append, List.nil_append, percentBytes,
    hexValue_upperHexDigit (by omega), hexValue_upperHexDigit (by omega)]
  simp only [Option.bind_eq_bind, Option.bind_some, hvalue, UInt8.ofNat_toNat]
  cases percentBytes cs <;> rfl

theorem percentBytes_percentEncode (bytes : List UInt8) (cs : List Char) :
    percentBytes (bytes.flatMap percentByte ++ cs) = (percentBytes cs).map (bytes ++ ·) := by
  induction bytes with
  | nil => cases h : percentBytes cs <;> simp [h]
  | cons b bytes ih =>
      rw [List.flatMap_cons, List.append_assoc, percentBytes_percentByte, ih, Option.map_map]
      rfl

theorem percentBytes_cons (hc : c ≠ '%') (cs : List Char) :
    percentBytes (c :: cs) = (percentBytes cs).map (utf8 (String.singleton c) ++ ·) := by
  rw [percentBytes]
  · cases percentBytes cs <;> rfl
  · exact fun _ _ _ h _ => hc h
  · exact fun h => hc h

theorem percent_reserved (h : isUnreserved c = true) : c ≠ '%' := by
  rintro rfl
  exact absurd h (by decide)

theorem percentBytes_encodeComponents (cs : List Char) :
    percentBytes (cs.flatMap encodeComponent) = some (utf8 (String.ofList cs)) := by
  induction cs with
  | nil => rfl
  | cons c cs ih =>
      rw [List.flatMap_cons, utf8_ofList_cons]
      unfold encodeComponent
      split
      · rename_i hkept
        rw [List.singleton_append, percentBytes_cons (percent_reserved hkept)]
        unfold encodeComponent at ih
        rw [ih]
        rfl
      · unfold percentEncode
        rw [percentBytes_percentEncode]
        unfold encodeComponent percentEncode at ih
        rw [ih]
        rfl

/-- **Decoding a component undoes encoding it.** -/
@[simp] theorem decodeURIComponent_encodeURIComponent (s : String) :
    decodeURIComponent (encodeURIComponent s) = some s := by
  unfold decodeURIComponent encodeURIComponent
  rw [String.toList_ofList, percentBytes_encodeComponents, String.ofList_toList]
  exact fromUTF8?_utf8 s

/-! ## Targets -/

/-- The characters that stand in a path segment as they are. -/
def isSegmentChar (c : Char) : Bool :=
  33 ≤ c.toNat && c.toNat ≤ 126 && !("\"#<>?^/\\\x60\x7b\x7d".toList.contains c)

theorem toNat_lt_of_isAlphanum (h : c.isAlphanum = true) : c.toNat < 128 := by
  rcases isAlphanum_iff.mp h with ⟨-, hle⟩ | ⟨-, hle⟩ | ⟨-, hle⟩ <;> omega

def encodePathChar (c : Char) : List Char := if isSegmentChar c then [c] else percentEncode c

/-- A segment with its dots written out. -/
def dotted : List Char → List Char
  | '%' :: '2' :: 'e' :: cs => '.' :: dotted cs
  | '%' :: '2' :: 'E' :: cs => '.' :: dotted cs
  | c :: cs                 => c :: dotted cs
  | []                      => []

def isSingleDot (segment : List Char) : Bool := dotted segment = ['.']

def isDoubleDot (segment : List Char) : Bool := dotted segment = ['.', '.']

/-- The path of the segments that are left, after those in `out`, the last first. -/
def resolveSegments : List (List Char) → List (List Char) → List (List Char)
  | out, []              => out
  | out, [segment]       =>
      if isDoubleDot segment then [] :: out.tail
      else if isSingleDot segment then [] :: out
      else segment.flatMap encodePathChar :: out
  | out, segment :: rest =>
      if isDoubleDot segment then resolveSegments out.tail rest
      else if isSingleDot segment then resolveSegments out rest
      else resolveSegments (segment.flatMap encodePathChar :: out) rest

/-- `/a/b/c`. -/
def pathText (segments : List (List Char)) : List Char := segments.flatMap fun s => '/' :: s

/-- A target without the control characters and spaces around it, and without tabs and newlines. -/
def cleanTarget (cs : List Char) : List Char :=
  let trimmed := ((cs.dropWhile fun c => decide (c.toNat ≤ 32)).reverse.dropWhile
    fun c => decide (c.toNat ≤ 32)).reverse
  trimmed.filter fun c => c ≠ '\t' && c ≠ '\n' && c ≠ '\r'

/-- The path that begins with a slash and goes on with `cs`, where it is read here. -/
def absolutePath (cs : List Char) : Option String :=
  let segments := splitChars '/' (cs.map fun c => if c = '\\' then '/' else c)
  if segments.length ≠ 1 ∧ segments.head? = some [] ∨ '^' ∈ cs then none
  else some (String.ofList (pathText (resolveSegments [] segments).reverse))

/-- `new URL(target, "http://localhost").pathname`; `none` is its `TypeError`. -/
def pathname (foreign : String → Option String) (target : String) : Option String :=
  match (cleanTarget target.toList).takeWhile fun c => c ≠ '?' && c ≠ '#' with
  | '/' :: cs => (absolutePath cs).or (foreign target)
  | _         => foreign target

example : pathname (fun _ => none) "/admin/./keys/%2E%2e/a%20b?x=/y" = some "/admin/a%20b" := by decide

/-! ## Plain paths

A path whose segments need no encoding and are no dot segments is its own path, whatever query
follows it. -/

/-- What a segment of a plain path is made of. -/
structure PlainSegment (segment : List Char) : Prop where
  chars     : ∀ c ∈ segment, isSegmentChar c = true
  singleDot : isSingleDot segment = false
  doubleDot : isDoubleDot segment = false

theorem gt_of_isSegmentChar (h : isSegmentChar c = true) : 32 < c.toNat := by
  unfold isSegmentChar at h
  simp only [Bool.and_eq_true, decide_eq_true_eq] at h
  omega

theorem ne_of_isSegmentChar {c d : Char} (h : isSegmentChar c = true) (hd : isSegmentChar d = false) :
    c ≠ d := by
  rintro rfl
  rw [h] at hd
  cases hd

theorem slash_notMem (h : PlainSegment segment) : '/' ∉ segment :=
  fun hmem => ne_of_isSegmentChar (h.chars _ hmem) (by decide) rfl

theorem dropWhile_eq_self {p : Char → Bool} (h : ∀ c ∈ cs, p c = false) :
    cs.dropWhile p = cs := by
  cases cs with
  | nil => rfl
  | cons c cs => rw [List.dropWhile_cons_of_neg (by simp [h c List.mem_cons_self])]

theorem cleanTarget_eq_self (h : ∀ c ∈ cs, 32 < c.toNat) : cleanTarget cs = cs := by
  have hout : ∀ c ∈ cs, decide (c.toNat ≤ 32) = false := fun c hc => by simpa using h c hc
  have hkeep : ∀ c ∈ cs, (c ≠ '\t' && c ≠ '\n' && c ≠ '\r') = true := by
    intro c hc
    have hgt := h c hc
    have hne (d : Char) (hd : d.toNat ≤ 32) : c ≠ d := by
      rintro rfl
      omega
    simp [hne '\t' (by decide), hne '\n' (by decide), hne '\r' (by decide)]
  unfold cleanTarget
  dsimp only
  rw [dropWhile_eq_self hout, dropWhile_eq_self fun c hc => hout c (List.mem_reverse.mp hc),
    List.reverse_reverse]
  exact List.filter_eq_self.mpr hkeep

theorem splitChars_slashFree (h : ∀ s ∈ segment :: segments, '/' ∉ s) :
    splitChars '/' (segment ++ pathText segments) = segment :: segments := by
  induction segments generalizing segment with
  | nil => simpa [pathText] using splitChars_of_notMem (h segment List.mem_cons_self)
  | cons next segments ih =>
      have hpath : pathText (next :: segments) = '/' :: (next ++ pathText segments) := rfl
      rw [hpath, splitChars_append (h segment List.mem_cons_self),
        ih fun s hs => h s (List.mem_cons_of_mem _ hs)]

theorem splitChars_pathText (h : ∀ s ∈ segment :: segments, PlainSegment s) :
    splitChars '/' (segment ++ pathText segments) = segment :: segments :=
  splitChars_slashFree fun s hs => slash_notMem (h s hs)

theorem flatMap_encodePathChar (h : ∀ c ∈ cs, isSegmentChar c = true) :
    cs.flatMap encodePathChar = cs := by
  induction cs with
  | nil => rfl
  | cons c cs ih =>
      have hc : encodePathChar c = [c] := if_pos (h c List.mem_cons_self)
      rw [List.flatMap_cons, hc, ih fun d hd => h d (List.mem_cons_of_mem _ hd)]
      rfl

theorem resolveSegments_plain (h : ∀ s ∈ segments, PlainSegment s) (out : List (List Char)) :
    resolveSegments out segments = segments.reverse ++ out := by
  induction segments generalizing out with
  | nil => rfl
  | cons s segments ih =>
      have hs := h s List.mem_cons_self
      cases segments with
      | nil => simp [resolveSegments, hs.singleDot, hs.doubleDot, flatMap_encodePathChar hs.chars]
      | cons next rest =>
          rw [resolveSegments, hs.singleDot, hs.doubleDot, flatMap_encodePathChar hs.chars]
          · simp [ih fun s hs => h s (List.mem_cons_of_mem _ hs)]
          · simp

theorem isSegmentChar_of_mem_pathText (h : ∀ s ∈ segments, PlainSegment s)
    (hc : c ∈ pathText segments) :
    c = '/' ∨ isSegmentChar c = true := by
  obtain ⟨s, hs, hmem⟩ := List.mem_flatMap.mp hc
  rcases List.mem_cons.mp hmem with rfl | hmem
  · exact .inl rfl
  · exact .inr ((h s hs).chars c hmem)

theorem absolutePath_plain {rest : List (List Char)} (h : ∀ s ∈ (c :: cs) :: rest, PlainSegment s) :
    absolutePath (c :: cs ++ pathText rest) = some (String.ofList (pathText ((c :: cs) :: rest))) := by
  have hplain : ∀ d ∈ c :: cs ++ pathText rest, d ≠ '\\' ∧ d ≠ '^' := by
    intro d hd
    rcases isSegmentChar_of_mem_pathText h (List.mem_cons_of_mem '/' hd) with rfl | hseg
    · decide
    · exact ⟨ne_of_isSegmentChar hseg (by decide), ne_of_isSegmentChar hseg (by decide)⟩
  have hmap : (c :: cs ++ pathText rest).map (fun c => if c = '\\' then '/' else c) =
      c :: cs ++ pathText rest := by
    refine (List.map_congr_left fun d hd => ?_).trans (List.map_id _)
    rw [if_neg (hplain d hd).1]
    rfl
  unfold absolutePath
  dsimp only
  rw [hmap, splitChars_pathText h, if_neg, resolveSegments_plain h]
  · simp
  · rintro (⟨-, hhead⟩ | hcaret)
    · simp at hhead
    · exact (hplain _ hcaret).2 rfl

/-- **A plain path is its own path**, with or without a query behind it. -/
theorem pathname_plain (foreign : String → Option String) {segments : List (List Char)}
    (h : ∀ s ∈ segments, PlainSegment s) (hfirst : ∃ c cs rest, segments = (c :: cs) :: rest)
    {query : List Char} (hquery : query = [] ∨ ∃ cs, query = '?' :: cs)
    (hclean : ∀ c ∈ query, 32 < c.toNat) :
    pathname foreign (String.ofList (pathText segments ++ query)) =
      some (String.ofList (pathText segments)) := by
  have hchars : ∀ c ∈ pathText segments, c = '/' ∨ isSegmentChar c = true :=
    fun c => isSegmentChar_of_mem_pathText h
  have hgt : ∀ c ∈ pathText segments ++ query, 32 < c.toNat := by
    intro c hc
    rcases List.mem_append.mp hc with hc | hc
    · rcases hchars c hc with rfl | hseg
      · decide
      · exact gt_of_isSegmentChar hseg
    · exact hclean c hc
  have hkept : ∀ c ∈ pathText segments, (c ≠ '?' && c ≠ '#') = true := by
    intro c hc
    rcases hchars c hc with rfl | hseg
    · decide
    · simp [ne_of_isSegmentChar hseg (d := '?') (by decide),
        ne_of_isSegmentChar hseg (d := '#') (by decide)]
  have htake : (pathText segments ++ query).takeWhile (fun c => c ≠ '?' && c ≠ '#') =
      pathText segments := by
    rw [List.takeWhile_append_of_pos hkept]
    rcases hquery with rfl | ⟨cs, rfl⟩
    · simp
    · simp
  obtain ⟨c, cs, rest, rfl⟩ := hfirst
  have hpath : pathText ((c :: cs) :: rest) = '/' :: (c :: cs ++ pathText rest) := rfl
  unfold pathname
  rw [String.toList_ofList, cleanTarget_eq_self hgt, htake, hpath]
  show (absolutePath (c :: cs ++ pathText rest)).or _ = _
  rw [absolutePath_plain h]
  rfl

end MapProtocol.Js
