import MapProtocol.Js.Uri
import Mathlib.Data.Bool.AllAny
import Mathlib.Data.List.TakeWhile

/-!
# Targets of Go requests

The target of a request to `baseURL.JoinPath(path)`, for a base URL that has no path. `path.Clean`
resolves the segments, and `EscapedPath` lets the path stand if no character of it needs an escape.
A `?` is no exception: what follows it is part of the path. So the server reads the path that was
joined only if no step of either changes it (`pathname_requestTarget_iff`).
-/

namespace MapProtocol.Sdk

open Js

variable {s cs : List Char} {segments : List (List Char)} {c : Char}
  {foreign : String → Option String}

/-- The characters that `escape` leaves in a path. -/
def isUnescaped (c : Char) : Bool := c.isAlphanum || "-_.~$&+,/:;=@".toList.contains c

/-- The characters that `validEncoded` lets stand in a path. -/
def isPathChar (c : Char) : Bool := isUnescaped c || "!'()*[]%".toList.contains c

def escapeByte (b : UInt8) : List Char :=
  if isUnescaped (Char.ofNat b.toNat) then [Char.ofNat b.toNat] else percentByte b

/-- `path.Clean` of a rooted path, after the segments in `out`, the last first. `JoinPath` keeps a
slash at the end. -/
def cleanSegments : List (List Char) → List (List Char) → List (List Char)
  | out, []              => out
  | out, [segment]       =>
      if segment = [] then [] :: out
      else if segment = ['.'] then out
      else if segment = ['.', '.'] then out.tail
      else segment :: out
  | out, segment :: rest =>
      if segment = [] ∨ segment = ['.'] then cleanSegments out rest
      else if segment = ['.', '.'] then cleanSegments out.tail rest
      else cleanSegments (segment :: out) rest

/-- `path.Join`, of the root and a path that begins with a slash. -/
def joinedPath (path : List Char) : List Char :=
  match (cleanSegments [] (splitChars '/' path.tail)).reverse with
  | []       => ['/']
  | segments => pathText segments

/-- What is sent for the joined path. Where it cannot be unescaped, the base URL keeps its own path;
the path `*` is not escaped. -/
def requestTarget (path : List Char) : List Char :=
  let joined := joinedPath path
  match percentBytes joined with
  | none       => ['/']
  | some bytes =>
      if joined = "/%2A".toList then "/*".toList
      else if joined.all isPathChar then joined
      else bytes.flatMap escapeByte

example :
    requestTarget "/tasks/t1?tenant_id=acme".toList = "/tasks/t1%3Ftenant_id=acme".toList := by decide

/-! ## Lengths of paths -/

@[simp] theorem pathText_nil : pathText [] = [] := rfl

@[simp] theorem length_pathText_cons (s : List Char) (ss : List (List Char)) :
    (pathText (s :: ss)).length = s.length + 1 + (pathText ss).length := by
  unfold pathText
  rw [List.flatMap_cons, List.length_append, List.length_cons]

theorem length_pathText_reverse_append (ss out : List (List Char)) :
    (pathText (ss.reverse ++ out)).length = (pathText out).length + (pathText ss).length := by
  induction ss generalizing out with
  | nil => simp
  | cons s ss ih =>
      rw [List.reverse_cons, List.append_assoc, List.singleton_append, ih, length_pathText_cons,
        length_pathText_cons]
      omega

theorem length_pathText_tail (out : List (List Char)) :
    (pathText out.tail).length ≤ (pathText out).length := by
  cases out with
  | nil => exact Nat.le_refl _
  | cons s out => rw [List.tail_cons, length_pathText_cons]; omega

/-- Cleaning keeps the segments, or it shortens the path. -/
theorem cleanSegments_cases (out segments : List (List Char)) :
    (cleanSegments out segments = segments.reverse ++ out ∧ ∀ s ∈ segments.dropLast, s ≠ []) ∨
      (pathText (cleanSegments out segments)).length <
        (pathText out).length + (pathText segments).length := by
  fun_induction cleanSegments out segments with
  | case1 out => exact .inl ⟨rfl, fun _ h => nomatch h⟩
  | case2 out => exact .inl ⟨rfl, fun _ h => nomatch h⟩
  | case3 out => exact .inr (by simp)
  | case4 out =>
      have htail := length_pathText_tail out
      rw [length_pathText_cons]
      exact .inr (by omega)
  | case5 out segment => exact .inl ⟨rfl, fun _ h => nomatch h⟩
  | case6 out segment rest _ hdrop ih =>
      right
      have hkept := length_pathText_reverse_append rest out
      rw [length_pathText_cons]
      rcases ih with ⟨heq, -⟩ | hlt
      · rw [heq]
        omega
      · omega
  | case7 out rest _ _ ih =>
      right
      have hkept := length_pathText_reverse_append rest out.tail
      have htail := length_pathText_tail out
      rw [length_pathText_cons]
      rcases ih with ⟨heq, -⟩ | hlt
      · rw [heq]
        omega
      · omega
  | case8 out segment rest hne hdrop _ ih =>
      rcases ih with ⟨heq, hfull⟩ | hlt
      · refine .inl ⟨by simp [heq], ?_⟩
        rw [List.dropLast_cons_of_ne_nil (fun h => hne h), List.forall_mem_cons]
        exact ⟨(not_or.mp hdrop).1, hfull⟩
      · rw [length_pathText_cons] at hlt ⊢
        exact .inr (by omega)

theorem isDoubleDot_ne_nil (h : isDoubleDot s = true) : s ≠ [] := by
  rintro rfl
  exact absurd h (by decide)

theorem isSingleDot_ne_nil (h : isSingleDot s = true) : s ≠ [] := by
  rintro rfl
  exact absurd h (by decide)

/-- Resolving the dots of segments that need no encoding keeps them, or it shortens the path. -/
theorem resolveSegments_cases (h : ∀ s ∈ segments, ∀ c ∈ s, isSegmentChar c = true)
    (out : List (List Char)) :
    (resolveSegments out segments = segments.reverse ++ out ∧
        ∀ s ∈ segments, isSingleDot s = false ∧ isDoubleDot s = false) ∨
      (pathText (resolveSegments out segments)).length <
        (pathText out).length + (pathText segments).length := by
  fun_induction resolveSegments out segments with
  | case1 out => exact .inl ⟨rfl, fun _ h => nomatch h⟩
  | case2 out segment hdots =>
      have htail := length_pathText_tail out
      have hlength := List.length_pos_iff.mpr (isDoubleDot_ne_nil hdots)
      rw [length_pathText_cons, length_pathText_cons, List.length_nil]
      exact .inr (by omega)
  | case3 out segment _ hdot =>
      have hlength := List.length_pos_iff.mpr (isSingleDot_ne_nil hdot)
      rw [length_pathText_cons, length_pathText_cons, List.length_nil]
      exact .inr (by omega)
  | case4 out segment hdots hdot =>
      rw [flatMap_encodePathChar (h segment List.mem_cons_self)]
      refine .inl ⟨rfl, List.forall_mem_singleton.mpr ?_⟩
      exact ⟨Bool.eq_false_iff.mpr hdot, Bool.eq_false_iff.mpr hdots⟩
  | case5 out segment rest _ _ ih =>
      right
      have hkept := length_pathText_reverse_append rest out.tail
      have htail := length_pathText_tail out
      rw [length_pathText_cons]
      rcases ih (List.forall_mem_cons.mp h).2 with ⟨heq, -⟩ | hlt
      · rw [heq]
        omega
      · omega
  | case6 out segment rest _ _ _ ih =>
      right
      have hkept := length_pathText_reverse_append rest out
      rw [length_pathText_cons]
      rcases ih (List.forall_mem_cons.mp h).2 with ⟨heq, -⟩ | hlt
      · rw [heq]
        omega
      · omega
  | case7 out segment rest _ hdots hdot ih =>
      rw [flatMap_encodePathChar (h segment List.mem_cons_self)] at ih ⊢
      rcases ih (List.forall_mem_cons.mp h).2 with ⟨heq, hplain⟩ | hlt
      · refine .inl ⟨by simp [heq], List.forall_mem_cons.mpr ⟨?_, hplain⟩⟩
        exact ⟨Bool.eq_false_iff.mpr hdot, Bool.eq_false_iff.mpr hdots⟩
      · rw [length_pathText_cons] at hlt ⊢
        exact .inr (by omega)

/-! ## Segments -/

theorem pathText_splitChars (cs : List Char) : pathText (splitChars '/' cs) = '/' :: cs := by
  induction cs with
  | nil => rfl
  | cons c cs ih =>
      rw [splitChars]
      split_ifs with hc
      · rw [hc, ← ih]
        rfl
      · cases hsplit : splitChars '/' cs with
        | nil =>
            rw [hsplit] at ih
            exact absurd ih (by simp)
        | cons w ws =>
            have htail : w ++ pathText ws = cs := by
              rw [hsplit] at ih
              exact (List.cons.inj ih).2
            rw [← htail]
            rfl

theorem slash_notMem_splitChars : ∀ s ∈ splitChars '/' cs, '/' ∉ s := by
  induction cs with
  | nil => simp [splitChars]
  | cons c cs ih =>
      rw [splitChars]
      split_ifs with hc
      · exact List.forall_mem_cons.mpr ⟨List.not_mem_nil, ih⟩
      · have hne : '/' ≠ c := fun h => hc h.symm
        cases hsplit : splitChars '/' cs with
        | nil => simp [hne]
        | cons w ws =>
            rw [hsplit] at ih
            obtain ⟨hw, hws⟩ := List.forall_mem_cons.mp ih
            refine List.forall_mem_cons.mpr ⟨?_, hws⟩
            rw [List.mem_cons, not_or]
            exact ⟨hne, hw⟩

theorem mem_of_mem_pathText (h : c ∈ pathText segments) :
    c = '/' ∨ ∃ s ∈ segments, c ∈ s := by
  obtain ⟨s, hs, hc⟩ := List.mem_flatMap.mp h
  rcases List.mem_cons.mp hc with rfl | hc
  · exact .inl rfl
  · exact .inr ⟨s, hs, hc⟩

theorem mem_cleanSegments {out segments : List (List Char)} (h : s ∈ cleanSegments out segments) :
    s ∈ out ∨ s ∈ segments := by
  fun_induction cleanSegments out segments with
  | case1 out => exact .inl h
  | case2 out => grind
  | case3 out => exact .inl h
  | case4 out => exact .inl (List.mem_of_mem_tail h)
  | case5 out segment => grind
  | case6 out segment rest _ hdrop ih => exact (ih h).imp_right (List.mem_cons_of_mem segment)
  | case7 out rest _ _ ih => exact (ih h).imp List.mem_of_mem_tail (List.mem_cons_of_mem _)
  | case8 out segment rest _ hdrop hdots ih => grind

theorem cleanSegments_full {out : List (List Char)} (hout : ∀ s ∈ out, s ≠ [])
    (segments : List (List Char)) : ∀ s ∈ (cleanSegments out segments).tail, s ≠ [] := by
  have htail : ∀ {l : List (List Char)}, (∀ s ∈ l, s ≠ []) → ∀ s ∈ l.tail, s ≠ [] :=
    fun h s hs => h s (List.mem_of_mem_tail hs)
  fun_induction cleanSegments out segments with
  | case1 out => exact htail hout
  | case2 out => exact hout
  | case3 out => exact htail hout
  | case4 out => exact htail (htail hout)
  | case5 out segment => exact hout
  | case6 out segment rest _ hdrop ih => exact ih hout
  | case7 out rest _ _ ih => exact ih (htail hout)
  | case8 out segment rest _ hdrop _ ih =>
      exact ih (List.forall_mem_cons.mpr ⟨(not_or.mp hdrop).1, hout⟩)

theorem cleanSegments_plain (hfull : ∀ s ∈ segments.dropLast, s ≠ [])
    (hdots : ∀ s ∈ segments, s ≠ ['.'] ∧ s ≠ ['.', '.']) (out : List (List Char)) :
    cleanSegments out segments = segments.reverse ++ out := by
  fun_induction cleanSegments out segments with
  | case1 out => rfl
  | case2 out => rfl
  | case3 out => exact absurd rfl (hdots _ List.mem_cons_self).1
  | case4 out => exact absurd rfl (hdots _ List.mem_cons_self).2
  | case5 out segment => rfl
  | case6 out segment rest hne hdrop ih =>
      rw [List.dropLast_cons_of_ne_nil (fun h => hne h)] at hfull
      rcases hdrop with rfl | rfl
      · exact absurd rfl (hfull _ List.mem_cons_self)
      · exact absurd rfl (hdots _ List.mem_cons_self).1
  | case7 out rest _ _ ih => exact absurd rfl (hdots _ List.mem_cons_self).2
  | case8 out segment rest hne hdrop _ ih =>
      rw [List.dropLast_cons_of_ne_nil (fun h => hne h)] at hfull
      rw [ih (List.forall_mem_cons.mp hfull).2 (List.forall_mem_cons.mp hdots).2]
      simp

/-! ## What the server reads -/

theorem isPathChar_lt (h : isPathChar c = true) : c.toNat < 128 := by
  have hlisted : ∀ d ∈ "-_.~$&+,/:;=@!'()*[]%".toList, d.toNat < 128 :=
    List.all_iff_forall_prop.mp (by decide)
  have hcases : c.isAlphanum = true ∨ c ∈ "-_.~$&+,/:;=@!'()*[]%".toList := by
    unfold isPathChar isUnescaped at h
    simpa [or_assoc] using h
  rcases hcases with halnum | hmem
  · exact toNat_lt_of_isAlphanum halnum
  · exact hlisted c hmem

theorem isSegmentChar_of_isPathChar (h : isPathChar c = true) :
    c = '/' ∨ isSegmentChar c = true := by
  have hall : ∀ n : Fin 128, isPathChar (Char.ofNat n) = true →
      Char.ofNat n = '/' ∨ isSegmentChar (Char.ofNat n) = true := by decide
  have hc := hall ⟨c.toNat, isPathChar_lt h⟩
  rw [Char.ofNat_toNat] at hc
  exact hc h

theorem isPathChar_percentByte (b : UInt8) : ∀ c ∈ percentByte b, isPathChar c = true := by
  have hdigit : ∀ n : Fin 16, isPathChar (upperHexDigit n) = true := by decide
  have hb := b.toNat_lt
  have hhigh := hdigit ⟨b.toNat / 16, by omega⟩
  have hlow := hdigit ⟨b.toNat % 16, by omega⟩
  unfold percentByte
  simp only [List.forall_mem_cons, List.not_mem_nil, false_implies, implies_true, and_true]
  exact ⟨by decide, hhigh, hlow⟩

theorem isPathChar_escapeByte (b : UInt8) : ∀ c ∈ escapeByte b, isPathChar c = true := by
  unfold escapeByte
  split_ifs with hkept
  · intro c hc
    rw [List.mem_singleton.mp hc]
    unfold isPathChar
    rw [hkept]
    rfl
  · exact isPathChar_percentByte b

theorem isPathChar_requestTarget (path : List Char) :
    ∀ c ∈ requestTarget path, isPathChar c = true := by
  unfold requestTarget
  dsimp only
  cases percentBytes (joinedPath path) with
  | none => exact List.forall_mem_singleton.mpr (by decide)
  | some bytes =>
      dsimp only
      split_ifs with hstar hvalid
      · exact List.all_eq_true.mp (by decide)
      · exact List.all_eq_true.mp hvalid
      · intro c hc
        obtain ⟨b, -, hc⟩ := List.mem_flatMap.mp hc
        exact isPathChar_escapeByte b c hc

theorem isSegmentChar_of_segments (hslash : ∀ s ∈ segments, '/' ∉ s)
    (hchars : ∀ c ∈ pathText segments, isPathChar c = true) :
    ∀ s ∈ segments, ∀ c ∈ s, isSegmentChar c = true := by
  intro s hs c hc
  have hmem : c ∈ pathText segments :=
    List.mem_flatMap.mpr ⟨s, hs, List.mem_cons_of_mem _ hc⟩
  rcases isSegmentChar_of_isPathChar (hchars c hmem) with rfl | hsegment
  · exact absurd hc (hslash s hs)
  · exact hsegment

/-- A target of path characters is read as it is, up to its dots. -/
theorem pathname_pathText (foreign : String → Option String) (hne : segments ≠ [])
    (hslash : ∀ s ∈ segments, '/' ∉ s) (hchars : ∀ c ∈ pathText segments, isPathChar c = true)
    (hfirst : segments.length = 1 ∨ segments.head? ≠ some []) :
    pathname foreign (String.ofList (pathText segments)) =
      some (String.ofList (pathText (resolveSegments [] segments).reverse)) := by
  have hgt : ∀ c ∈ pathText segments, 32 < c.toNat := by
    intro c hc
    rcases isSegmentChar_of_isPathChar (hchars c hc) with rfl | hsegment
    · decide
    · exact gt_of_isSegmentChar hsegment
  have hkept : ∀ c ∈ pathText segments, (c ≠ '?' && c ≠ '#') = true ∧ c ≠ '\\' ∧ c ≠ '^' := by
    intro c hc
    rcases isSegmentChar_of_isPathChar (hchars c hc) with rfl | hsegment
    · decide
    · simp [ne_of_isSegmentChar hsegment (d := '?') (by decide),
        ne_of_isSegmentChar hsegment (d := '#') (by decide),
        ne_of_isSegmentChar hsegment (d := '\\') (by decide),
        ne_of_isSegmentChar hsegment (d := '^') (by decide)]
  obtain ⟨s, rest, rfl⟩ := List.exists_cons_of_ne_nil hne
  have hpath : pathText (s :: rest) = '/' :: (s ++ pathText rest) := rfl
  have htake : (pathText (s :: rest)).takeWhile (fun c => c ≠ '?' && c ≠ '#') =
      pathText (s :: rest) := List.takeWhile_eq_self_iff.mpr fun c hc => (hkept c hc).1
  have hmap : (s ++ pathText rest).map (fun c => if c = '\\' then '/' else c) =
      s ++ pathText rest := by
    refine (List.map_congr_left fun c hc => ?_).trans (List.map_id _)
    rw [if_neg (hkept c (hpath ▸ List.mem_cons_of_mem _ hc)).2.1]
    rfl
  have hcaret : '^' ∉ s ++ pathText rest := fun hc =>
    (hkept '^' (hpath ▸ List.mem_cons_of_mem _ hc)).2.2 rfl
  unfold pathname
  rw [String.toList_ofList, cleanTarget_eq_self hgt, htake, hpath]
  show (absolutePath (s ++ pathText rest)).or _ = _
  unfold absolutePath
  dsimp only
  rw [hmap, splitChars_slashFree hslash, if_neg]
  · rfl
  · rintro (⟨hlength, hhead⟩ | hmem)
    · exact hfirst.elim hlength fun hhead' => hhead' hhead
    · exact hcaret hmem

theorem mem_resolveSegments {out segments : List (List Char)} {s : List Char}
    (h : s ∈ resolveSegments out segments) :
    s ∈ out ∨ s = [] ∨ ∃ t ∈ segments, s = t.flatMap encodePathChar := by
  fun_induction resolveSegments out segments with
  | case1 out => exact .inl h
  | case2 out segment => grind [List.mem_of_mem_tail]
  | case3 out segment => grind
  | case4 out segment => grind
  | case5 out segment rest _ _ ih => grind [List.mem_of_mem_tail]
  | case6 out segment rest _ _ _ ih => grind
  | case7 out segment rest _ _ _ ih => grind

/-- What the platform reads where the target is not read here: no character that was not sent. -/
def ForeignPaths (foreign : String → Option String) : Prop :=
  ∀ target path, foreign target = some path → (∀ c ∈ target.toList, isPathChar c = true) →
    ∀ c ∈ path.toList, isPathChar c = true

/-- The path that the server reads from a target of path characters is made of them too. -/
theorem isPathChar_pathname (hforeign : ForeignPaths foreign) {target : List Char}
    (htarget : ∀ c ∈ target, isPathChar c = true) {path : String}
    (h : pathname foreign (String.ofList target) = some path) :
    ∀ c ∈ path.toList, isPathChar c = true := by
  have hlet : foreign (String.ofList target) = some path → ∀ c ∈ path.toList, isPathChar c = true :=
    fun h => hforeign _ _ h (by rwa [String.toList_ofList])
  have hgt : ∀ c ∈ target, 32 < c.toNat := by
    intro c hc
    rcases isSegmentChar_of_isPathChar (htarget c hc) with rfl | hsegment
    · decide
    · exact gt_of_isSegmentChar hsegment
  unfold pathname at h
  rw [String.toList_ofList, cleanTarget_eq_self hgt] at h
  split at h
  · rename_i cs hcs
    have hchars : ∀ c ∈ cs, isPathChar c = true := fun c hc =>
      htarget c (List.takeWhile_subset _ (hcs ▸ List.mem_cons_of_mem _ hc))
    have htext : ∀ c ∈ pathText (splitChars '/' cs), isPathChar c = true := by
      rw [pathText_splitChars]
      exact List.forall_mem_cons.mpr ⟨by decide, hchars⟩
    have hsegments := isSegmentChar_of_segments slash_notMem_splitChars htext
    have hmap : cs.map (fun c => if c = '\\' then '/' else c) = cs := by
      refine (List.map_congr_left fun c hc => ?_).trans (List.map_id _)
      have hne : c ≠ '\\' := by
        rintro rfl
        exact absurd (hchars _ hc) (by decide)
      rw [if_neg hne]
      rfl
    rcases Option.or_eq_some_iff.mp h with habsolute | ⟨-, hread⟩
    · unfold absolutePath at habsolute
      dsimp only at habsolute
      split_ifs at habsolute with hunread
      rw [hmap] at habsolute
      rw [← Option.some.inj habsolute, String.toList_ofList]
      intro c hc
      rcases mem_of_mem_pathText hc with rfl | ⟨s, hs, hcs⟩
      · decide
      rcases mem_resolveSegments (List.mem_reverse.mp hs) with hnil | rfl | ⟨t, ht, rfl⟩
      · cases hnil
      · cases hcs
      · rw [flatMap_encodePathChar (hsegments t ht)] at hcs
        exact htext c (List.mem_flatMap.mpr ⟨t, ht, List.mem_cons_of_mem _ hcs⟩)
    · exact hlet hread
  · exact hlet h

/-! ## Paths that stay as they are -/

/-- A path that neither the client nor the server changes. -/
structure Steady (path : List Char) : Prop where
  chars    : ∀ c ∈ path, isPathChar c = true
  escapes  : (percentBytes path).isSome = true
  segments : ∀ s ∈ (splitChars '/' path.tail).dropLast, s ≠ []
  dots     : ∀ s ∈ splitChars '/' path.tail, isSingleDot s = false ∧ isDoubleDot s = false
  star     : path ≠ "/%2A".toList

instance (path : List Char) : Decidable (Steady path) :=
  decidable_of_iff (path.all isPathChar = true ∧ (percentBytes path).isSome = true ∧
      (∀ s ∈ (splitChars '/' path.tail).dropLast, s ≠ []) ∧
      (∀ s ∈ splitChars '/' path.tail, isSingleDot s = false ∧ isDoubleDot s = false) ∧
      path ≠ "/%2A".toList)
    ⟨fun ⟨chars, escapes, segments, dots, star⟩ =>
      ⟨List.all_eq_true.mp chars, escapes, segments, dots, star⟩,
      fun h => ⟨List.all_eq_true.mpr h.chars, h.escapes, h.segments, h.dots, h.star⟩⟩

theorem joinedPath_of_clean {cs : List Char}
    (h : cleanSegments [] (splitChars '/' cs) = (splitChars '/' cs).reverse) :
    joinedPath ('/' :: cs) = '/' :: cs := by
  obtain ⟨s, rest, hsplit⟩ := List.exists_cons_of_ne_nil (splitChars_ne_nil cs)
  unfold joinedPath
  rw [List.tail_cons, h, List.reverse_reverse, ← pathText_splitChars cs, hsplit]

theorem joinedPath_cases (cs : List Char) :
    (joinedPath ('/' :: cs) = '/' :: cs ∧ ∀ s ∈ (splitChars '/' cs).dropLast, s ≠ []) ∨
      (joinedPath ('/' :: cs)).length < ('/' :: cs).length := by
  rcases cleanSegments_cases [] (splitChars '/' cs) with ⟨heq, hfull⟩ | hlt
  · rw [List.append_nil] at heq
    exact .inl ⟨joinedPath_of_clean heq, hfull⟩
  · cases cs with
    | nil => exact .inl ⟨rfl, fun _ h => nomatch h⟩
    | cons c cs =>
        right
        rw [pathText_splitChars, pathText_nil, List.length_nil, Nat.zero_add] at hlt
        have hlength := length_pathText_reverse_append
          (cleanSegments [] (splitChars '/' (c :: cs))) []
        rw [List.append_nil, pathText_nil, List.length_nil, Nat.zero_add] at hlength
        unfold joinedPath
        rw [List.tail_cons]
        cases hclean : (cleanSegments [] (splitChars '/' (c :: cs))).reverse with
        | nil => simp
        | cons s rest =>
            rw [hclean] at hlength
            dsimp only
            rw [hlength]
            exact hlt

/-- What is joined is a path of its own. -/
theorem joinedPath_shape (path : List Char) : ∃ segments, joinedPath path = pathText segments ∧
    segments ≠ [] ∧ (∀ s ∈ segments, '/' ∉ s) ∧
      (segments.length = 1 ∨ segments.head? ≠ some []) ∧
        ∀ s ∈ segments, s = [] ∨ s ∈ splitChars '/' path.tail := by
  unfold joinedPath
  cases hclean : (cleanSegments [] (splitChars '/' path.tail)).reverse with
  | nil => exact ⟨[[]], rfl, by simp, by simp, .inl rfl, by simp⟩
  | cons s rest =>
      have hmem : ∀ t ∈ s :: rest, t ∈ splitChars '/' path.tail := by
        intro t ht
        rw [← hclean] at ht
        exact (mem_cleanSegments (List.mem_reverse.mp ht)).resolve_left List.not_mem_nil
      have hrest : (cleanSegments [] (splitChars '/' path.tail)) = rest.reverse ++ [s] := by
        rw [← List.reverse_reverse (cleanSegments [] _), hclean, List.reverse_cons]
      refine ⟨s :: rest, rfl, List.cons_ne_nil _ _,
        fun t ht => slash_notMem_splitChars t (hmem t ht), ?_, fun t ht => .inr (hmem t ht)⟩
      -- the last to be joined may be empty, the first may not, unless it is the same
      cases hlast : rest.reverse with
      | nil => exact .inl (by rw [List.reverse_eq_nil_iff.mp hlast]; rfl)
      | cons t others =>
          have hfull := @cleanSegments_full [] (fun _ h => nomatch h) (splitChars '/' path.tail)
          rw [hrest, hlast] at hfull
          right
          rw [List.head?_cons]
          exact fun hs => hfull s (by simp) (Option.some.inj hs)

theorem Steady.joinedPath_eq (h : Steady ('/' :: cs)) :
    joinedPath ('/' :: cs) = '/' :: cs := by
  have hfull : ∀ s ∈ (splitChars '/' cs).dropLast, s ≠ [] := h.segments
  have hdots : ∀ s ∈ splitChars '/' cs, s ≠ ['.'] ∧ s ≠ ['.', '.'] := by
    intro s hs
    obtain ⟨hdot, hdouble⟩ := h.dots s hs
    constructor
    · rintro rfl
      exact absurd hdot (by decide)
    · rintro rfl
      exact absurd hdouble (by decide)
  exact joinedPath_of_clean ((cleanSegments_plain hfull hdots []).trans (List.append_nil _))

theorem first_of_full (h : ∀ s ∈ segments.dropLast, s ≠ []) :
    segments.length = 1 ∨ segments.head? ≠ some [] := by
  cases segments with
  | nil => exact .inr (by simp)
  | cons s rest =>
      cases rest with
      | nil => exact .inl rfl
      | cons t rest =>
          right
          rw [List.head?_cons]
          exact fun hs => h s List.mem_cons_self (Option.some.inj hs)

theorem pathname_steady (foreign : String → Option String) (h : Steady ('/' :: cs)) :
    pathname foreign (String.ofList (requestTarget ('/' :: cs))) =
      some (String.ofList ('/' :: cs)) := by
  obtain ⟨bytes, hbytes⟩ := Option.isSome_iff_exists.mp h.escapes
  have htarget : requestTarget ('/' :: cs) = pathText (splitChars '/' cs) := by
    unfold requestTarget
    dsimp only
    rw [h.joinedPath_eq, hbytes]
    dsimp only
    rw [if_neg h.star, if_pos (List.all_eq_true.mpr h.chars), pathText_splitChars]
  have hchars : ∀ c ∈ pathText (splitChars '/' cs), isPathChar c = true := by
    rw [pathText_splitChars]
    exact h.chars
  have hplain : ∀ s ∈ splitChars '/' cs, PlainSegment s := fun s hs =>
    ⟨isSegmentChar_of_segments slash_notMem_splitChars hchars s hs, (h.dots s hs).1,
      (h.dots s hs).2⟩
  rw [htarget, pathname_pathText foreign (splitChars_ne_nil cs) slash_notMem_splitChars hchars
    (first_of_full h.segments), resolveSegments_plain hplain, List.append_nil, List.reverse_reverse,
    pathText_splitChars]

theorem pathname_root (foreign : String → Option String) :
    pathname foreign (String.ofList ['/']) = some (String.ofList ['/']) := rfl

theorem mem_of_mem_joinedPath (h : c ∈ joinedPath ('/' :: cs)) :
    c ∈ '/' :: cs := by
  obtain ⟨segments, hjoined, -, -, -, hsegments⟩ := joinedPath_shape ('/' :: cs)
  rw [hjoined] at h
  rcases mem_of_mem_pathText h with rfl | ⟨s, hs, hc⟩
  · exact List.mem_cons_self
  · rcases hsegments s hs with rfl | hs
    · cases hc
    · rw [← pathText_splitChars cs]
      exact List.mem_flatMap.mpr ⟨s, hs, List.mem_cons_of_mem _ hc⟩

/-- Where the joined path is sent as it is, it is read as it was given only if nothing in it
changes. -/
theorem steady_of_sent {foreign : String → Option String} {cs : List Char}
    (hvalid : ∀ c ∈ joinedPath ('/' :: cs), isPathChar c = true)
    (hescapes : (percentBytes (joinedPath ('/' :: cs))).isSome = true)
    (hstar : joinedPath ('/' :: cs) ≠ "/%2A".toList)
    (h : pathname foreign (String.ofList (joinedPath ('/' :: cs))) =
      some (String.ofList ('/' :: cs))) : Steady ('/' :: cs) := by
  obtain ⟨segments, hjoined, hne, hslash, hfirst, -⟩ := joinedPath_shape ('/' :: cs)
  rw [hjoined] at hvalid
  rw [hjoined, pathname_pathText foreign hne hslash hvalid hfirst] at h
  have hpath : pathText (resolveSegments [] segments).reverse = '/' :: cs :=
    String.ofList_injective (Option.some.inj h)
  have hlength := length_pathText_reverse_append (resolveSegments [] segments) []
  rw [List.append_nil, hpath, pathText_nil, List.length_nil, Nat.zero_add] at hlength
  have hsegments := isSegmentChar_of_segments hslash hvalid
  rcases resolveSegments_cases hsegments [] with ⟨heq, hdots⟩ | hlt
  · rw [heq, List.append_nil, List.reverse_reverse] at hpath
    have hkept : joinedPath ('/' :: cs) = '/' :: cs := hjoined.trans hpath
    obtain ⟨s, rest, rfl⟩ := List.exists_cons_of_ne_nil hne
    have hsplit : splitChars '/' cs = s :: rest := by
      rw [← (List.cons.inj hpath).2]
      exact splitChars_slashFree hslash
    rcases joinedPath_cases cs with ⟨-, hfull⟩ | hlt
    · exact ⟨hpath ▸ hvalid, hkept ▸ hescapes, hfull, by rwa [List.tail_cons, hsplit],
        hkept ▸ hstar⟩
    · exact absurd hlt (by rw [hkept]; exact Nat.lt_irrefl _)
  · rw [← hlength, pathText_nil, List.length_nil, Nat.zero_add, ← hjoined] at hlt
    rcases joinedPath_cases cs with ⟨heq, -⟩ | hshorter
    · exact absurd hlt (by rw [heq]; exact Nat.lt_irrefl _)
    · exact absurd hlt (Nat.lt_asymm hshorter)

/-- **When the server reads the path that the client joined.** -/
theorem pathname_requestTarget_iff (hforeign : ForeignPaths foreign) (cs : List Char) :
    pathname foreign (String.ofList (requestTarget ('/' :: cs))) =
      some (String.ofList ('/' :: cs)) ↔ Steady ('/' :: cs) := by
  refine ⟨fun h => ?_, pathname_steady foreign⟩
  have hread := isPathChar_pathname hforeign (isPathChar_requestTarget _) h
  rw [String.toList_ofList] at hread
  have hvalid : ∀ c ∈ joinedPath ('/' :: cs), isPathChar c = true := fun c hc =>
    hread c (mem_of_mem_joinedPath hc)
  unfold requestTarget at h
  dsimp only at h
  cases hbytes : percentBytes (joinedPath ('/' :: cs)) with
  | none =>
      rw [hbytes] at h
      dsimp only at h
      rw [pathname_root] at h
      obtain rfl : [] = cs := (List.cons.inj (String.ofList_injective (Option.some.inj h))).2
      cases hbytes
  | some bytes =>
      rw [hbytes] at h
      dsimp only at h
      by_cases hstar : joinedPath ('/' :: cs) = "/%2A".toList
      · have hsent : pathname foreign (String.ofList "/*".toList) =
            some (String.ofList "/*".toList) := rfl
        rw [if_pos hstar, hsent] at h
        obtain rfl : ['*'] = cs := (List.cons.inj (String.ofList_injective (Option.some.inj h))).2
        exact absurd hstar (by decide)
      · rw [if_neg hstar, if_pos (List.all_eq_true.mpr hvalid)] at h
        exact steady_of_sent hvalid (Option.isSome_iff_exists.mpr ⟨bytes, hbytes⟩) hstar h

end MapProtocol.Sdk
