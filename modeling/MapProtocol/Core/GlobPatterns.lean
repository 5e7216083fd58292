import MapProtocol.Core.Policy
import MapProtocol.Js.RegExp

/-!
# Capability patterns

A pattern with a star is compiled to an expression in which only `.` is escaped. Where its other
characters stand for themselves, the expression tests for the glob, except that a star covers no
line terminator.
-/

namespace MapProtocol

open Js

variable {pattern : String} {c : Char} {cs : List Char}

/-! ## Globs -/

def globTokens (pattern : String) : List (GlobToken Char) :=
  pattern.toList.map fun c => if c = '*' then .star else .letter c

/-- The capabilities that a pattern stands for: a star is any text. -/
def PatternMatches (pattern capability : String) : Prop :=
  GlobMatches (fun _ => true) (globTokens pattern) capability.toList

/-- A pattern with a star has no other character that means something in an expression. -/
def PlainPattern (pattern : String) : Prop :=
  '*' ∈ pattern.toList → ∀ c ∈ pattern.toList, c = '.' ∨ c = '*' ∨ isSyntaxCharacter c = false

/-- What the expression made from a pattern tests, where the pattern is plain. -/
def PatternTests (pattern capability : String) : Prop :=
  pattern = "*" ∨ GlobMatches dotCovers (globTokens pattern) capability.toList

theorem includes_star : includes pattern "*" = true ↔ '*' ∈ pattern.toList :=
  includesChars_iff.trans (List.singleton_infix_iff ..)

/-! ## Reading back the expression

The expression is made by replacing stars and nothing else, so other special characters keep their
meaning there. -/

/-- What one character of a pattern becomes. -/
def globText (c : Char) : List Char :=
  if c = '.' then ['\\', '.'] else if c = '*' then ['.', '*'] else [c]

/-- The characters of a pattern stand for themselves in the expression, `.` and `*` apart. -/
def standForThemselves : List Char → Bool
  | []      => true
  | c :: cs => (c == '.' || c == '*' || isPatternCharacter c cs) && standForThemselves cs

theorem globText_of_ne (hdot : c ≠ '.') (hstar : c ≠ '*') : globText c = [c] := by
  rw [globText, if_neg hdot, if_neg hstar]

/-- A test on the first character survives the translation if it fails on what `.` and `*` become.
-/
theorem head_globText {test : Char → Bool} (hdot : test '.' = false) (hstar : test '*' = false)
    (hslash : test '\\' = false) (hend : test '$' = false) (cs : List Char) :
    (cs.flatMap globText ++ ['$']).head?.any test = cs.head?.any test := by
  cases cs with
  | nil => exact hend
  | cons c cs =>
      by_cases hc : c = '.'
      · subst hc
        exact hslash.trans hdot.symm
      by_cases hc' : c = '*'
      · subst hc'
        exact hdot.trans hstar.symm
      rw [List.flatMap_cons, globText_of_ne hc hc']
      rfl

theorem afterDigits_globText (cs : List Char) :
    afterDigits (cs.flatMap globText ++ ['$']) = (afterDigits cs).flatMap globText ++ ['$'] := by
  induction cs with
  | nil => rfl
  | cons c cs ih =>
      by_cases hdot : c = '.'
      · subst hdot
        rfl
      by_cases hstar : c = '*'
      · subst hstar
        rfl
      rw [List.flatMap_cons, globText_of_ne hdot hstar]
      unfold afterDigits at ih ⊢
      cases hdigit : c.isDigit with
      | true => simpa [hdigit] using ih
      | false => simp [hdigit, globText_of_ne hdot hstar]

theorem closesQuantifier_eq (cs : List Char) :
    closesQuantifier cs = (cs.head?.any (· == '}') ||
      (cs.head?.any (· == ',') && (afterDigits cs.tail).head?.any (· == '}'))) := by
  have hhead : ∀ ds : List Char, (ds.head? == some '}') = ds.head?.any (· == '}') := by
    intro ds
    cases ds <;> rfl
  unfold closesQuantifier
  split
  · rfl
  · exact hhead _
  · rename_i hbrace hcomma
    cases cs with
    | nil => rfl
    | cons c cs =>
        have hc : c ≠ '}' := fun h => hbrace cs (by rw [h])
        have hc' : c ≠ ',' := fun h => hcomma cs (by rw [h])
        simp [hc, hc']

theorem opensQuantifier_globText (cs : List Char) :
    opensQuantifier (cs.flatMap globText ++ ['$']) = opensQuantifier cs := by
  have hbrace := fun ds => @head_globText (· == '}') rfl rfl rfl rfl ds
  have hcomma := fun ds => @head_globText (· == ',') rfl rfl rfl rfl ds
  have hdigit := fun ds => @head_globText Char.isDigit rfl rfl rfl rfl ds
  have htail : ∀ ds : List Char, ds.head?.any (· == ',') = true →
      (ds.flatMap globText ++ ['$']).tail = ds.tail.flatMap globText ++ ['$'] := by
    intro ds hds
    cases ds with
    | nil => cases hds
    | cons d ds =>
        obtain rfl : d = ',' := by simpa using hds
        rfl
  rw [opensQuantifier, opensQuantifier, hdigit, afterDigits_globText, closesQuantifier_eq,
    closesQuantifier_eq, hbrace, hcomma]
  cases hc : (afterDigits cs).head?.any (· == ',') with
  | false => rfl
  | true => rw [htail _ hc, afterDigits_globText, hbrace]

theorem isPatternCharacter_globText :
    isPatternCharacter c (cs.flatMap globText ++ ['$']) = isPatternCharacter c cs := by
  rw [isPatternCharacter, isPatternCharacter, opensQuantifier_globText]

/-- The glob is read back from the expression, where each of its other characters stands for itself
there. -/
theorem readBody_globText {literal : Char → List Char → Bool} (hdollar : ∀ cs, literal '$' cs = false)
    (hslash : ∀ cs, literal '\\' cs = false) (hdot : ∀ cs, literal '.' cs = false) {cs : List Char}
    (h : ∀ c ds, c :: ds <:+ cs → c = '.' ∨ c = '*' ∨
      literal c (ds.flatMap globText ++ ['$']) = true) :
    readBody literal (cs.flatMap globText ++ ['$']) =
      some (cs.map fun c => if c = '*' then .star else .letter c) := by
  induction cs with
  | nil => rfl
  | cons c cs ih =>
      have hcs := ih fun d ds hds => h d ds (hds.trans (List.suffix_cons c cs))
      rcases h c cs (List.suffix_refl _) with rfl | rfl | hc
      · simpa [globText, readBody] using hcs
      · simpa [globText, readBody] using hcs
      · have hdot' : c ≠ '.' := by
          rintro rfl
          rw [hdot] at hc
          cases hc
        by_cases hstar : c = '*'
        · subst hstar
          simpa [globText, readBody] using hcs
        rw [List.flatMap_cons, globText_of_ne hdot' hstar, List.singleton_append, List.cons_append,
          readBody_literal (hdollar _) (hslash _) (hdot _) hc, hcs]
        simp [hstar]

/-- The expression made from a pattern tests for the glob. -/
def ReadAsGlob (regExp : RegExpEngine) (pattern : String) : Prop :=
  pattern ≠ "*" → '*' ∈ pattern.toList →
    regExp (globPattern pattern) =
      .ok fun s => globMatch dotCovers (globTokens pattern) s.toList

theorem regExpWith_globPattern {literal : Char → List Char → Bool} (rest : RegExpEngine)
    (h : readBody literal (pattern.toList.flatMap globText ++ ['$']) = some (globTokens pattern)) :
    regExpWith literal rest (globPattern pattern) =
      .ok fun s => globMatch dotCovers (globTokens pattern) s.toList := by
  have htext : (globPattern pattern).toList =
      '^' :: (pattern.toList.flatMap globText ++ ['$']) := by
    simp only [globPattern, String.toList_append, String.toList_ofList]
    rfl
  have hglob : readGlob literal (globPattern pattern) = some (globTokens pattern) := by
    rw [readGlob, htext]
    exact h
  simp [regExpWith, hglob]

theorem PlainPattern.readAsGlob (rest : RegExpEngine) (h : PlainPattern pattern) :
    ReadAsGlob (regExp rest) pattern := by
  refine fun _ hstar => regExpWith_globPattern rest
    (readBody_globText (fun _ => rfl) (fun _ => rfl) (fun _ => rfl) fun c ds hsuffix => ?_)
  simpa [isPlainCharacter] using h hstar c (hsuffix.mem List.mem_cons_self)

/-- A pattern compiled to an expression has no character with a meaning of its own there. -/
def LiteralPattern (pattern : String) : Prop :=
  pattern ≠ "*" → '*' ∈ pattern.toList → standForThemselves pattern.toList = true

theorem standForThemselves_suffix {cs ds : List Char} (h : standForThemselves cs = true)
    (hsuffix : c :: ds <:+ cs) : c = '.' ∨ c = '*' ∨ isPatternCharacter c ds = true := by
  induction cs with
  | nil => cases List.suffix_nil.mp hsuffix
  | cons d cs ih =>
      obtain ⟨hd, hcs⟩ := Bool.and_eq_true_iff.mp h
      rcases List.suffix_cons_iff.mp hsuffix with heq | hsuffix
      · obtain ⟨rfl, rfl⟩ := List.cons.inj heq
        simpa [or_assoc] using hd
      · exact ih hcs hsuffix

theorem LiteralPattern.readAsGlob (rest : RegExpEngine) (h : LiteralPattern pattern) :
    ReadAsGlob (regExpB rest) pattern := by
  refine fun hall hstar => regExpWith_globPattern rest
    (readBody_globText (fun _ => rfl) (fun _ => rfl) (fun _ => rfl) fun c ds hsuffix => ?_)
  rw [isPatternCharacter_globText]
  exact standForThemselves_suffix (h hall hstar) hsuffix

/-! ## Compiled patterns -/

def PatternCompiles (regExp : RegExpEngine) (pattern : String) : Prop :=
  ∃ matcher, compileCapabilityMatcher regExp pattern = .ok matcher

def PatternAccepts (regExp : RegExpEngine) (pattern capability : String) : Prop :=
  ∃ matcher, compileCapabilityMatcher regExp pattern = .ok matcher ∧
    matcher.matchesCapability capability = true

theorem globTokens_of_not_mem (h : '*' ∉ pattern.toList) :
    globTokens pattern = pattern.toList.map .letter := by
  refine List.map_congr_left fun c hc => ?_
  have hstar : c ≠ '*' := by
    rintro rfl
    exact h hc
  simp [hstar]

/-- The matcher of a pattern whose expression tests for the glob. -/
theorem ReadAsGlob.compile {regExp : RegExpEngine} (h : ReadAsGlob regExp pattern) :
    ∃ matcher, compileCapabilityMatcher regExp pattern = .ok matcher ∧
      ∀ capability, matcher.matchesCapability capability = true ↔
        PatternTests pattern capability := by
  by_cases hall : pattern = "*"
  · exact ⟨.matchAll, by simp [compileCapabilityMatcher, hall],
      fun _ => by simp [CapabilityMatcher.matchesCapability, PatternTests, hall]⟩
  by_cases hstar : '*' ∈ pattern.toList
  · refine ⟨_, by
      rw [compileCapabilityMatcher, if_neg hall, includes_star.mpr hstar, h hall hstar]
      rfl, fun capability => ?_⟩
    simp [CapabilityMatcher.matchesCapability, PatternTests, hall, globMatch_iff]
  · have hincludes : includes pattern "*" = false :=
      Bool.eq_false_iff.mpr (mt includes_star.mp hstar)
    refine ⟨.exact pattern, by simp [compileCapabilityMatcher, hall, hincludes],
      fun capability => ?_⟩
    rw [PatternTests, globTokens_of_not_mem hstar, GlobMatches.letters_iff]
    simp [CapabilityMatcher.matchesCapability, hall, String.toList_inj]

theorem ReadAsGlob.compiles {regExp : RegExpEngine} (h : ReadAsGlob regExp pattern) :
    PatternCompiles regExp pattern := by
  obtain ⟨matcher, hmatcher, -⟩ := h.compile
  exact ⟨matcher, hmatcher⟩

theorem ReadAsGlob.accepts_iff {regExp : RegExpEngine} {pattern capability : String}
    (h : ReadAsGlob regExp pattern) :
    PatternAccepts regExp pattern capability ↔ PatternTests pattern capability := by
  obtain ⟨matcher, hmatcher, htests⟩ := h.compile
  rw [← htests]
  constructor
  · rintro ⟨matcher', hmatcher', haccepts⟩
    obtain rfl := Except.ok.inj (hmatcher.symm.trans hmatcher')
    exact haccepts
  · exact fun haccepts => ⟨matcher, hmatcher, haccepts⟩

theorem PatternTests.matches {pattern capability : String} (h : PatternTests pattern capability) :
    PatternMatches pattern capability := by
  rcases h with rfl | h
  · exact GlobMatches.star fun _ _ => rfl
  · exact h.mono fun _ _ => rfl

end MapProtocol
