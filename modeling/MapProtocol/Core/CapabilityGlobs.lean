import MapProtocol.Core.Semantics

/-!
# Capability globs

How exact the expression made from a capability pattern is. Only `.` is escaped, so every other
character with a meaning in an expression keeps it, and a `*` becomes `.*`, which no line terminator
is part of.
-/

namespace MapProtocol

open Js

/-! ## When the matcher is exact -/

/-- The pattern compiles, and the matcher accepts the capability if the pattern stands for it. -/
def MatchesExactly (regExp : RegExpEngine) (pattern capability : String) : Prop :=
  ∃ matcher, compileCapabilityMatcher regExp pattern = .ok matcher ∧
    (matcher.matchesCapability capability = true ↔ PatternMatches pattern capability)

/-- No star of a pattern compiled to an expression has to cover a line terminator. -/
def StarsStayOnLines (pattern capability : String) : Prop :=
  pattern ≠ "*" → '*' ∈ pattern.toList → PatternMatches pattern capability →
    GlobMatches dotCovers (globTokens pattern) capability.toList

/-- The fast path for `*` is exact. -/
theorem matchesExactly_star {regExp : RegExpEngine} {capability : String} :
    MatchesExactly regExp "*" capability := by
  refine ⟨.matchAll, rfl, ?_⟩
  have hmatches : PatternMatches "*" capability := GlobMatches.star fun _ _ => rfl
  exact iff_of_true rfl hmatches

theorem matchesExactly_of_not_mem {regExp : RegExpEngine} {pattern capability : String}
    (h : '*' ∉ pattern.toList) : MatchesExactly regExp pattern capability := by
  have hall : pattern ≠ "*" := by
    rintro rfl
    exact h (by decide)
  have hincludes : includes pattern "*" = false :=
    Bool.eq_false_iff.mpr (mt includes_star.mp h)
  refine ⟨.exact pattern, by simp [compileCapabilityMatcher, hall, hincludes], ?_⟩
  rw [PatternMatches, globTokens_of_not_mem h, GlobMatches.letters_iff]
  simp [CapabilityMatcher.matchesCapability, String.toList_inj]

/-- The expression of a literal pattern tests for the glob, with stars that stay on a line. -/
theorem matchesExactly_expression {rest : RegExpEngine} {pattern capability : String}
    (hall : pattern ≠ "*") (hstar : '*' ∈ pattern.toList)
    (hliteral : standForThemselves pattern.toList = true) :
    MatchesExactly (regExpB rest) pattern capability ↔
      (PatternMatches pattern capability →
        GlobMatches dotCovers (globTokens pattern) capability.toList) := by
  have hcompiled : compileCapabilityMatcher (regExpB rest) pattern =
      .ok (.regex fun s => globMatch dotCovers (globTokens pattern) s.toList) := by
    rw [compileCapabilityMatcher, if_neg hall, includes_star.mpr hstar,
      LiteralPattern.readAsGlob rest (fun _ _ => hliteral) hall hstar]
    rfl
  constructor
  · rintro ⟨matcher, hmatcher, hiff⟩ hmatches
    obtain rfl := Except.ok.inj (hcompiled.symm.trans hmatcher)
    exact globMatch_iff.mp (hiff.mpr hmatches)
  · intro hlines
    refine ⟨_, hcompiled, fun htest => ?_, fun hmatches => globMatch_iff.mpr (hlines hmatches)⟩
    exact (globMatch_iff.mp htest).mono fun _ _ => rfl

/-- **A literal pattern is matched exactly** where its stars need cover no line terminator, and only
there. -/
theorem compileCapabilityMatcher_exact (rest : RegExpEngine) (pattern capability : String)
    (hliteral : LiteralPattern pattern) :
    MatchesExactly (regExpB rest) pattern capability ↔ StarsStayOnLines pattern capability := by
  by_cases hall : pattern = "*"
  · subst hall
    exact iff_of_true matchesExactly_star fun h => absurd rfl h
  by_cases hstar : '*' ∈ pattern.toList
  · rw [matchesExactly_expression hall hstar (hliteral hall hstar)]
    exact ⟨fun h _ _ => h, fun h => h hall hstar⟩
  · exact iff_of_true (matchesExactly_of_not_mem hstar) fun _ h => absurd h hstar

theorem restart_exact :
    MatchesExactly (regExpB fun _ => .error "") "ops.\x7bx\x7d*" "ops.\x7bx\x7d.restart" ↔
      StarsStayOnLines "ops.\x7bx\x7d*" "ops.\x7bx\x7d.restart" :=
  compileCapabilityMatcher_exact (fun _ => .error "") _ _ fun _ _ => by decide

/-- A star does not cover a line terminator, and a `+` or `(` is read as an expression reads it. -/
theorem glob_not_exact :
    (∀ rest, ¬ MatchesExactly (regExpB rest) "ops.*" "ops.a\nb") ∧
    (∀ (regExp : RegExpEngine) (test : String → Bool), regExp "^c+.*$" = .ok test →
      test "cc" = true → ¬ MatchesExactly regExp "c+*" "cc") ∧
    (∀ (regExp : RegExpEngine) (message : String), regExp "^(.*$" = .error message →
      ∀ capability, ¬ MatchesExactly regExp "(*" capability) := by
  refine ⟨fun rest h => ?_, ?_, ?_⟩
  · have hlines := (matchesExactly_expression (by decide) (by decide) (by decide)).mp h
    have hmatches : PatternMatches "ops.*" "ops.a\nb" := globMatch_iff.mp (by decide)
    exact absurd (globMatch_iff.mpr (hlines hmatches)) (by decide)
  · rintro regExp test htext haccepts ⟨matcher, hmatcher, hiff⟩
    have hcompiled : compileCapabilityMatcher regExp "c+*" = .ok (.regex test) := by
      show (regExp "^c+.*$").map CapabilityMatcher.regex = _
      rw [htext]
      rfl
    obtain rfl := Except.ok.inj (hcompiled.symm.trans hmatcher)
    exact absurd (globMatch_iff.mpr (hiff.mp haccepts)) (by decide)
  · rintro regExp message htext capability ⟨matcher, hmatcher, -⟩
    have hcompiled : compileCapabilityMatcher regExp "(*" = .error message := by
      show (regExp "^(.*$").map CapabilityMatcher.regex = _
      rw [htext]
      rfl
    cases hcompiled.symm.trans hmatcher

end MapProtocol
