import Mathlib.Data.List.Forall2
import SchemaForge.Proofs.DeclarationReading
import SchemaForge.Proofs.GrammarAlike

/-! Scanning as a run of steps. A step passes over a token at which no declaration starts, or over a whole
declaration. A source is scanned without a refusal exactly if a run leads to its end, and a run over tokens is one
over all tokens that are alike. -/
namespace SchemaForge

/-- The same declaration, at a place that corresponds. -/
def Declaration.AlikeAt (places : Position → Position → Prop) (first second : Declaration) : Prop :=
  second.content = first.content ∧ places first.position second.position

/-- Declarations at places that correspond have the same contents. -/
theorem Declaration.map_content_eq {places : Position → Position → Prop} {found found' : List Declaration}
    (hAlike : List.Forall₂ (Declaration.AlikeAt places) found found') :
    found'.map Declaration.content = found.map Declaration.content := by
  induction hAlike with
  | nil => rfl
  | cons hFirst _ ih => rw [List.map_cons, List.map_cons, hFirst.1, ih]

namespace Grammar

open Reader

/-- Scanning leads from tokens at a depth to later ones at another depth and finds the declarations on the way. -/
inductive Scans (final : Position) : Nat → List Token → List Declaration → Nat → List Token → Prop where
  | here (depth : Nat) (tokens : List Token) : Scans final depth tokens [] depth tokens
  | pass {depth later : Nat} {token : Token} {rest left : List Token} {found : List Declaration}
      (hNone : depth = 0 → heading? (token :: rest) = none)
      (further : Scans final (bracketDepth depth token.kind) rest found later left) :
      Scans final depth (token :: rest) found later left
  | find {later : Nat} {token : Token} {rest following behind left : List Token} {heading : Heading}
      {first : Declaration} {found : List Declaration} {warnings : List Warning}
      (hHeading : heading? (token :: rest) = some (heading, following))
      (hFirst : declaration token.position heading final following = .done first behind warnings)
      (further : Scans final 0 behind found later left) :
      Scans final 0 (token :: rest) (first :: found) later left

variable {final : Position} {depth later : Nat} {token : Token} {tokens rest left : List Token}
  {found : List Declaration}

theorem skipWord_suffix (word : String) (tokens : List Token) : skipWord word tokens <:+ tokens := by
  unfold skipWord
  split
  · exact List.tail_suffix tokens
  · exact List.suffix_rfl

/-- A heading takes at least the first token. -/
theorem heading?_suffix {heading : Heading} {following : List Token}
    (hHeading : heading? (token :: rest) = some (heading, following)) : following <:+ rest := by
  rw [heading?_eq] at hHeading
  obtain ⟨first, second, next, behind, hWords, -, rfl, -⟩ := namedHeading?_eq_some_iff.mp hHeading
  have hSuffix := (skipWord_suffix "declare" _).trans (skipWord_suffix "export" (token :: rest))
  rw [hWords] at hSuffix
  rcases List.suffix_cons_iff.mp hSuffix with hAll | hRest
  · cases hAll
    exact List.suffix_cons _ _
  · exact ((List.suffix_cons _ _).trans (List.suffix_cons _ _)).trans hRest

/-- Behind a declaration there is an end of what follows its first token. -/
theorem behind_suffix {heading : Heading} {following behind : List Token} {position : Position} {first : Declaration}
    {warnings : List Warning} (hHeading : heading? (token :: rest) = some (heading, following))
    (hFirst : declaration position heading final following = .done first behind warnings) : behind <:+ rest :=
  ((advances_declaration position heading).of_done hFirst).trans (heading?_suffix hHeading)

/-- A token at which no declaration starts, or which stands in brackets, is passed over. -/
theorem scanFrom_pass (hNone : depth = 0 → heading? (token :: rest) = none) :
    scanFrom final 0 depth (token :: rest) = scanFrom final 0 (bracketDepth depth token.kind) rest := by
  have hPassed : (if depth = 0 then heading? (token :: rest) else none) = none := by
    split
    case isTrue hDepth => exact hNone hDepth
    case isFalse => rfl
  rw [scanFrom, hPassed]

/-- Behind a declaration that is found, scanning starts anew outside all brackets. -/
theorem scanFrom_find {heading : Heading} {following behind : List Token} {first : Declaration}
    {warnings : List Warning} (hHeading : heading? (token :: rest) = some (heading, following))
    (hFirst : declaration token.position heading final following = .done first behind warnings) :
    scanFrom final 0 0 (token :: rest) = (scanFrom final 0 0 behind).after first warnings := by
  obtain ⟨taken, rfl⟩ := behind_suffix hHeading hFirst
  exact scanFrom_of_declaration hHeading hFirst

theorem Scans.length_le (hScans : Scans final depth tokens found later left) : left.length ≤ tokens.length := by
  induction hScans with
  | here depth tokens => exact Nat.le_refl _
  | pass hNone further ih => exact Nat.le_succ_of_le ih
  | find hHeading hFirst further ih =>
      exact Nat.le_succ_of_le (ih.trans (behind_suffix hHeading hFirst).length_le)

/-- The outcome of scanning is that from the later tokens on, with what was found on the way in front. -/
theorem Scans.outcome_eq (hScans : Scans final depth tokens found later left) :
    (scanFrom final 0 depth tokens).outcome = (scanFrom final 0 later left).outcome.map (found ++ ·) := by
  induction hScans with
  | here depth tokens => cases (scanFrom final 0 depth tokens).outcome <;> rfl
  | pass hNone further ih => rw [scanFrom_pass hNone, ih]
  | @find later token rest following behind left heading first found warnings hHeading hFirst further ih =>
      rw [scanFrom_find hHeading hFirst, Scan.after, ih]
      cases (scanFrom final 0 later left).outcome <;> rfl

/-- A declaration that starts with the first token is refused. -/
def RefusedAt (final : Position) (tokens : List Token) (error : SyntaxError) : Prop :=
  ∃ token rest heading following warnings, tokens = token :: rest ∧
    heading? (token :: rest) = some (heading, following) ∧
    declaration token.position heading final following = .refused error warnings

theorem RefusedAt.outcome_eq {error : SyntaxError} (hRefused : RefusedAt final tokens error) :
    (scanFrom final 0 0 tokens).outcome = .error error := by
  obtain ⟨token, rest, heading, following, warnings, rfl, hHeading, hRead⟩ := hRefused
  simp [scanFrom, hHeading, hRead]

/-- Scanning leads to the end of the tokens or to a declaration that is refused. The induction is on the number of
tokens, since a declaration takes several of them. -/
theorem exists_scans (final : Position) (depth : Nat) (tokens : List Token) :
    ∃ found later left, Scans final depth tokens found later left ∧
      (left = [] ∨ later = 0 ∧ ∃ error, RefusedAt final left error) := by
  induction hLength : tokens.length using Nat.strongRecOn generalizing depth tokens with
  | ind length ih =>
      rcases tokens with _ | ⟨token, rest⟩
      · exact ⟨[], depth, [], .here depth [], .inl rfl⟩
      rw [List.length_cons] at hLength
      by_cases hNone : depth = 0 → heading? (token :: rest) = none
      · obtain ⟨found, later, left, hScans, hEnd⟩ := ih rest.length (by omega) _ rest rfl
        exact ⟨found, later, left, .pass hNone hScans, hEnd⟩
      · obtain ⟨rfl, hSome⟩ : depth = 0 ∧ heading? (token :: rest) ≠ none := by simpa using hNone
        obtain ⟨⟨heading, following⟩, hHeading⟩ := Option.ne_none_iff_exists'.mp hSome
        cases hFirst : declaration token.position heading final following with
        | refused error warnings =>
            exact ⟨[], 0, token :: rest, .here 0 _, .inr ⟨rfl, error, token, rest, heading, following, warnings, rfl,
              hHeading, hFirst⟩⟩
        | done first behind warnings =>
            have hShorter := (behind_suffix hHeading hFirst).length_le
            obtain ⟨found, later, left, hScans, hEnd⟩ := ih behind.length (by omega) 0 behind rfl
            exact ⟨first :: found, later, left, .find hHeading hFirst hScans, hEnd⟩

/-- A source that is not refused is scanned to its end. -/
theorem exists_scans_of_outcome (hFound : (scanFrom final 0 depth tokens).outcome = .ok found) :
    ∃ later, Scans final depth tokens found later [] := by
  obtain ⟨others, later, left, hScans, rfl | ⟨rfl, error, hRefused⟩⟩ := exists_scans final depth tokens
  · have hOthers := hScans.outcome_eq.symm.trans hFound
    obtain rfl : others = found := by simpa [scanFrom, Except.map] using hOthers
    exact ⟨later, hScans⟩
  · rw [hScans.outcome_eq, hRefused.outcome_eq] at hFound
    cases hFound

section Alike

variable {fork : Fork} {final' : Position} {tokens' : List Token}

/-- The type parameters are passed over in both lists, and then the definitions follow each other. -/
theorem follows_definition (hFinal : fork.places final final') (hAlike : fork.Alike tokens tokens')
    (heading : Heading) :
    fork.Follows (definition heading (startsParameters tokens) final (skipParameters tokens))
      (definition heading (startsParameters tokens') final' (skipParameters tokens')) := by
  rw [startsParameters_eq hAlike]
  rcases alike_skipParameters hAlike with hPassed | hRest
  · exact .of_passed (advances_definition heading _) hPassed _
  · exact (tracks_definition heading _).follows final final' _ _ hFinal hRest (Nat.lt_succ_self _)
      (Nat.lt_succ_self _)

/-- A declaration is read alike from what is alike behind its heading. -/
theorem exists_declaration_of_follows {position position' : Position} {heading : Heading} {first : Declaration}
    {behind : List Token} {warnings : List Warning} (hPosition : fork.places position position')
    (hFollows : fork.Follows (definition heading (startsParameters tokens) final (skipParameters tokens))
      (definition heading (startsParameters tokens') final' (skipParameters tokens')))
    (hFirst : declaration position heading final tokens = .done first behind warnings)
    (hLeft : fork.tail.length ≤ behind.length) :
    ∃ first' behind' warnings', declaration position' heading final' tokens' = .done first' behind' warnings' ∧
      Declaration.AlikeAt fork.places first first' ∧ fork.Alike behind behind' := by
  rw [declaration_apply, bind_pure_eq_done_iff] at hFirst
  obtain ⟨contents, hRead, rfl⟩ := hFirst
  rw [hRead] at hFollows
  rcases hFollows with hPassed | ⟨behind', warnings', hRead', hBehind⟩
  · exact absurd hPassed (Nat.not_lt.mpr hLeft)
  · refine ⟨⟨heading.name, heading.exported, contents, position'⟩, behind', warnings', ?_, ⟨rfl, hPosition⟩, hBehind⟩
    rw [declaration_apply, bind_pure_eq_done_iff]
    exact ⟨contents, hRead', rfl⟩

/-- A run that stays before the fork is one over tokens that are alike. -/
theorem Scans.follow (hScans : Scans final depth tokens found later left) (hFinal : fork.places final final')
    (hAlike : fork.Alike tokens tokens') (hLeft : fork.tail.length ≤ left.length) :
    ∃ found' left', Scans final' depth tokens' found' later left' ∧
      List.Forall₂ (Declaration.AlikeAt fork.places) found found' ∧ fork.Alike left left' := by
  induction hScans generalizing tokens' with
  | here depth tokens => exact ⟨[], tokens', .here depth tokens', .nil, hAlike⟩
  | @pass depth later token rest left found hNone further ih =>
      obtain ⟨place', rest', rfl, -, hRest⟩ := hAlike.uncons_of_length_le (hLeft.trans further.length_le)
      obtain ⟨found', left', hFurther, hFound, hAlikeLeft⟩ := ih hRest hLeft
      exact ⟨found', left', .pass (fun hDepth => heading?_eq_none_of_alike hAlike (hNone hDepth)) hFurther, hFound,
        hAlikeLeft⟩
  | @find later token rest following behind left heading first found warnings hHeading hFirst further ih =>
      have hBehind := (behind_suffix hHeading hFirst).length_le
      have hLonger := hLeft.trans further.length_le
      obtain ⟨place', rest', rfl, hPlace, -⟩ := hAlike.uncons_of_length_le (hLonger.trans hBehind)
      obtain ⟨following', hHeading', hFollowing⟩ := alike_heading? hAlike hHeading
      obtain ⟨first', behind', warnings', hFirst', hSame, hAlikeBehind⟩ :=
        exists_declaration_of_follows hPlace (follows_definition hFinal hFollowing heading) hFirst hLonger
      obtain ⟨found', left', hFurther, hFound, hAlikeLeft⟩ := ih hAlikeBehind hLeft
      exact ⟨first' :: found', left', .find hHeading' hFirst' hFurther, .cons hSame hFound, hAlikeLeft⟩

/-- A declaration that is refused in the first list is refused for the same reason in the second one if the lists are
alike to their end. -/
theorem RefusedAt.follow {error : SyntaxError} (hRefused : RefusedAt final tokens error)
    (hFinal : fork.places final final') (hAlike : fork.Alike tokens tokens') (hEnd : fork.tail = []) :
    ∃ error', RefusedAt final' tokens' error' ∧ error'.problem = error.problem ∧
      fork.places error.position error'.position := by
  obtain ⟨token, rest, heading, following, warnings, rfl, hHeading, hRead⟩ := hRefused
  obtain ⟨place', rest', rfl, -, -⟩ := hAlike.uncons_of_length_le (by rw [hEnd]; exact Nat.zero_le _)
  obtain ⟨following', hHeading', hFollowing⟩ := alike_heading? hAlike hHeading
  have hFollows := follows_definition hFinal hFollowing heading
  rw [declaration_apply, bind_pure_eq_refused_iff] at hRead
  rw [hRead] at hFollows
  rcases hFollows with hFork | ⟨error', warnings', hRead', hSame⟩
  · exact absurd hEnd hFork
  · refine ⟨error', ⟨_, rest', heading, following', warnings', rfl, hHeading', ?_⟩, hSame⟩
    rw [declaration_apply, bind_pure_eq_refused_iff]
    exact hRead'

end Alike

end Grammar

end SchemaForge
