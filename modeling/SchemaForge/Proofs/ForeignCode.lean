import SchemaForge.Compilation
import SchemaForge.Proofs.ScanSteps
import SchemaForge.Proofs.TokenPlaces

/-! Code that declares nothing may stand before a source. If it is closed, that is, it ends with a semicolon or a
closing brace outside all brackets, the source is scanned as if it stood alone, only some lines further down: the
same declarations are found, or the source is refused for the same reason. -/
namespace SchemaForge

def Declaration.below (lines : Nat) (declaration : Declaration) : Declaration :=
  { declaration with position := declaration.position.below lines }

def SyntaxError.below (lines : Nat) (error : SyntaxError) : SyntaxError :=
  ⟨error.position.below lines, error.problem⟩

def CompileError.below (lines : Nat) : CompileError → CompileError
  | .malformed origin error => .malformed origin (error.below lines)
  | .sourceUnreadable path cause => .sourceUnreadable path cause
  | .nothingExported origin => .nothingExported origin

namespace Grammar

open Reader

def depthAfter (depth : Nat) (tokens : List Token) : Nat :=
  tokens.foldl (fun depth token => bracketDepth depth token.kind) depth

/-- No declaration starts among the tokens where no bracket is open. -/
def declaresNothing (depth : Nat) : List Token → Bool
  | [] => true
  | token :: rest =>
      (depth != 0 || (heading? (token :: rest)).isNone) && declaresNothing (bracketDepth depth token.kind) rest

/-- The last character of the text is a semicolon or a closing brace that is a token. -/
def EndsStatement (text : String) : Prop :=
  (Lexeme.readAll text.toList).getLast? = some (.ofMark [';'] .semicolon) ∨
    (Lexeme.readAll text.toList).getLast? = some (.ofMark ['\x7d'] .closeBrace)

/-- The text is code in which nothing is declared, and it is closed. -/
structure Foreign (text : String) : Prop where
  ends : EndsStatement text
  closed : depthAfter 0 (tokenize text) = 0
  nothing : declaresNothing 0 (tokenize text) = true

/-- A semicolon or a brace is a token by itself, whatever follows it. -/
theorem EndsStatement.endsApart {text : String} (hEnds : EndsStatement text) :
    Lexeme.endsApart text.toList = true := by
  unfold Lexeme.endsApart
  rcases hEnds with hLast | hLast
  · rw [hLast]
    rfl
  · rw [hLast]
    rfl

section Foreign

variable {tokens further : List Token} {final : Position} {depth : Nat}

def EndsWithMark (tokens : List Token) : Prop :=
  ∃ before mark place, tokens = before ++ [⟨.mark mark, place⟩]

/-- The last token stays the last when one is taken off the front. -/
theorem EndsWithMark.of_cons {token : Token} (hEnds : EndsWithMark (token :: tokens)) (hRest : tokens ≠ []) :
    EndsWithMark tokens := by
  obtain ⟨before, mark, place, hTokens⟩ := hEnds
  cases before with
  | nil => exact absurd (List.cons.inj hTokens).2 hRest
  | cons first before => exact ⟨before, mark, place, (List.cons.inj hTokens).2⟩

theorem EndsWithMark.ne_nil (hEnds : EndsWithMark tokens) : tokens ≠ [] := by
  obtain ⟨before, mark, place, rfl⟩ := hEnds
  simp

/-- A first token that is a word is not the last one. -/
theorem EndsWithMark.of_word {name : String} {place : Position} (hEnds : EndsWithMark (⟨.word name, place⟩ :: tokens)) :
    EndsWithMark tokens := by
  apply hEnds.of_cons
  rintro rfl
  obtain ⟨before, mark, place, hTokens⟩ := hEnds
  cases before <;> simp at hTokens

/-- Code that ends a statement ends with a mark, so no heading goes beyond it. -/
theorem EndsStatement.endsWithMark {text : String} (hEnds : EndsStatement text) : EndsWithMark (tokenize text) := by
  have hLast {chars : List Char} {mark : Mark}
      (hLexeme : (Lexeme.readAll text.toList).getLast? = some (.ofMark chars mark)) : EndsWithMark (tokenize text) := by
    obtain ⟨before, hBefore⟩ := List.getLast?_eq_some_iff.mp hLexeme
    rw [tokenize, hBefore, Lexeme.tokens_append]
    exact ⟨_, mark, _, rfl⟩
  exact hEnds.elim hLast hLast

/-- Whether tokens start with a word does not depend on what follows them. -/
theorem startsWithWord_append (word : String) (hTokens : tokens ≠ []) (further : List Token) :
    startsWithWord word (tokens ++ further) = startsWithWord word tokens := by
  cases tokens with
  | nil => exact absurd rfl hTokens
  | cons token tokens => rfl

/-- Passing over a word does not reach the end of tokens whose last is a mark. -/
theorem EndsWithMark.skipWord (hEnds : EndsWithMark tokens) (word : String) (further : List Token) :
    skipWord word (tokens ++ further) = skipWord word tokens ++ further ∧ EndsWithMark (skipWord word tokens) := by
  rw [Grammar.skipWord, Grammar.skipWord, startsWithWord_append word hEnds.ne_nil]
  split
  case isTrue hStarts =>
    rcases tokens with _ | ⟨⟨kind, place⟩, rest⟩
    · cases hStarts
    · obtain rfl : kind = .word word := by simpa [startsWithWord] using hStarts
      exact ⟨rfl, hEnds.of_word⟩
  case isFalse => exact ⟨rfl, hEnds⟩

/-- The heading of a declaration consists of words and the mark behind them, so it does not extend beyond another
mark. -/
theorem EndsWithMark.heading?_append (hEnds : EndsWithMark tokens) (hNone : heading? tokens = none)
    (further : List Token) : heading? (tokens ++ further) = none := by
  obtain ⟨hExport, hBehind⟩ := hEnds.skipWord "export" further
  obtain ⟨hDeclare, hLeft⟩ := hBehind.skipWord "declare" further
  rw [heading?_eq] at hNone ⊢
  rw [hExport, hDeclare, startsWithWord_append "export" hEnds.ne_nil]
  generalize Grammar.skipWord "declare" (Grammar.skipWord "export" tokens) = words at hNone hLeft
  rw [Option.eq_none_iff_forall_ne_some]
  rintro ⟨heading, following⟩ hHeading
  obtain ⟨first, second, next, rest, hWords, hNext, -, hExported⟩ := namedHeading?_eq_some_iff.mp hHeading
  rcases words with _ | ⟨⟨kind, place⟩, words⟩
  · exact hLeft.ne_nil rfl
  cases (List.cons.inj hWords).1
  have hNamed := hLeft.of_word
  rcases words with _ | ⟨⟨kind, place⟩, words⟩
  · exact hNamed.ne_nil rfl
  cases (List.cons.inj (List.cons.inj hWords).2).1
  rcases words with _ | ⟨token, words⟩
  · exact hNamed.of_word.ne_nil rfl
  cases (List.cons.inj (List.cons.inj (List.cons.inj hWords).2).2).1
  have hSome := namedHeading?_eq_some_iff.mpr ⟨first, second, next, words, rfl, hNext, rfl, hExported⟩
  rw [hNone] at hSome
  cases hSome

/-- Tokens among which nothing is declared are passed over. -/
theorem scans_of_declaresNothing (final : Position) (hEnds : tokens ≠ [] → EndsWithMark tokens)
    (hNothing : declaresNothing depth tokens = true) (further : List Token) :
    Scans final depth (tokens ++ further) [] (depthAfter depth tokens) further := by
  induction tokens generalizing depth with
  | nil => exact .here depth further
  | cons token tokens ih =>
      have hMark := hEnds (List.cons_ne_nil token tokens)
      obtain ⟨hHere, hRest⟩ := Bool.and_eq_true_iff.mp hNothing
      refine .pass (fun hDepth => ?_) (ih hMark.of_cons hRest)
      have hNone : heading? (token :: tokens) = none := by simpa [hDepth] using hHere
      exact hMark.heading?_append hNone further

end Foreign

section Below

variable {lines : Nat} {tokens : List Token} {final : Position}

/-- Tokens are compared with the same tokens some lines further down, up to their end. -/
def linesBelow (lines : Nat) : Fork where
  places place place' := place' = place.below lines
  tail := []
  tail' := []
  starts := .nil

/-- The same tokens further down are alike. The induction is over the tokens. -/
theorem alike_below (lines : Nat) (tokens : List Token) :
    (linesBelow lines).Alike tokens (tokens.map (Token.below lines)) := by
  induction tokens with
  | nil => exact .fork
  | cons token tokens ih =>
      refine .cons rfl ?_ ih
      intro hKind
      have hKinds : (tokens.map (Token.below lines)).map Token.kind = tokens.map Token.kind := by
        rw [List.map_map]
        rfl
      have hBehind : startsFunction 1 (tokens.map (Token.below lines) ++ []) = startsFunction 1 (tokens ++ []) :=
        startsFunction_append_congr hKinds rfl (fun _ => rfl) 0
      rw [List.append_nil, List.append_nil] at hBehind
      exact (startsFunction_open hKind 0 _).trans (hBehind.trans (startsFunction_open hKind 0 _).symm)

/-- Declarations that are alike in this comparison differ by their lines only. -/
theorem eq_below_of_alikeAt {first second : Declaration}
    (hAlike : Declaration.AlikeAt (linesBelow lines).places first second) : second = first.below lines := by
  obtain ⟨hContent, hPlace⟩ := hAlike
  obtain ⟨name, exported, body, place⟩ := first
  obtain ⟨name', exported', body', place'⟩ := second
  obtain ⟨rfl, rfl, rfl⟩ : name' = name ∧ exported' = exported ∧ body' = body := by
    simpa [Declaration.content] using hContent
  obtain rfl : place' = place.below lines := hPlace
  rfl

theorem eq_map_below {found found' : List Declaration}
    (hAlike : List.Forall₂ (Declaration.AlikeAt (linesBelow lines).places) found found') :
    found' = found.map (Declaration.below lines) := by
  induction hAlike with
  | nil => rfl
  | cons hFirst _ ih => rw [List.map_cons, ← eq_below_of_alikeAt hFirst, ← ih]

def outcomeBelow (lines : Nat) (outcome : Except SyntaxError (List Declaration)) :
    Except SyntaxError (List Declaration) :=
  (outcome.map (List.map (Declaration.below lines))).mapError (SyntaxError.below lines)

/-- Tokens some lines further down are scanned with the same outcome, some lines further down. -/
theorem outcome_scanFrom_below (lines : Nat) (final : Position) (depth : Nat) (tokens : List Token) :
    (scanFrom (final.below lines) 0 depth (tokens.map (Token.below lines))).outcome =
      outcomeBelow lines (scanFrom final 0 depth tokens).outcome := by
  obtain ⟨found, later, left, hScans, hEnd⟩ := exists_scans final depth tokens
  have hFinal : (linesBelow lines).places final (final.below lines) := rfl
  obtain ⟨found', left', hScans', hFound, hLeft⟩ :=
    hScans.follow hFinal (alike_below lines tokens) (Nat.zero_le _)
  rw [hScans.outcome_eq, hScans'.outcome_eq, eq_map_below hFound]
  rcases hEnd with rfl | ⟨rfl, error, hRefused⟩
  · rw [hLeft.eq_nil]
    simp [scanFrom, outcomeBelow, Except.map, Except.mapError]
  · obtain ⟨⟨place', problem'⟩, hRefused', hProblem, hPlace⟩ := hRefused.follow hFinal hLeft rfl
    obtain rfl : problem' = error.problem := hProblem
    obtain rfl : place' = error.position.below lines := hPlace
    rw [hRefused.outcome_eq, hRefused'.outcome_eq]
    rfl

/-- The last token is the last of the source, which stands further down. -/
theorem finalPosition_append_below (lines : Nat) (first : List Token) (hTokens : tokens ≠ []) :
    finalPosition (first ++ tokens.map (Token.below lines)) = (finalPosition tokens).below lines := by
  obtain ⟨before, last, rfl⟩ := List.eq_nil_or_concat tokens |>.resolve_left hTokens
  simp [finalPosition, Token.below]

end Below

/-- Foreign code before a source moves the source down by its lines, and does nothing else. -/
theorem outcome_scan_foreign {foreign : String} (hForeign : Foreign foreign) (source : String) :
    (scan (foreign ++ "\n" ++ source)).outcome =
      outcomeBelow (1 + foreign.toList.count '\n') (scan source).outcome := by
  have hEnds := hForeign.ends.endsWithMark
  rw [scan, scanTokens, tokenize_lines hForeign.ends.endsApart, scan, scanTokens]
  have hPassed (final : Position) (further : List Token) :
      (scanFrom final 0 0 (tokenize foreign ++ further)).outcome = (scanFrom final 0 0 further).outcome := by
    have hScans := scans_of_declaresNothing final (fun _ => hEnds) hForeign.nothing further
    rw [hScans.outcome_eq, hForeign.closed]
    cases (scanFrom final 0 0 further).outcome <;> rfl
  rw [hPassed]
  -- The place of the last token is reported where the tokens end. It is that of the source unless there is no token
  -- in it, and then no place is reported.
  by_cases hTokens : tokenize source = []
  · rw [hTokens]
    rfl
  · rw [finalPosition_append_below _ _ hTokens, outcome_scanFrom_below]

end Grammar

namespace Compilation

open Grammar

/-- Whatever source follows a line of foreign code has the declarations that it has alone, or is refused as it is
alone, below the lines of that code. Columns and what is said about the source do not change. -/
theorem declarationsOf_behind_foreign {foreign : String} (hForeign : Foreign foreign) (origin source : String) :
    declarationsOf origin (foreign ++ "\n" ++ source) =
      ((declarationsOf origin source).map (List.map (Declaration.below (1 + foreign.toList.count '\n')))).mapError
        (CompileError.below (1 + foreign.toList.count '\n')) := by
  rw [declarationsOf, outcome_scan_foreign hForeign, declarationsOf, outcomeBelow]
  cases (scan source).outcome with
  | ok found => rfl
  | error error => rfl

/-- Code with brackets in texts and comments, and with a declaration inside a block. -/
def foreignSample : String :=
  "const close = '\x7d'; // (\nfunction hide(a) \x7b type A = string; \x7d"

def brokenSample : String :=
  "type A = string;\n  type B = |"

/-- The error is reported as many lines further down as there are lines of foreign code. -/
theorem declarationsOf_behind_foreign_broken :
    Foreign foreignSample ∧
      declarationsOf "types.ts" brokenSample =
        .error (.malformed "types.ts" ⟨⟨2, 12⟩, .unexpected .type none⟩) ∧
      declarationsOf "types.ts" (foreignSample ++ "\n" ++ brokenSample) =
        .error (.malformed "types.ts" ⟨⟨4, 12⟩, .unexpected .type none⟩) := by
  have hForeign : Foreign foreignSample := {
    ends := by
      refine .inr ?_
      rw [show foreignSample.toList = _ from String.toList_ofList]
      rfl
    closed := by
      rw [show tokenize foreignSample = _ from tokenize_ofList _]
      decide +kernel
    nothing := by
      rw [show tokenize foreignSample = _ from tokenize_ofList _]
      decide +kernel }
  have hBroken : declarationsOf "types.ts" brokenSample =
      .error (.malformed "types.ts" ⟨⟨2, 12⟩, .unexpected .type none⟩) := by
    rw [declarationsOf, scan, show tokenize brokenSample = _ from tokenize_ofList _]
    rfl
  refine ⟨hForeign, hBroken, ?_⟩
  rw [declarationsOf_behind_foreign hForeign, hBroken, show foreignSample.toList = _ from String.toList_ofList]
  rfl

end Compilation

end SchemaForge
