import Mathlib.Data.List.Infix
import SchemaForge.Proofs.LexedPieces

/-! Places of tokens. The lexemes of a text put together give the text back, so the place of a token is determined
by the text before it. A text that stands lines further down has the same tokens, as many lines further down. -/
namespace SchemaForge

namespace Position

/-- The place in the same column of a line further down. -/
def below (lines : Nat) (position : Position) : Position :=
  ⟨position.line + lines, position.column⟩

/-- Going on by a character and going down some lines can be exchanged. -/
theorem after_below (lines : Nat) (position : Position) (c : Char) :
    (position.below lines).after c = (position.after c).below lines := by
  unfold after
  split
  · simp only [below, Position.mk.injEq, and_true]
    omega
  · rfl

theorem afterAll_below (lines : Nat) (position : Position) (chars : List Char) :
    (position.below lines).afterAll chars = (position.afterAll chars).below lines := by
  induction chars generalizing position with
  | nil => rfl
  | cons c chars ih =>
      change ((position.below lines).after c).afterAll chars = ((position.after c).afterAll chars).below lines
      rw [after_below, ih]

/-- The place behind two texts is that behind the second one, counted from the first. -/
theorem afterAll_append (position : Position) (first second : List Char) :
    position.afterAll (first ++ second) = (position.afterAll first).afterAll second :=
  List.foldl_append

theorem line_afterAll (position : Position) (chars : List Char) :
    (position.afterAll chars).line = position.line + chars.count '\n' := by
  induction chars generalizing position with
  | nil => rfl
  | cons c chars ih =>
      change ((position.after c).afterAll chars).line = position.line + (c :: chars).count '\n'
      rw [ih]
      by_cases hFeed : c = '\n'
      · rw [after, if_pos hFeed, hFeed, List.count_cons_self]
        exact Nat.add_right_comm position.line 1 _
      · rw [after, if_neg hFeed, List.count_cons_of_ne hFeed]

/-- Behind a text and a line feed the lines of the next text start. -/
theorem afterAll_line (chars : List Char) :
    start.afterAll (chars ++ ['\n']) = start.below (1 + chars.count '\n') := by
  rw [afterAll_append]
  change (⟨(start.afterAll chars).line + 1, 1⟩ : Position) = ⟨1 + (1 + chars.count '\n'), 1⟩
  rw [line_afterAll]
  simp only [start, Position.mk.injEq, and_true]
  omega

end Position

def Token.below (lines : Nat) (token : Token) : Token :=
  ⟨token.kind, token.position.below lines⟩

namespace Lexeme

/-- A comment is the start of the text it is read from. -/
theorem blockComment_prefix (chars : List Char) : blockComment chars <+: chars := by
  fun_induction blockComment chars with
  | case1 => exact List.prefix_rfl
  | case2 more => simp
  | case3 c more hOpen ih => exact List.cons_prefix_cons.mpr ⟨rfl, ih⟩

theorem template_prefix (chars : List Char) : template chars <+: chars := by
  fun_induction template chars with
  | case1 => exact List.prefix_rfl
  | case2 c more ih => simpa using ih
  | case3 more hEscape => simp
  | case4 c more hEscape hOpen ih => exact List.cons_prefix_cons.mpr ⟨rfl, ih⟩

/-- A quoted text is the start of the text it is read from, escapes included. -/
theorem quoted_prefix (quote : Char) (chars : List Char) : (quoted quote chars).2 <+: chars := by
  fun_induction quoted quote chars with
  | case1 => exact List.prefix_rfl
  | case2 more => exact List.nil_prefix
  | case3 => exact List.prefix_rfl
  | case4 c more value taken hRead ih =>
      rw [hRead] at ih
      simpa using ih
  | case5 more hLine hLast hEscape => simp
  | case6 c more hLine hLast hEscape hQuote value taken hRead ih =>
      rw [hRead] at ih
      exact List.cons_prefix_cons.mpr ⟨rfl, ih⟩

theorem numeral_prefix (pointSeen started : Bool) (chars : List Char) :
    (numeral pointSeen started chars).2 <+: chars := by
  fun_induction numeral pointSeen started chars with
  | case1 => exact List.prefix_rfl
  | case2 pointSeen started c more hDigit text taken hRead ih => simpa [hRead] using ih
  | case3 pointSeen started c more hDigit hAfter text taken hRead ih => simpa [hRead] using ih
  | case4 pointSeen started c more hDigit hAfter hLow text taken hRead ih => simpa [hRead] using ih
  | case5 => exact List.prefix_rfl
  | case6 pointSeen started c hDigit hLow hExponent sign more hSign text taken hRead hAfter ih =>
      simpa [hRead] using ih
  | case7 pointSeen started c hDigit hLow hExponent next more hSign text taken hRead hAfter ih =>
      simpa [hRead] using ih
  | case8 pointSeen started c more hDigit hAfter hLow hExponent => exact List.nil_prefix

/-- A number that starts with a character takes that character. -/
theorem ofNumeral_takes {c : Char} {rest : List Char}
    (hStart : c.isDigit = true ∨ c = '.' ∧ startsWithDigit rest = true) :
    ∃ taken, (ofNumeral (c :: rest)).chars = c :: taken ∧ taken <+: rest := by
  have hPrefix := numeral_prefix false false (c :: rest)
  rw [chars_ofNumeral]
  obtain ⟨taken, hTaken⟩ : ∃ taken, (numeral false false (c :: rest)).2 = c :: taken := by
    rcases hStart with hDigit | ⟨rfl, hDigit⟩
    · refine ⟨(numeral false true rest).2, ?_⟩
      rw [numeral.eq_def]
      simp only [if_pos hDigit]
    · refine ⟨(numeral true true rest).2, ?_⟩
      rw [numeral.eq_def]
      simp [hDigit]
  rw [hTaken] at hPrefix ⊢
  exact ⟨taken, rfl, (List.cons_prefix_cons.mp hPrefix).2⟩

/-- A lexeme consists of its first character and the start of what follows. -/
theorem read_takes (c : Char) (rest : List Char) : ∃ taken, (read c rest).chars = c :: taken ∧ taken <+: rest := by
  have hReads := reads_read c
  generalize read c = reading at hReads ⊢
  cases hReads with
  | alone hOther => exact ⟨[], rfl, List.nil_prefix⟩
  | slash hSlash =>
      subst hSlash
      fun_cases ofSlash rest with
      | case1 more => exact ⟨_, rfl, List.cons_prefix_cons.mpr ⟨rfl, List.takeWhile_prefix _⟩⟩
      | case2 more => exact ⟨_, rfl, List.cons_prefix_cons.mpr ⟨rfl, blockComment_prefix more⟩⟩
      | case3 hLine hBlock => exact ⟨[], rfl, List.nil_prefix⟩
  | quote => exact ⟨_, rfl, quoted_prefix c rest⟩
  | template => exact ⟨_, rfl, template_prefix rest⟩
  | digit hDigit => exact ofNumeral_takes (.inl hDigit)
  | word hStart => exact ⟨_, rfl, List.takeWhile_prefix _⟩
  | equals hEquals =>
      subst hEquals
      fun_cases ofEquals rest with
      | case1 more => exact ⟨['>'], rfl, by simp⟩
      | case2 hArrow => exact ⟨[], rfl, List.nil_prefix⟩
  | dot hDot =>
      subst hDot
      fun_cases ofDot rest with
      | case1 more => exact ⟨['.', '.'], rfl, by simp⟩
      | case2 _ hOther hDigit => exact ofNumeral_takes (.inr ⟨rfl, hDigit⟩)
      | case3 _ hOther hDigit => exact ⟨[], rfl, List.nil_prefix⟩

/-- The lexemes of a text put together give the text back. -/
theorem flatMap_chars_readAll (text : List Char) : (readAll text).flatMap chars = text := by
  induction hLength : text.length using Nat.strong_induction_on generalizing text with
  | _ length ih =>
      cases text with
      | nil => rfl
      | cons c rest =>
          obtain ⟨taken, hTaken, behind, rfl⟩ := read_takes c rest
          have hShorter : behind.length < length := by
            rw [List.length_cons, List.length_append] at hLength
            omega
          rw [readAll_cons, hTaken, List.length_cons, Nat.add_sub_cancel, List.drop_left, List.flatMap_cons, hTaken,
            ih _ hShorter behind rfl, List.cons_append]

/-- The places of later tokens are counted from the end of the earlier text. -/
theorem tokens_append (position : Position) (first second : List Lexeme) :
    tokens position (first ++ second) =
      tokens position first ++ tokens (position.afterAll (first.flatMap chars)) second := by
  induction first generalizing position with
  | nil => rfl
  | cons lexeme first ih =>
      rw [List.flatMap_cons, Position.afterAll_append]
      cases hKind : lexeme.kind with
      | none => simp only [List.cons_append, tokens, hKind, ih]
      | some kind => simp only [List.cons_append, tokens, hKind, ih]

/-- Tokens of a text further down stand further down. The induction is over the lexemes. -/
theorem tokens_below (lines : Nat) (position : Position) (lexemes : List Lexeme) :
    tokens (position.below lines) lexemes = (tokens position lexemes).map (Token.below lines) := by
  induction lexemes generalizing position with
  | nil => rfl
  | cons lexeme rest ih =>
      cases hKind : lexeme.kind with
      | none => simp only [tokens, hKind, Position.afterAll_below, ih]
      | some kind => simp only [tokens, hKind, Position.afterAll_below, ih, List.map_cons, Token.below]

end Lexeme

/-- Behind a text that ends apart, a line feed starts the lines of another text. Its tokens are those that it has
alone, below the lines of the first text. -/
theorem tokenize_lines {first : String} (hApart : Lexeme.endsApart first.toList = true) (second : String) :
    tokenize (first ++ "\n" ++ second) =
      tokenize first ++ (tokenize second).map (Token.below (1 + first.toList.count '\n')) := by
  have hFeed : Lexeme.readAll ('\n' :: second.toList) = ⟨['\n'], none⟩ :: Lexeme.readAll second.toList :=
    Lexeme.readAll_cons '\n' second.toList
  have hChars : (first ++ "\n" ++ second).toList = first.toList ++ '\n' :: second.toList := by
    simp [String.toList_append]
  rw [tokenize, hChars, Lexeme.readAll_append hApart, hFeed, Lexeme.tokens_append, Lexeme.flatMap_chars_readAll]
  simp only [Lexeme.tokens]
  rw [← Position.afterAll_append, Position.afterAll_line, Lexeme.tokens_below]
  rfl

end SchemaForge
