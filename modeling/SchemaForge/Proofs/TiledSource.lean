import Mathlib.Data.List.DropRight
import Mathlib.Data.List.Forall2
import SchemaForge.Proofs.TokenPlaces

/-! The tokens of a source tile it. Each of them is read from a stretch of the text, and nothing but white space and
comments stands before, between and behind these stretches. The place of a token is the place of the first character of
its stretch, whatever the text before it is made of. -/
namespace SchemaForge

/-- Text that is passed over, given with the text behind it: white space, comments up to the end of their line, and
comments between marks. Only the end of the text may stand in for the closing mark. -/
inductive PassedOver : (gap behind : List Char) → Prop
  | nothing {behind : List Char} : PassedOver [] behind
  | blank {c : Char} {gap behind : List Char} :
      Text.isBlank c = true → PassedOver gap behind → PassedOver (c :: gap) behind
  | lineComment {body gap behind : List Char} :
      '\n' ∉ body → (∀ c ∈ (gap ++ behind).head?, c = '\n') → PassedOver gap behind →
        PassedOver ('/' :: '/' :: (body ++ gap)) behind
  | blockComment {body gap behind : List Char} :
      ¬ ['*', '/'] <:+: body ++ ['*'] → PassedOver gap behind →
        PassedOver ('/' :: '*' :: (body ++ '*' :: '/' :: gap)) behind
  | openComment {body : List Char} : ¬ ['*', '/'] <:+: body → PassedOver ('/' :: '*' :: body) []

/-- A stretch of a text, given by the offsets of its first character and of the first one behind it. -/
structure Stretch where
  start : Nat
  stop : Nat

namespace Stretch

def chars (text : List Char) (stretch : Stretch) : List Char :=
  (text.drop stretch.start).take (stretch.stop - stretch.start)

/-- What lies before, between and behind stretches, from one offset up to another. -/
def gaps (start stop : Nat) : List Stretch → List Stretch
  | [] => [⟨start, stop⟩]
  | stretch :: rest => ⟨start, stretch.start⟩ :: gaps stretch.stop stop rest

end Stretch

/-- The token is read from the stretch. Its place is that of the first character: lines count the line feeds before it,
columns the characters since the last of them. A word is spelled by its stretch and does not go on behind it. -/
structure Token.ReadFrom (text : List Char) (token : Token) (stretch : Stretch) : Prop where
  lexeme : ∃ c rest, text.drop stretch.start = c :: rest ∧
    Lexeme.read c rest = ⟨stretch.chars text, some token.kind⟩
  line : token.position.line = 1 + (text.take stretch.start).count '\n'
  column : token.position.column = 1 + ((text.take stretch.start).rtakeWhile (· ≠ '\n')).length
  word : ∀ name, token.kind = .word name →
    stretch.chars text = name.toList ∧ Lexeme.stopsWord (text.drop stretch.stop) = true

/-- From an offset on, the text consists of the stretches of the tokens, none of which is empty, and of gaps between
them that are passed over. That no gap ends before it starts says that the stretches stand in order and within the
text. -/
structure Tiling (text : List Char) (offset : Nat) (tokens : List Token) (stretches : List Stretch) : Prop where
  filled : ∀ stretch ∈ stretches, stretch.start < stretch.stop
  gaps : ∀ gap ∈ Stretch.gaps offset text.length stretches,
    gap.start ≤ gap.stop ∧ PassedOver (gap.chars text) (text.drop gap.stop)
  tokens : List.Forall₂ (Token.ReadFrom text) tokens stretches

/-- The column counts the characters since the last line feed. -/
theorem Position.column_afterAll (chars : List Char) :
    (start.afterAll chars).column = 1 + (chars.rtakeWhile (· ≠ '\n')).length := by
  induction chars using List.reverseRecOn with
  | nil => rfl
  | append_singleton chars c ih =>
      rw [afterAll_append, List.rtakeWhile_concat]
      change ((start.afterAll chars).after c).column = _
      by_cases hFeed : c = '\n'
      · simp [after, hFeed]
      · simp [after, hFeed, ih]
        omega

namespace Lexeme

variable {c : Char} {rest : List Char}

/-- A block comment ends with the first closing mark, or with the text. -/
theorem blockComment_cases (chars : List Char) :
    (∃ body behind, chars = body ++ '*' :: '/' :: behind ∧ blockComment chars = body ++ ['*', '/'] ∧
        ¬ ['*', '/'] <:+: body ++ ['*']) ∨
      blockComment chars = chars ∧ ¬ ['*', '/'] <:+: chars := by
  fun_induction blockComment chars with
  | case1 => exact .inr ⟨rfl, by simp⟩
  | case2 behind => exact .inl ⟨[], behind, rfl, rfl, by decide⟩
  | case3 c more hOpen ih =>
      have hFirst {later : List Char} (hLater : later <+: more) : ¬ ['*', '/'] <+: c :: later := by
        intro hMark
        obtain ⟨hStar, hSlash⟩ := List.cons_prefix_cons.mp hMark
        obtain ⟨after, hAfter⟩ := hSlash.trans hLater
        exact hOpen after hStar.symm hAfter.symm
      rcases ih with ⟨body, behind, rfl, hTaken, hBody⟩ | ⟨hTaken, hBody⟩
      · refine .inl ⟨c :: body, behind, rfl, by rw [hTaken, List.cons_append], fun hMark => ?_⟩
        rcases List.infix_cons_iff.mp hMark with hStart | hLater
        · exact hFirst (by simp) hStart
        · exact hBody hLater
      · refine .inr ⟨by rw [hTaken], fun hMark => ?_⟩
        rcases List.infix_cons_iff.mp hMark with hStart | hLater
        · exact hFirst List.prefix_rfl hStart
        · exact hBody hLater

/-- A comment up to the end of its line is passed over with what is passed over behind it. -/
theorem passedOver_lineComment {more gap behind : List Char}
    (hText : more = more.takeWhile (· ≠ '\n') ++ (gap ++ behind)) (hGap : PassedOver gap behind) :
    PassedOver ('/' :: '/' :: (more.takeWhile (· ≠ '\n') ++ gap)) behind := by
  have hBehind : gap ++ behind = more.dropWhile (· ≠ '\n') :=
    List.append_cancel_left (hText.symm.trans List.takeWhile_append_dropWhile.symm)
  refine .lineComment (fun hFeed => ?_) (fun d hHead => ?_) hGap
  · simpa using List.mem_takeWhile_imp hFeed
  · have hStop := List.head?_dropWhile_not (· ≠ '\n') more
    rw [← hBehind, hHead] at hStop
    simpa using hStop

/-- A comment between marks, which may lack its closing mark only at the end of the text. -/
theorem passedOver_blockComment {more gap behind : List Char} (hText : more = blockComment more ++ (gap ++ behind))
    (hGap : PassedOver gap behind) : PassedOver ('/' :: '*' :: (blockComment more ++ gap)) behind := by
  rcases blockComment_cases more with ⟨body, after, -, hTaken, hBody⟩ | ⟨hTaken, hBody⟩
  · rw [hTaken, List.append_assoc]
    exact .blockComment hBody hGap
  · rw [hTaken, List.self_eq_append_right, List.append_eq_nil_iff] at hText
    rw [hTaken, hText.1, hText.2, List.append_nil]
    exact .openComment hBody

theorem kind_ofNumeral_ne_none (chars : List Char) : (ofNumeral chars).kind ≠ none := by
  simp only [ofNumeral]
  split <;> simp

/-- Only blanks and comments are no tokens. -/
theorem kind_read_ne_none (hBlank : ¬ Text.isBlank c = true) (hSlash : c ≠ '/') : (read c rest).kind ≠ none := by
  rw [read, if_neg hBlank, if_neg hSlash]
  split_ifs
  · simp
  · simp
  · exact kind_ofNumeral_ne_none _
  · simp
  · unfold ofEquals
    split <;> simp [ofMark]
  · unfold ofDot
    split
    · simp [ofMark]
    · split
      · exact kind_ofNumeral_ne_none _
      · simp [ofMark]
  · split <;> simp [ofMark]

/-- A lexeme that is no token is passed over with what is passed over behind it. -/
theorem passedOver_read {gap behind : List Char} (hKind : (read c rest).kind = none)
    (hText : c :: rest = (read c rest).chars ++ (gap ++ behind)) (hGap : PassedOver gap behind) :
    PassedOver ((read c rest).chars ++ gap) behind := by
  by_cases hBlank : Text.isBlank c = true
  · rw [read, if_pos hBlank]
    exact .blank hBlank hGap
  by_cases hSlash : c = '/'
  · rw [read, if_neg hBlank, if_pos hSlash] at hKind hText ⊢
    unfold ofSlash at hKind hText ⊢
    split at hKind
    · exact passedOver_lineComment (List.cons.inj (List.cons.inj hText).2).2 hGap
    · exact passedOver_blockComment (List.cons.inj (List.cons.inj hText).2).2 hGap
    · cases hKind
  · exact absurd hKind (kind_read_ne_none hBlank hSlash)

/-- A word ends where no further character goes on with it. -/
theorem stopsWord_of_kind_word {taken behind : List Char} {name : String}
    (hKind : (read c (taken ++ behind)).kind = some (.word name))
    (hTaken : (read c (taken ++ behind)).chars = c :: taken) :
    c :: taken = name.toList ∧ stopsWord behind = true := by
  obtain ⟨-, hRead⟩ := read_of_kind_word hKind
  rw [hRead] at hKind hTaken
  cases hKind
  have hWord : (taken ++ behind).takeWhile continuesWord = taken := (List.cons.inj hTaken).2
  refine ⟨by rw [hWord, String.toList_ofList], ?_⟩
  have hBehind : (taken ++ behind).dropWhile continuesWord = behind := by
    have hSplit := List.takeWhile_append_dropWhile (p := continuesWord) (l := taken ++ behind)
    rw [hWord] at hSplit
    exact List.append_cancel_left hSplit
  cases behind with
  | nil => rfl
  | cons d more =>
      have hStop := List.head?_dropWhile_not continuesWord (taken ++ d :: more)
      rw [hBehind] at hStop
      simpa [stopsWord] using hStop

end Lexeme

namespace Tiling

variable {before taken behind : List Char} {tokens : List Token} {stretches : List Stretch} {c : Char}

/-- Offsets behind a piece of a text are offsets in what follows it. -/
theorem drop_append_piece {piece : List Char} {offset : Nat} (hOffset : (before ++ piece).length ≤ offset) :
    (before ++ piece ++ behind).drop offset = behind.drop (offset - (before ++ piece).length) := by
  rw [List.drop_append, List.drop_eq_nil_of_le hOffset, List.nil_append]

/-- A gap behind a lexeme that is no token can start with that lexeme. -/
theorem passedOver_from_lexeme {stop : Nat} (hTaken : (Lexeme.read c (taken ++ behind)).chars = c :: taken)
    (hKind : (Lexeme.read c (taken ++ behind)).kind = none)
    (hGap : (before ++ c :: taken).length ≤ stop ∧
      PassedOver (Stretch.chars (before ++ c :: taken ++ behind) ⟨(before ++ c :: taken).length, stop⟩)
        ((before ++ c :: taken ++ behind).drop stop)) :
    before.length ≤ stop ∧
      PassedOver (Stretch.chars (before ++ c :: taken ++ behind) ⟨before.length, stop⟩)
        ((before ++ c :: taken ++ behind).drop stop) := by
  obtain ⟨hStop, hPassed⟩ := hGap
  obtain ⟨length, rfl⟩ := Nat.exists_eq_add_of_le hStop
  have hLater : Stretch.chars (before ++ c :: taken ++ behind)
      ⟨(before ++ c :: taken).length, (before ++ c :: taken).length + length⟩ = behind.take length := by
    rw [Stretch.chars, drop_append_piece (Nat.le_refl _), Nat.sub_self, List.drop_zero, Nat.add_sub_cancel_left]
  have hWhole : Stretch.chars (before ++ c :: taken ++ behind)
      ⟨before.length, (before ++ c :: taken).length + length⟩ = c :: taken ++ behind.take length := by
    rw [Stretch.chars, List.append_assoc, List.drop_left, List.length_append, Nat.add_assoc, Nat.add_sub_cancel_left,
      List.take_length_add_append]
  rw [hLater, drop_append_piece hStop, Nat.add_sub_cancel_left] at hPassed
  rw [hWhole, drop_append_piece hStop, Nat.add_sub_cancel_left]
  refine ⟨by rw [List.length_append]; omega, ?_⟩
  rw [← hTaken]
  refine Lexeme.passedOver_read hKind ?_ hPassed
  rw [hTaken, List.take_append_drop, List.cons_append]

/-- Before a lexeme that is no token, the first gap starts with it. -/
theorem passOver (hTiling : Tiling (before ++ c :: taken ++ behind) (before ++ c :: taken).length tokens stretches)
    (hTaken : (Lexeme.read c (taken ++ behind)).chars = c :: taken)
    (hKind : (Lexeme.read c (taken ++ behind)).kind = none) :
    Tiling (before ++ c :: taken ++ behind) before.length tokens stretches where
  filled := hTiling.filled
  gaps := by
    have hGaps := hTiling.gaps
    cases stretches with
    | nil =>
        rw [Stretch.gaps, List.forall_mem_singleton] at hGaps ⊢
        exact passedOver_from_lexeme hTaken hKind hGaps
    | cons stretch rest =>
        rw [Stretch.gaps, List.forall_mem_cons] at hGaps ⊢
        exact ⟨passedOver_from_lexeme hTaken hKind hGaps.1, hGaps.2⟩
  tokens := hTiling.tokens

/-- Before a lexeme that is a token, its stretch comes first. -/
theorem addToken (hTiling : Tiling (before ++ c :: taken ++ behind) (before ++ c :: taken).length tokens stretches)
    (hTaken : (Lexeme.read c (taken ++ behind)).chars = c :: taken) {kind : TokenKind}
    (hKind : (Lexeme.read c (taken ++ behind)).kind = some kind) :
    Tiling (before ++ c :: taken ++ behind) before.length (⟨kind, Position.start.afterAll before⟩ :: tokens)
      (⟨before.length, (before ++ c :: taken).length⟩ :: stretches) where
  filled := by
    refine List.forall_mem_cons.mpr ⟨?_, hTiling.filled⟩
    simp
  gaps := by
    refine List.forall_mem_cons.mpr ⟨⟨Nat.le_refl _, ?_⟩, hTiling.gaps⟩
    rw [Stretch.chars, Nat.sub_self, List.take_zero]
    exact .nothing
  tokens := by
    have hChars : Stretch.chars (before ++ c :: taken ++ behind) ⟨before.length, (before ++ c :: taken).length⟩ =
        c :: taken := by
      simp [Stretch.chars]
    have hBefore : (before ++ c :: taken ++ behind).take before.length = before := by simp
    have hBehind : (before ++ c :: taken ++ behind).drop (before ++ c :: taken).length = behind := List.drop_left
    refine .cons ⟨⟨c, taken ++ behind, by simp, ?_⟩, ?_, ?_, fun name hName => ?_⟩ hTiling.tokens
    · rw [hChars, ← hTaken, ← hKind]
    · rw [hBefore]
      exact Position.line_afterAll _ _
    · rw [hBefore]
      exact Position.column_afterAll _
    · obtain rfl : kind = .word name := hName
      rw [hChars, hBehind]
      exact Lexeme.stopsWord_of_kind_word hKind hTaken

end Tiling

/-- What follows a piece of a text is tiled by its tokens, at the places behind that piece. The induction is on the
length of what follows. -/
theorem Lexeme.exists_tiling (before rest : List Char) : ∃ stretches,
    Tiling (before ++ rest) before.length (tokens (Position.start.afterAll before) (readAll rest)) stretches := by
  induction hLength : rest.length using Nat.strong_induction_on generalizing before rest with
  | _ length ih =>
      cases rest with
      | nil =>
          refine ⟨[], ⟨by simp, ?_, .nil⟩⟩
          rw [Stretch.gaps, List.forall_mem_singleton, List.append_nil, Stretch.chars, Nat.sub_self, List.take_zero]
          exact ⟨Nat.le_refl _, .nothing⟩
      | cons c rest =>
          obtain ⟨taken, hTaken, behind, rfl⟩ := read_takes c rest
          have hShorter : behind.length < length := by
            rw [List.length_cons, List.length_append] at hLength
            omega
          obtain ⟨stretches, hTiling⟩ := ih _ hShorter (before ++ c :: taken) behind rfl
          have hRest : readAll (c :: (taken ++ behind)) = read c (taken ++ behind) :: readAll behind := by
            rw [readAll_cons, hTaken, List.length_cons, Nat.add_sub_cancel, List.drop_left]
          rw [hRest, ← List.cons_append, ← List.append_assoc]
          rw [Position.afterAll_append] at hTiling
          simp only [tokens, hTaken]
          cases hKind : (read c (taken ++ behind)).kind with
          | none => exact ⟨stretches, hTiling.passOver hTaken hKind⟩
          | some kind => exact ⟨_, hTiling.addToken hTaken hKind⟩

/-- Every source is tiled by the stretches of its tokens and by gaps that are passed over. -/
theorem tokenize_tiles (source : String) : ∃ stretches, Tiling source.toList 0 (tokenize source) stretches :=
  Lexeme.exists_tiling [] source.toList

end SchemaForge
