import SchemaForge.Proofs.ReadingAlike

/-! The grammar reads alike what is alike: every reader of it follows itself across a fork. -/
namespace SchemaForge.Grammar

open Reader

variable {fork : Fork} {bound bound' : Nat} {tokens tokens' : List Token}

/-- Passing over a member stops at the same token in both lists, or goes beyond the fork. -/
theorem alike_skipMember (hAlike : fork.Alike tokens tokens') :
    fork.Passed (skipMember 0 tokens) ∨ fork.Alike (skipMember 0 tokens) (skipMember 0 tokens') := by
  rw [skipMember_eq_skipTokens, skipMember_eq_skipTokens]
  exact hAlike.skipTokens _ _

/-- Passing over a group counts the same brackets in both lists up to the fork. -/
theorem alike_skipGroup (hAlike : fork.Alike tokens tokens') (opening closing : Mark) :
    fork.Passed (skipGroup opening closing 0 tokens) ∨
      fork.Alike (skipGroup opening closing 0 tokens) (skipGroup opening closing 0 tokens') := by
  rw [skipGroup_eq_skipTokens, skipGroup_eq_skipTokens]
  exact hAlike.skipTokens _ _

/-- Passing over type arguments counts the same brackets in both lists up to the fork. -/
theorem alike_skipArguments (hAlike : fork.Alike tokens tokens') :
    fork.Passed (skipArguments 0 tokens) ∨ fork.Alike (skipArguments 0 tokens) (skipArguments 0 tokens') := by
  rw [skipArguments_eq_skipTokens, skipArguments_eq_skipTokens]
  exact hAlike.skipTokens _ _

theorem alike_skipSeparators (hAlike : fork.Alike tokens tokens') :
    fork.Passed (skipSeparators tokens) ∨ fork.Alike (skipSeparators tokens) (skipSeparators tokens') := by
  rw [skipSeparators_eq_skipTokens, skipSeparators_eq_skipTokens]
  exact hAlike.skipTokens _ _

/-- No mark of a fork is part of an array suffix, so suffixes end before the fork in both lists. -/
theorem alike_arraySuffixes (hAlike : fork.Alike tokens tokens') (term : TypeTerm) :
    (arraySuffixes term tokens').1 = (arraySuffixes term tokens).1 ∧
      fork.Alike (arraySuffixes term tokens).2 (arraySuffixes term tokens').2 := by
  fun_induction arraySuffixes term tokens generalizing tokens' with
  | case1 term opening closing rest ih =>
      obtain ⟨opening', rest', rfl, hBehind⟩ := hAlike.uncons_of_kind (by decide)
      obtain ⟨closing', rest', rfl, hRest⟩ := hBehind.uncons_of_kind (by decide)
      exact ih hRest
  | case2 term tokens hOther =>
      have hOther' : arraySuffixes term tokens' = (term, tokens') := by
        unfold arraySuffixes
        split
        · obtain ⟨opening, rest, rfl, hRest⟩ := hAlike.swap.uncons_of_kind (by decide)
          obtain ⟨closing, rest, rfl, -⟩ := hRest.uncons_of_kind (by decide)
          exact (hOther _ _ _ rfl).elim
        · rfl
      rw [hOther']
      exact ⟨rfl, hAlike⟩

/-- A name ends before the fork, as neither a dot nor a word starts one. -/
theorem alike_dottedParts (hAlike : fork.Alike tokens tokens') (name : String) :
    (dottedParts name tokens').1 = (dottedParts name tokens).1 ∧
      fork.Alike (dottedParts name tokens).2 (dottedParts name tokens').2 := by
  fun_induction dottedParts name tokens generalizing tokens' with
  | case1 name dot part place rest ih =>
      obtain ⟨dot', rest', rfl, hBehind⟩ := hAlike.uncons_of_kind (by decide)
      obtain ⟨place', rest', rfl, hRest⟩ := hBehind.uncons_of_kind (by simp)
      exact ih hRest
  | case2 name tokens hOther =>
      have hOther' : dottedParts name tokens' = (name, tokens') := by
        unfold dottedParts
        split
        · obtain ⟨dot, rest, rfl, hRest⟩ := hAlike.swap.uncons_of_kind (by decide)
          obtain ⟨place, rest, rfl, -⟩ := hRest.uncons_of_kind (by simp)
          exact (hOther _ _ _ _ rfl).elim
        · rfl
      rw [hOther']
      exact ⟨rfl, hAlike⟩

/-- The words and marks of a label cannot stand at a fork. -/
theorem alike_skipLabel (hAlike : fork.Alike tokens tokens') : fork.Alike (skipLabel tokens) (skipLabel tokens') := by
  have hWord (name : String) : ∀ mark ∈ forkMarks, TokenKind.word name ≠ .mark mark := by simp
  fun_cases skipLabel tokens with
  | case1 name place colon rest =>
      obtain ⟨place', rest', rfl, hBehind⟩ := hAlike.uncons_of_kind (hWord name)
      obtain ⟨colon', rest', rfl, hRest⟩ := hBehind.uncons_of_kind (by decide)
      exact hRest
  | case2 name place question colon rest =>
      obtain ⟨place', rest', rfl, hBehind⟩ := hAlike.uncons_of_kind (hWord name)
      obtain ⟨question', rest', rfl, hColon⟩ := hBehind.uncons_of_kind (by decide)
      obtain ⟨colon', rest', rfl, hRest⟩ := hColon.uncons_of_kind (by decide)
      exact hRest
  | case3 tokens hColon hQuestion =>
      have hOther : skipLabel tokens' = tokens' := by
        unfold skipLabel
        split
        · obtain ⟨place, rest, rfl, hBehind⟩ := hAlike.swap.uncons_of_kind (hWord _)
          obtain ⟨colon, rest, rfl, -⟩ := hBehind.uncons_of_kind (by decide)
          exact (hColon _ _ _ _ rfl).elim
        · obtain ⟨place, rest, rfl, hBehind⟩ := hAlike.swap.uncons_of_kind (hWord _)
          obtain ⟨question, rest, rfl, hFurther⟩ := hBehind.uncons_of_kind (by decide)
          obtain ⟨colon, rest, rfl, -⟩ := hFurther.uncons_of_kind (by decide)
          exact (hQuestion _ _ _ _ _ rfl).elim
        · rfl
      rw [hOther]
      exact hAlike

/-- Whether a type can start here depends on the kind of the next token only. -/
theorem startsType_eq (hAlike : fork.Alike tokens tokens') : startsType tokens' = startsType tokens := by
  rw [startsType, startsType, hAlike.head?_kind]

section Types

theorem tracks_suffixed (term : TypeTerm) : fork.Tracks bound bound' (suffixed term) (suffixed term) := by
  refine .remaining_bind (advances_suffixed term) (advances_suffixed term) ?_
  intro final final' tokens tokens' hFinal hAlike hLength hLength'
  obtain ⟨hTerm, hRest⟩ := alike_arraySuffixes hAlike term
  have hValue : fork.Tracks bound bound' (pure (arraySuffixes term tokens).1) (pure (arraySuffixes term tokens').1) := by
    rw [hTerm]
    exact .pure _
  exact .continueAt_bind hValue (.inr hRest) hFinal
    (Nat.lt_of_le_of_lt (arraySuffixes_suffix term tokens).length_le hLength)
    (Nat.lt_of_le_of_lt (arraySuffixes_suffix term tokens').length_le hLength')

variable {operand operand' : Reader TypeTerm} (hOperand : fork.Tracks bound bound' operand operand')

include hOperand

/-- The operands behind an ampersand are followed one by one. -/
theorem tracks_intersectionTail (first : TypeTerm) :
    fork.Tracks bound bound' (intersectionTail operand first) (intersectionTail operand' first) := by
  refine .remaining_bind (advances_intersectionTail hOperand.advances first)
    (advances_intersectionTail hOperand.advances' first) ?_
  intro final final' tokens tokens' hFinal hAlike hLength hLength'
  have hFurther : fork.Tracks (tokens.length + 1) (tokens'.length + 1) (eachAfter .ampersand operand tokens.length)
      (eachAfter .ampersand operand' tokens'.length) := .eachAfter (hOperand.mono hLength hLength')
  refine (hFurther.bind fun further => ?_).follows final final' tokens tokens' hFinal hAlike (Nat.lt_succ_self _)
    (Nat.lt_succ_self _)
  exact (Fork.Tracks.pure _).ite (.place_bind fun _ _ => (Fork.Tracks.warn _ _).bind fun _ => .pure _)

theorem tracks_intersection : fork.Tracks bound bound' (intersection operand) (intersection operand') :=
  hOperand.bind (tracks_intersectionTail hOperand)

/-- The members behind a bar are followed one by one. -/
theorem tracks_unionTail (first : TypeTerm) :
    fork.Tracks bound bound' (unionTail operand first) (unionTail operand' first) := by
  refine .remaining_bind (advances_unionTail hOperand.advances first)
    (advances_unionTail hOperand.advances' first) ?_
  intro final final' tokens tokens' hFinal hAlike hLength hLength'
  have hFurther : fork.Tracks (tokens.length + 1) (tokens'.length + 1)
      (eachAfter .pipe (intersection operand) tokens.length) (eachAfter .pipe (intersection operand') tokens'.length) :=
    .eachAfter ((tracks_intersection hOperand).mono hLength hLength')
  exact (hFurther.bind fun further => (Fork.Tracks.pure _).ite (.pure _)).follows final final' tokens tokens' hFinal
    hAlike (Nat.lt_succ_self _) (Nat.lt_succ_self _)

/-- Both lists have a leading bar or neither has. -/
theorem tracks_wholeType : fork.Tracks bound bound' (wholeType operand) (wholeType operand') :=
  (Fork.Tracks.accept .pipe).bind fun _ => (tracks_intersection hOperand).bind (tracks_unionTail hOperand)

/-- The name is the same in both lists; then arguments are read, passed over or absent in both. -/
theorem tracks_referenceTo (first : String) :
    fork.Tracks bound bound' (referenceTo operand first) (referenceTo operand' first) := by
  refine .remaining_bind (advances_referenceTo hOperand.advances first)
    (advances_referenceTo hOperand.advances' first) ?_
  intro final final' tokens tokens' hFinal hAlike hLength hLength'
  obtain ⟨hName, hRest⟩ := alike_dottedParts hAlike first
  have hDegrade (name : String) : fork.Tracks bound bound'
      (do continueAt (skipArguments 0 (← remaining)); warn (.genericArguments name); return TypeTerm.unknown)
      (do continueAt (skipArguments 0 (← remaining)); warn (.genericArguments name); return TypeTerm.unknown) :=
    .skip_bind (skipArguments_suffix 0) (fun _ _ => alike_skipArguments)
      ((Fork.Tracks.warn _ _).bind fun _ => .pure _)
  refine .continueAt_bind ?_ (.inr hRest) hFinal
    (Nat.lt_of_le_of_lt (dottedParts_suffix first tokens).length_le hLength)
    (Nat.lt_of_le_of_lt (dottedParts_suffix first tokens').length_le hLength')
  rw [hName, hRest.head?_kind]
  split
  · refine Fork.Tracks.ite ?_ (hDegrade _)
    exact (Fork.Tracks.accept .less).bind fun _ => (tracks_wholeType hOperand).bind fun _ =>
      (Fork.Tracks.accept .greater).bind fun _ => (Fork.Tracks.pure _).ite (hDegrade _)
  · exact .pure _

/-- There is one case for each use of a word. Whether an operand follows is the same in both lists, as it depends on
the kind of the next token. -/
theorem tracks_namedType (word : String) :
    fork.Tracks bound bound' (namedType operand word) (namedType operand' word) where
  advances := advances_namedType hOperand.advances word
  advances' := advances_namedType hOperand.advances' word
  follows final final' tokens tokens' hFinal hAlike hLength hLength' := by
    have hWarned (warning : Warning) : fork.Tracks bound bound' (do warn warning; return TypeTerm.unknown)
        (do warn warning; return TypeTerm.unknown) := (Fork.Tracks.warn warning warning).bind fun _ => .pure _
    obtain ⟨use, hUse, hNamed⟩ := exists_wordUse word (startsType tokens)
    rw [hNamed operand final tokens rfl, hNamed operand' final' tokens' (startsType_eq hAlike)]
    have hSame : fork.Tracks bound bound' (use operand) (use operand') := by
      cases hUse with
      | keyword hWord => exact .pure _
      | unknown hWord => exact .pure _
      | unsupported hWord => exact hWarned _
      | modifier hWord hNext => exact hOperand
      | operator hWord hNext => exact hOperand.bind fun _ => hWarned _
      | reference hWord hNext => exact tracks_referenceTo hOperand word
    exact hSame.follows final final' tokens tokens' hFinal hAlike hLength hLength'

omit hOperand in
theorem tracks_addElement (elements : List TypeTerm) (rest : Option TypeTerm) (spread : Bool) (element : TypeTerm) :
    fork.Tracks bound bound' (addElement elements rest spread element) (addElement elements rest spread element) := by
  unfold addElement
  cases rest <;> cases spread
  · exact .pure _
  · exact .pure _
  · exact (Fork.Tracks.warn _ _).bind fun _ => .pure _
  · exact (Fork.Tracks.warn _ _).bind fun _ => .pure _

/-- Each further element stands behind a comma, so the numbers of tokens bound those of the elements. -/
theorem tracks_tupleElements (elements : List TypeTerm) (rest : Option TypeTerm) :
    fork.Tracks bound bound' (tupleElements operand bound elements rest)
      (tupleElements operand' bound' elements rest) := by
  induction bound generalizing bound' elements rest with
  | zero => exact .of_eq_zero (.refuseNext _) (advances_tupleElements hOperand.advances' _ _ _) (.inl rfl)
  | succ bound ih =>
      cases bound' with
      | zero => exact .of_eq_zero (advances_tupleElements hOperand.advances _ _ _) (.refuseNext _) (.inr rfl)
      | succ bound' =>
          have hFewer := hOperand.mono (Nat.le_succ _) (Nat.le_succ _)
          refine .if_accepted (.pure _) ((Fork.Tracks.accept _).bind fun spread => ?_)
          refine .skip_bind skipLabel_suffix (fun _ _ hAlike => .inr (alike_skipLabel hAlike)) ?_
          refine (tracks_wholeType hOperand).bind fun element => (Fork.Tracks.accept _).bind fun _ => ?_
          refine (tracks_addElement _ _ _ _).bind fun added => ?_
          exact .if_accepted (ih hFewer _ _) ((Fork.Tracks.expectAs _ _).bind fun _ => .pure _)

variable {final final' place place' : Position} {rest rest' : List Token}

/-- The number of elements that may be read differs, but is large enough in both lists. -/
theorem follows_tupleType (hFinal : fork.places final final') (hRest : fork.Alike rest rest')
    (hLength : rest.length < bound) (hLength' : rest'.length < bound') :
    fork.Follows (tupleType operand final (⟨.mark .openBracket, place⟩ :: rest))
      (tupleType operand' final' (⟨.mark .openBracket, place'⟩ :: rest')) := by
  rw [tupleType, tupleType, expect_bind_mark, expect_bind_mark, remaining_bind, remaining_bind]
  exact (tracks_tupleElements (hOperand.mono hLength hLength') [] none).follows final final' rest rest'
    hFinal hRest (Nat.lt_succ_self _) (Nat.lt_succ_self _)

/-- Whether a function type starts is the same for both lists, though it may be seen only behind the fork. -/
theorem follows_parenthesized (hFinal : fork.places final final')
    (hAlike : fork.Alike (⟨.mark .openParen, place⟩ :: rest) (⟨.mark .openParen, place'⟩ :: rest'))
    (hRest : fork.Alike rest rest') (hLength : rest.length < bound) (hLength' : rest'.length < bound') :
    fork.Follows (parenthesized operand final (⟨.mark .openParen, place⟩ :: rest))
      (parenthesized operand' final' (⟨.mark .openParen, place'⟩ :: rest')) := by
  have hWhole := tracks_wholeType hOperand
  rw [parenthesized, parenthesized, remaining_bind, remaining_bind, hAlike.startsFunction_eq rfl]
  split
  · refine .continueAt_bind ?_ (alike_skipGroup hAlike _ _) hFinal
      (Nat.lt_of_le_of_lt (length_skipGroup_le _ _ _ _) hLength)
      (Nat.lt_of_le_of_lt (length_skipGroup_le _ _ _ _) hLength')
    exact (Fork.Tracks.expect _).bind fun _ => hWhole.bind fun _ =>
      .place_bind fun _ _ => (Fork.Tracks.warn _ _).bind fun _ => .pure _
  · rw [expect_bind_mark, expect_bind_mark]
    exact (hWhole.bind fun _ => (Fork.Tracks.expect _).bind fun _ => .pure _).follows final final' rest rest'
      hFinal hRest hLength hLength'

/-- The nested operands start at a later token. -/
theorem tracks_primaryType : fork.Tracks (bound + 1) (bound' + 1) (primaryType operand) (primaryType operand') := by
  refine .remaining_bind (advances_primaryType hOperand.advances) (advances_primaryType hOperand.advances') ?_
  intro final final' tokens tokens' hFinal hAlike hLength hLength'
  rcases tokens with _ | ⟨⟨kind, place⟩, rest⟩
  · obtain rfl := hAlike.eq_nil
    exact (Fork.Tracks.refuseNext _).follows final final' [] [] hFinal hAlike hLength hLength'
  obtain ⟨place', rest', rfl, hRest⟩ := hAlike.uncons
  have hBehind : rest.length < bound := Nat.lt_of_succ_lt_succ hLength
  have hBehind' : rest'.length < bound' := Nat.lt_of_succ_lt_succ hLength'
  have hRefused (problem : SyntaxProblem) :
      fork.Follows (refuse problem final (⟨kind, place⟩ :: rest) : Reading TypeTerm)
        (refuse problem final' (⟨kind, place'⟩ :: rest')) :=
    (Fork.Tracks.refuse problem).follows final final' _ _ hFinal hAlike hLength hLength'
  have hFirst {next next' : Unit → Reader TypeTerm} (hNext : fork.Tracks bound bound' (next ()) (next' ())) :
      fork.Follows ((continueAt rest >>= next) final (⟨kind, place⟩ :: rest))
        ((continueAt rest' >>= next') final' (⟨kind, place'⟩ :: rest')) :=
    .continueAt_bind hNext hRest hFinal hBehind hBehind'
  cases kind with
  | word name => exact hFirst (tracks_namedType hOperand name)
  | text value => exact hFirst (.pure _)
  | number value => exact hFirst (.pure _)
  | template => exact hFirst ((Fork.Tracks.warn _ _).bind fun _ => .pure _)
  | other c => exact hRefused _
  | mark mark =>
      cases mark with
      | openBracket => exact follows_tupleType hOperand hFinal (hAlike.tail (by decide)) hBehind hBehind'
      | openParen => exact follows_parenthesized hOperand hFinal hAlike (hAlike.tail (by decide)) hBehind hBehind'
      | openBrace =>
          have hSkipped : fork.Tracks bound bound' (pure TypeTerm.unknown) (pure TypeTerm.unknown) := .pure _
          refine .warn_bind ?_ _ _
          exact .continueAt_bind hSkipped (alike_skipGroup hAlike _ _) hFinal
            (Nat.lt_of_le_of_lt (length_skipGroup_le _ _ _ _) hBehind)
            (Nat.lt_of_le_of_lt (length_skipGroup_le _ _ _ _) hBehind')
      | minus =>
          have hNumber := hAlike.tail (by decide)
          rcases rest with _ | ⟨⟨kind, digit⟩, rest⟩
          · obtain rfl := hNumber.eq_nil
            exact hRefused _
          · obtain ⟨digit', rest', rfl, hLast⟩ := hNumber.uncons
            cases kind with
            | number value =>
                have hValue : fork.Tracks bound bound' (pure (TypeTerm.literal (.number value.neg)))
                    (pure (.literal (.number value.neg))) := .pure _
                exact .continueAt_bind hValue hLast hFinal (Nat.lt_of_succ_lt hBehind) (Nat.lt_of_succ_lt hBehind')
            | _ => exact hRefused _
      | _ => exact hRefused _

end Types

/-- Operands are read alike when the depths allow for all tokens. -/
theorem tracks_operandWithin (depth depth' : Nat) :
    fork.Tracks depth depth' (operandWithin depth) (operandWithin depth') := by
  induction depth generalizing depth' with
  | zero => exact .of_eq_zero (advances_operandWithin _) (advances_operandWithin _) (.inl rfl)
  | succ depth ih =>
      cases depth' with
      | zero => exact .of_eq_zero (advances_operandWithin _) (advances_operandWithin _) (.inr rfl)
      | succ depth' => exact (tracks_primaryType (ih depth')).bind tracks_suffixed

/-- Operands at full depth follow each other, since both depths exceed the number of tokens. -/
theorem tracks_operandType : fork.Tracks bound bound' operandType operandType := by
  refine .remaining_bind advances_operandType advances_operandType ?_
  intro final final' tokens tokens' hFinal hAlike _ _
  exact (tracks_operandWithin _ _).follows final final' tokens tokens' hFinal hAlike (Nat.lt_succ_self _)
    (Nat.lt_succ_self _)

/-- A reader of operands that allows for all tokens reads what any operand is read by. -/
theorem tracks_operandType_operandWithin (depth' : Nat) :
    fork.Tracks bound depth' operandType (operandWithin depth') where
  advances := advances_operandType
  advances' := advances_operandWithin depth'
  follows final final' tokens tokens' hFinal hAlike _ hLength' := by
    rw [operandType, remaining_bind]
    exact (tracks_operandWithin _ _).follows final final' tokens tokens' hFinal hAlike (Nat.lt_succ_self _) hLength'

theorem tracks_typeTerm : fork.Tracks bound bound' typeTerm typeTerm :=
  tracks_wholeType tracks_operandType

section Members

/-- A function that looks only at the kind of the first token has the same value for both lists. -/
theorem eq_of_head?_kind {β : Type} {look : List Token → β} (hAlike : fork.Alike tokens tokens')
    (hLook : ∀ kind place place' rest rest', look (⟨kind, place'⟩ :: rest') = look (⟨kind, place⟩ :: rest)) :
    look tokens' = look tokens := by
  rcases tokens with _ | ⟨⟨kind, place⟩, rest⟩
  · rw [hAlike.eq_nil]
  · obtain ⟨place', rest', rfl, -⟩ := hAlike.uncons
    exact hLook kind place place' rest rest'

/-- Whether the name of a member follows is seen from the kind of the next token. -/
theorem namesMember_eq (hAlike : fork.Alike tokens tokens') : namesMember tokens' = namesMember tokens := by
  refine eq_of_head?_kind hAlike fun kind _ _ _ _ => ?_
  cases kind with
  | mark mark => cases mark <;> rfl
  | _ => rfl

theorem startsMethod_eq (hAlike : fork.Alike tokens tokens') : startsMethod tokens' = startsMethod tokens := by
  refine eq_of_head?_kind hAlike fun kind _ _ _ _ => ?_
  cases kind with
  | mark mark => cases mark <;> rfl
  | _ => rfl

/-- Whether a member has come to its end is seen from the kind of the next token. -/
theorem endsMember_eq (hAlike : fork.Alike tokens tokens') : endsMember tokens' = endsMember tokens := by
  refine eq_of_head?_kind hAlike fun kind _ _ _ _ => ?_
  cases kind with
  | mark mark => cases mark <;> rfl
  | _ => rfl

theorem startsWithWord_eq (hAlike : fork.Alike tokens tokens') (word : String) :
    startsWithWord word tokens' = startsWithWord word tokens :=
  eq_of_head?_kind hAlike fun _ _ _ _ _ => rfl

/-- A look-ahead has the same value for both lists if it is kept from one list to another. -/
theorem eq_of_kept {look : List Token → Bool}
    (hKept : ∀ {fork : Fork} {tokens tokens' : List Token}, fork.Alike tokens tokens' → look tokens → look tokens')
    (hAlike : fork.Alike tokens tokens') : look tokens' = look tokens :=
  Bool.eq_iff_iff.mpr ⟨hKept hAlike.swap, hKept hAlike⟩

/-- The sign and the word that a mapping starts with cannot stand at a fork. -/
theorem startsMapping_eq (hAlike : fork.Alike tokens tokens') : startsMapping tokens' = startsMapping tokens := by
  refine eq_of_kept ?_ hAlike
  intro fork tokens tokens' hAlike hStarts
  fun_cases startsMapping tokens with
  | case1 minus place rest =>
      obtain ⟨minus', rest', rfl, hBehind⟩ := hAlike.uncons_of_kind (by decide)
      obtain ⟨place', rest', rfl, -⟩ := hBehind.uncons_of_kind (by decide)
      rfl
  | case2 plus place rest =>
      obtain ⟨plus', rest', rfl, hBehind⟩ := hAlike.uncons_of_kind (by decide)
      obtain ⟨place', rest', rfl, -⟩ := hBehind.uncons_of_kind (by decide)
      rfl
  | case3 tokens hMinus hPlus => simp [startsMapping] at hStarts

/-- An accessor is a word behind which a member is named, and both are in front of the fork. -/
theorem startsAccessor_eq (hAlike : fork.Alike tokens tokens') : startsAccessor tokens' = startsAccessor tokens := by
  refine eq_of_kept ?_ hAlike
  intro fork tokens tokens' hAlike hStarts
  fun_cases startsAccessor tokens with
  | case1 place rest =>
      obtain ⟨place', rest', rfl, hRest⟩ := hAlike.uncons_of_kind (by decide)
      exact (namesMember_eq hRest).trans hStarts
  | case2 place rest =>
      obtain ⟨place', rest', rfl, hRest⟩ := hAlike.uncons_of_kind (by decide)
      exact (namesMember_eq hRest).trans hStarts
  | case3 tokens hGet hSet => simp [startsAccessor] at hStarts

theorem continuesType_eq (hAlike : fork.Alike tokens tokens') : continuesType tokens' = continuesType tokens := by
  refine eq_of_kept ?_ hAlike
  intro fork tokens tokens' hAlike hContinues
  fun_cases continuesType tokens with
  | case1 place rest =>
      obtain ⟨place', rest', rfl, -⟩ := hAlike.uncons
      rfl
  | case2 place rest =>
      obtain ⟨place', rest', rfl, -⟩ := hAlike.uncons
      rfl
  | case3 opening closing rest =>
      obtain ⟨opening', rest', rfl, hBehind⟩ := hAlike.uncons_of_kind (by decide)
      obtain ⟨closing', rest', rfl, -⟩ := hBehind.uncons_of_kind (by decide)
      rfl
  | case4 tokens hPipe hAmpersand hBrackets => simp [continuesType] at hContinues

theorem alike_skipReadonly (hAlike : fork.Alike tokens tokens') :
    (skipReadonly tokens').1 = (skipReadonly tokens).1 ∧
      fork.Alike (skipReadonly tokens).2 (skipReadonly tokens').2 := by
  fun_cases skipReadonly tokens with
  | case1 place rest hNames =>
      obtain ⟨place', rest', rfl, hRest⟩ := hAlike.uncons_of_kind (by decide)
      rw [skipReadonly, if_pos ((namesMember_eq hRest).trans hNames)]
      exact ⟨rfl, hRest⟩
  | case2 place rest hNames =>
      obtain ⟨place', rest', rfl, hRest⟩ := hAlike.uncons_of_kind (by decide)
      rw [skipReadonly, if_neg (by rwa [namesMember_eq hRest])]
      exact ⟨rfl, hAlike⟩
  | case3 tokens hOther =>
      have hOther' : skipReadonly tokens' = (false, tokens') := by
        unfold skipReadonly
        split
        · obtain ⟨place, rest, rfl, -⟩ := hAlike.swap.uncons_of_kind (by decide)
          exact (hOther _ _ rfl).elim
        · rfl
      rw [hOther']
      exact ⟨rfl, hAlike⟩

/-- The warnings may differ, as they name the lines of tokens. -/
theorem tracks_skipped (warning warning' : Warning) :
    fork.Tracks bound bound' (skipped warning) (skipped warning') :=
  (Fork.Tracks.warn _ _).bind fun _ => .skip_bind (skipMember_suffix 0) (fun _ _ => alike_skipMember) (.pure none)

theorem tracks_namedProperty (name : String) (readonly : Bool) :
    fork.Tracks bound bound' (namedProperty name readonly) (namedProperty name readonly) := by
  refine (Fork.Tracks.accept .question).bind fun optional => ?_
  refine .if_remaining (fun _ _ => startsMethod_eq) (tracks_skipped _ _) ?_
  exact (Fork.Tracks.expect _).bind fun _ => tracks_typeTerm.bind fun _ => .pure _

/-- The decisions of the grammar on a member are made in one order; each of them comes out the same in both lists. -/
theorem follows_modifiedMember {final final' : Position} (hFinal : fork.places final final')
    (hAlike : fork.Alike tokens tokens') (readonly : Bool) :
    fork.Follows (modifiedMember readonly tokens final tokens) (modifiedMember readonly tokens' final' tokens') := by
  have hSkipped (warning : Position → Warning) : fork.Follows ((do skipped (warning (← place))) final tokens)
      ((do skipped (warning (← place))) final' tokens') :=
    (Fork.Tracks.place_bind fun _ _ => tracks_skipped _ _).follows final final' tokens tokens' hFinal hAlike
      (Nat.lt_succ_self _) (Nat.lt_succ_self _)
  have hRefused : fork.Follows (refuseNext .propertyName final tokens : Reading (Option Property))
      (refuseNext .propertyName final' tokens') :=
    (Fork.Tracks.refuseNext _).follows final final' tokens tokens' hFinal hAlike (Nat.lt_succ_self _)
      (Nat.lt_succ_self _)
  unfold modifiedMember
  rw [startsAccessor_eq hAlike]
  split
  · exact hSkipped fun place => .accessor place.line
  rcases tokens with _ | ⟨⟨kind, place⟩, rest⟩
  · obtain rfl := hAlike.eq_nil
    exact hRefused
  obtain ⟨place', rest', rfl, hRest⟩ := hAlike.uncons
  have hNamed (name : String) : fork.Follows
      ((continueAt rest >>= fun _ => namedProperty name readonly) final (⟨kind, place⟩ :: rest))
      ((continueAt rest' >>= fun _ => namedProperty name readonly) final' (⟨kind, place'⟩ :: rest')) :=
    .continueAt_bind (tracks_namedProperty name readonly) hRest hFinal (Nat.lt_succ_self _) (Nat.lt_succ_self _)
  cases kind with
  | word name => exact hNamed name
  | text name => exact hNamed name
  | number value => exact hNamed value.literalText
  | template => exact hRefused
  | other c => exact hRefused
  | mark mark =>
      cases mark with
      | openBracket => exact hSkipped fun place => .indexOrCallSignature place.line
      | openParen => exact hSkipped fun place => .indexOrCallSignature place.line
      | less => exact hSkipped fun place => .indexOrCallSignature place.line
      | _ => exact hRefused

/-- The line that a warning names may differ, the member does not. -/
theorem tracks_member : fork.Tracks bound bound' member member where
  advances := advances_member
  advances' := advances_member
  follows final final' tokens tokens' hFinal hAlike hLength hLength' := by
    rw [member_apply, member_apply, startsMapping_eq hAlike]
    obtain ⟨hReadonly, hRest⟩ := alike_skipReadonly hAlike
    split
    · exact (Fork.Tracks.place_bind fun _ _ => tracks_skipped _ _).follows final final' tokens tokens' hFinal hAlike
        hLength hLength'
    · rw [hReadonly]
      exact follows_modifiedMember hFinal hRest _

def memberThenMembers (bound : Nat) : Reader (List Property) := do
  let property ← member
  if endsMember (← remaining) then
    let further ← members bound
    return property.toList ++ further
  else refuseNext .propertyEnd

/-- The reader of members behind the separators, with one round taken off its bound. -/
theorem members_succ_apply (bound : Nat) (final : Position) (tokens : List Token) :
    members (bound + 1) final tokens =
      (do
        if (← remaining).isEmpty then refuse .unterminatedObject
        else if ← accept .closeBrace then return []
        else memberThenMembers bound) final (skipSeparators tokens) := by
  rw [members, remaining_bind, continueAt_bind]
  rfl

theorem advances_memberThenMembers (bound : Nat) : Advances (memberThenMembers bound) :=
  advances_member.bind fun _ => .if_remaining ((advances_members bound).bind fun _ => .pure _) (.refuseNext _)

/-- No separator is left behind the separators. -/
theorem endsMember_skipSeparators (tokens : List Token) :
    endsMember (skipSeparators tokens) =
      ((skipSeparators tokens).head?.map Token.kind == some (.mark .closeBrace)) := by
  fun_induction skipSeparators tokens with
  | case1 place rest ih => exact ih
  | case2 place rest ih => exact ih
  | case3 tokens hSemicolon hComma =>
      rcases tokens with _ | ⟨⟨kind, place⟩, rest⟩
      · rfl
      · cases kind with
        | mark mark =>
            cases mark with
            | semicolon => exact (hSemicolon _ _ rfl).elim
            | comma => exact (hComma _ _ rfl).elim
            | _ => rfl
        | _ => rfl

/-- A member that ends where one ends has taken a token, if none ends before it. -/
theorem length_lt_of_endsMember {rest : List Token} (hSuffix : rest <:+ tokens) (hEnds : endsMember rest = true)
    (hOpen : endsMember tokens = false) : rest.length < tokens.length := by
  refine Nat.lt_of_le_of_ne hSuffix.length_le fun hLength => ?_
  rw [hSuffix.eq_of_length hLength, hOpen] at hEnds
  cases hEnds

/-- A member takes a token, so the members behind it have a token less, and their bounds still suffice. -/
theorem follows_memberThenMembers {final final' : Position} (hFinal : fork.places final final')
    (hAlike : fork.Alike tokens tokens') (hOpen : endsMember tokens = false) (hLength : tokens.length < bound + 1)
    (hLength' : tokens'.length < bound' + 1) (hMembers : fork.Tracks bound bound' (members bound) (members bound')) :
    fork.Follows (memberThenMembers bound final tokens) (memberThenMembers bound' final' tokens') := by
  refine Fork.Follows.bind (tracks_member.follows final final' tokens tokens' hFinal hAlike hLength hLength')
    (advances_member final tokens) (advances_member final' tokens') ?_ ?_
  · exact fun _ => .if_remaining ((advances_members bound).bind fun _ => .pure _) (.refuseNext _)
  intro property rest rest' hRest hSuffix hSuffix'
  rw [remaining_bind, remaining_bind, endsMember_eq hRest]
  split
  case isTrue hEnds =>
    have hOpen' : endsMember tokens' = false := (endsMember_eq hAlike).trans hOpen
    have hShorter := length_lt_of_endsMember hSuffix hEnds hOpen
    have hShorter' := length_lt_of_endsMember hSuffix' ((endsMember_eq hRest).trans hEnds) hOpen'
    exact (hMembers.bind fun _ => .pure _).follows final final' rest rest' hFinal hRest (by omega) (by omega)
  case isFalse =>
    exact (Fork.Tracks.refuseNext _).follows final final' rest rest' hFinal hRest (Nat.lt_succ_self _)
      (Nat.lt_succ_self _)

/-- Every member takes a token, so the numbers of tokens bound those of the members. -/
theorem tracks_members (bound bound' : Nat) : fork.Tracks bound bound' (members bound) (members bound') := by
  induction bound generalizing bound' with
  | zero => exact .of_eq_zero (advances_members _) (advances_members _) (.inl rfl)
  | succ bound ih =>
      cases bound' with
      | zero => exact .of_eq_zero (advances_members _) (advances_members _) (.inr rfl)
      | succ bound' =>
          refine ⟨advances_members _, advances_members _, ?_⟩
          intro final final' tokens tokens' hFinal hAlike hLength hLength'
          have hLeft := Nat.lt_of_le_of_lt (skipSeparators_suffix tokens).length_le hLength
          have hLeft' := Nat.lt_of_le_of_lt (skipSeparators_suffix tokens').length_le hLength'
          have hEnds := endsMember_skipSeparators tokens
          rw [members_succ_apply, members_succ_apply]
          -- If the separators reach past the fork, only the length of what is left matters from there on.
          rcases alike_skipSeparators hAlike with hPassed | hRest
          · refine .of_passed (.if_remaining (.refuse _) (.if_accepted (.pure _) ?_)) hPassed _
            exact advances_memberThenMembers bound
          generalize skipSeparators tokens = rest, skipSeparators tokens' = rest' at *
          rw [remaining_bind, remaining_bind]
          rcases rest with _ | ⟨⟨kind, place⟩, rest⟩
          · obtain rfl := hRest.eq_nil
            exact (Fork.Tracks.refuse _).follows final final' [] [] hFinal hRest hLeft hLeft'
          obtain ⟨place', rest', rfl, hBehind⟩ := hRest.uncons
          by_cases hBrace : kind = .mark .closeBrace
          · subst hBrace
            have hBehind := hRest.tail (by decide)
            exact .inr ⟨rest', [], rfl, hBehind⟩
          · have hOther : (⟨kind, place⟩ :: rest : List Token).head?.map Token.kind ≠ some (.mark .closeBrace) := by
              simpa using hBrace
            have hOther' : (⟨kind, place'⟩ :: rest' : List Token).head?.map Token.kind ≠ some (.mark .closeBrace) := by
              simpa using hBrace
            simp only [List.isEmpty_cons, Bool.false_eq_true, if_false]
            rw [accept_bind_other hOther, accept_bind_other hOther']
            exact follows_memberThenMembers hFinal hRest (by simpa using hEnds.trans (by simpa using hBrace)) hLeft
              hLeft' (ih bound')

end Members

section Declarations

/-- The bound on the members is the number of tokens, which exceeds what is needed in both lists. -/
theorem tracks_objectType : fork.Tracks bound bound' objectType objectType := by
  refine (Fork.Tracks.expect _).bind fun _ => .remaining_bind ?_ ?_ ?_
  · exact .remaining_bind fun final tokens => advances_members _ final tokens
  · exact .remaining_bind fun final tokens => advances_members _ final tokens
  · intro final final' tokens tokens' hFinal hAlike _ _
    exact (tracks_members _ _).follows final final' tokens tokens' hFinal hAlike (Nat.lt_succ_self _)
      (Nat.lt_succ_self _)

theorem tracks_continuedType : fork.Tracks bound bound' continuedType continuedType :=
  (tracks_suffixed _).bind fun _ => (tracks_intersectionTail tracks_operandType _).bind
    (tracks_unionTail tracks_operandType)

/-- An object type may be continued as an intersection or a union, in both lists or in neither. -/
theorem tracks_objectBodyEnd (name : String) (properties : List Property) :
    fork.Tracks bound bound' (objectBodyEnd name properties) (objectBodyEnd name properties) := by
  refine .if_remaining (fun _ _ => continuesType_eq) ?_ (.pure _)
  exact (Fork.Tracks.warn _ _).bind fun _ => tracks_continuedType.bind fun _ => .pure _

/-- Whether a body is an object type is seen from its first token. -/
theorem tracks_body (name : String) : fork.Tracks bound bound' (body name) (body name) where
  advances := advances_body name
  advances' := advances_body name
  follows final final' tokens tokens' hFinal hAlike hLength hLength' := by
    rw [body_apply, body_apply, hAlike.head?_kind]
    split
    · exact (tracks_objectType.bind (tracks_objectBodyEnd name)).follows final final' tokens tokens' hFinal hAlike
        hLength hLength'
    · exact (tracks_typeTerm.bind fun _ => .pure _).follows final final' tokens tokens' hFinal hAlike hLength hLength'

theorem tracks_definitionEnd (heading : Heading) (generic : Bool) (contents : Body) :
    fork.Tracks bound bound' (definitionEnd heading generic contents) (definitionEnd heading generic contents) := by
  have hEnd (found : Body) : fork.Tracks bound bound' (do let _ ← accept .semicolon; return found)
      (do let _ ← accept .semicolon; return found) := (Fork.Tracks.accept _).bind fun _ => .pure found
  exact Fork.Tracks.ite ((Fork.Tracks.warn _ _).bind fun _ => hEnd _) (hEnd _)

/-- What is read as the body is the same; it is given up in both lists if there are type parameters. -/
theorem tracks_definition (heading : Heading) (generic : Bool) :
    fork.Tracks bound bound' (definition heading generic) (definition heading generic) :=
  (Fork.Tracks.expect _).bind fun _ => (tracks_body _).bind (tracks_definitionEnd heading generic)

theorem startsParameters_eq (hAlike : fork.Alike tokens tokens') :
    startsParameters tokens' = startsParameters tokens := by
  rw [startsParameters, startsParameters, hAlike.head?_kind]

/-- Type parameters may be unbalanced and go beyond the fork; otherwise they end at the same token. -/
theorem alike_skipParameters (hAlike : fork.Alike tokens tokens') :
    fork.Passed (skipParameters tokens) ∨ fork.Alike (skipParameters tokens) (skipParameters tokens') := by
  rw [skipParameters, skipParameters, startsParameters_eq hAlike]
  split
  · exact alike_skipGroup hAlike _ _
  · exact .inr hAlike

def skipWord (word : String) (tokens : List Token) : List Token :=
  if startsWithWord word tokens then tokens.tail else tokens

theorem alike_skipWord (hAlike : fork.Alike tokens tokens') (word : String) :
    fork.Alike (skipWord word tokens) (skipWord word tokens') := by
  rw [skipWord, skipWord, startsWithWord_eq hAlike]
  split
  case isTrue hStarts =>
    rcases tokens with _ | ⟨⟨kind, place⟩, rest⟩
    · cases hStarts
    · obtain rfl : kind = .word word := by simpa [startsWithWord] using hStarts
      obtain ⟨place', rest', rfl, hRest⟩ := hAlike.uncons_of_kind (by simp)
      exact hRest
  case isFalse => exact hAlike

def namedHeading? (exported : Bool) (tokens : List Token) : Option (Heading × List Token) :=
  if startsWithWord "type" tokens then
    match tokens.tail with
    | ⟨.word name, _⟩ :: next :: rest =>
        if next.kind = .mark .equals ∨ next.kind = .mark .less then
          some (⟨exported, name⟩, next :: rest)
        else none
    | _ => none
  else none

/-- A heading is read behind the words that may stand before its keyword. -/
theorem heading?_eq (tokens : List Token) :
    heading? tokens =
      namedHeading? (startsWithWord "export" tokens) (skipWord "declare" (skipWord "export" tokens)) := rfl

/-- A heading is the keyword, a name, and an equals sign or the start of type parameters, which is left. -/
theorem namedHeading?_eq_some_iff {exported : Bool} {heading : Heading} {following : List Token} :
    namedHeading? exported tokens = some (heading, following) ↔
      ∃ first second next rest,
        tokens = ⟨.word "type", first⟩ :: ⟨.word heading.name, second⟩ :: next :: rest ∧
        (next.kind = .mark .equals ∨ next.kind = .mark .less) ∧ following = next :: rest ∧
        heading.exported = exported := by
  constructor
  · intro hHeading
    fun_cases namedHeading? exported tokens with
    | case1 hType name second next rest hTail hNext =>
        rcases tokens with _ | ⟨⟨kind, first⟩, tail⟩
        · cases hTail
        · obtain rfl : kind = .word "type" := by simpa [startsWithWord] using hType
          obtain rfl : tail = _ := hTail
          obtain ⟨rfl, rfl⟩ : (⟨exported, name⟩ : Heading) = heading ∧ next :: rest = following := by
            simpa [namedHeading?, startsWithWord, hNext] using hHeading
          exact ⟨first, second, next, rest, rfl, hNext, rfl, rfl⟩
    | case2 hType name second next rest hTail hNext => simp [namedHeading?, *] at hHeading
    | case3 hType hOther => simp [namedHeading?, *] at hHeading
    | case4 hType => simp [namedHeading?, *] at hHeading
  · rintro ⟨first, second, next, rest, rfl, hNext, rfl, rfl⟩
    simp [namedHeading?, startsWithWord, hNext]

/-- A declaration starts in both lists or in none. -/
theorem alike_heading? (hAlike : fork.Alike tokens tokens') {heading : Heading} {following : List Token}
    (hHeading : heading? tokens = some (heading, following)) :
    ∃ following', heading? tokens' = some (heading, following') ∧ fork.Alike following following' := by
  rw [heading?_eq] at hHeading ⊢
  obtain ⟨first, second, next, rest, hWords, hNext, rfl, hExported⟩ := namedHeading?_eq_some_iff.mp hHeading
  have hBehind := alike_skipWord (alike_skipWord hAlike "export") "declare"
  rw [hWords] at hBehind
  obtain ⟨first', behind, hFirst, hName⟩ := hBehind.uncons_of_kind (by decide)
  obtain ⟨second', behind, rfl, hRest⟩ := hName.uncons_of_kind (by simp)
  obtain ⟨kind, place⟩ := next
  obtain ⟨place', rest', rfl, -⟩ := hRest.uncons
  refine ⟨_, namedHeading?_eq_some_iff.mpr ⟨first', second', _, rest', hFirst, hNext, rfl, ?_⟩, hRest⟩
  rw [startsWithWord_eq hAlike, hExported]

/-- Where there is no heading in one list there is none in the other. -/
theorem heading?_eq_none_of_alike (hAlike : fork.Alike tokens tokens') (hNone : heading? tokens = none) :
    heading? tokens' = none := by
  rw [Option.eq_none_iff_forall_ne_some]
  rintro ⟨heading, following⟩ hHeading
  obtain ⟨_, hSome, -⟩ := alike_heading? hAlike.swap hHeading
  rw [hNone] at hSome
  cases hSome

end Declarations

end SchemaForge.Grammar
