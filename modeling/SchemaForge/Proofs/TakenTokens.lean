import SchemaForge.Proofs.ReadingProgress

/-! Readers that take something. A reader of a type, of a member or of a declaration leaves fewer tokens than it was
given whenever it succeeds, also where it yields nothing. So whatever reads one of these again and again comes to an
end. -/
namespace SchemaForge

/-- What is left, if the reading is done, is less than the tokens. -/
def Reading.LeavesLessThan {α : Type} (tokens : List Token) : Reading α → Prop
  | .done _ rest _ => rest.length < tokens.length
  | .refused _ _ => True

namespace Reading.LeavesLessThan

variable {α : Type} {reading : Reading α} {tokens : List Token}

/-- Warnings that were raised before do not change how much is left. -/
theorem after (hLess : reading.LeavesLessThan tokens) (earlier : List Warning) :
    (reading.after earlier).LeavesLessThan tokens := by
  cases reading with
  | done value rest warnings => exact hLess
  | refused error warnings => trivial

theorem mono {longer : List Token} (hLess : reading.LeavesLessThan tokens) (hLength : tokens.length ≤ longer.length) :
    reading.LeavesLessThan longer := by
  cases reading with
  | done value rest warnings => exact Nat.lt_of_lt_of_le hLess hLength
  | refused error warnings => trivial

/-- An end of fewer tokens is less than all of them, which is how a token that was passed over is accounted for. -/
theorem of_leavesEndOf {rest : List Token} (hEnd : reading.LeavesEndOf rest) (hLength : rest.length < tokens.length) :
    reading.LeavesLessThan tokens := by
  cases reading with
  | done value left warnings => exact Nat.lt_of_le_of_lt (List.IsSuffix.length_le hEnd) hLength
  | refused error warnings => trivial

end Reading.LeavesLessThan

namespace Reader

variable {α β : Type} {final : Position} {tokens rest : List Token}

/-- The reader takes at least one token whenever it succeeds. -/
def Takes (reader : Reader α) : Prop :=
  ∀ final tokens, (reader final tokens).LeavesLessThan tokens

/-- A token that the first reader takes stays taken. -/
theorem Takes.bind {first : Reader α} {next : α → Reader β} (hFirst : Takes first)
    (hNext : ∀ value, Advances (next value)) : Takes (first >>= next) := by
  intro final tokens
  change (andThen first next final tokens).LeavesLessThan tokens
  have hTaken := hFirst final tokens
  unfold andThen
  cases hReading : first final tokens with
  | refused error warnings => trivial
  | done value rest warnings =>
      rw [hReading] at hTaken
      exact (Reading.LeavesLessThan.of_leavesEndOf (hNext value final rest) hTaken).after warnings

/-- Whatever stands before a reader that takes a token. -/
theorem Takes.behind {first : Reader α} {next : α → Reader β} (hFirst : Advances first)
    (hNext : ∀ value, Takes (next value)) : Takes (first >>= next) := by
  intro final tokens
  change (andThen first next final tokens).LeavesLessThan tokens
  unfold andThen
  cases hReading : first final tokens with
  | refused error warnings => trivial
  | done value rest warnings =>
      have hLength := (hFirst.of_done hReading).length_le
      exact ((hNext value final rest).mono hLength).after warnings

theorem Takes.refuse (problem : SyntaxProblem) : Takes (refuse problem : Reader α) := by
  intro final tokens
  cases tokens <;> trivial

theorem Takes.refuseNext (expected : Expectation) : Takes (refuseNext expected : Reader α) :=
  fun final tokens => Takes.refuse _ final tokens

/-- A mark that is demanded is the token that is taken. -/
theorem Takes.expectAs (mark : Mark) (expected : Expectation) : Takes (expectAs mark expected) := by
  intro final tokens
  rw [Reader.expectAs]
  rcases accept_bind_cases mark _ final tokens with ⟨place, rest, rfl, hTaken⟩ | ⟨-, hOther⟩
  · rw [hTaken]
    exact Nat.lt_succ_self _
  · rw [hOther]
    exact Takes.refuseNext expected final tokens

theorem Takes.expect (mark : Mark) : Takes (expect mark) :=
  Takes.expectAs mark _

/-- Going on behind the first of the tokens that are left, or further. -/
theorem leavesLessThan_continueAt_bind {next : Unit → Reader α} (hNext : Advances (next ()))
    (hLength : rest.length < tokens.length) (final : Position) :
    ((continueAt rest >>= next) final tokens).LeavesLessThan tokens := by
  rw [continueAt_bind]
  exact .of_leavesEndOf (hNext final rest) hLength

/-- A warning takes no token, so the reader behind it has to. -/
theorem leavesLessThan_warn_bind {next : Unit → Reader α} (hNext : (next () final tokens).LeavesLessThan tokens)
    (warning : Warning) : ((warn warning >>= next) final tokens).LeavesLessThan tokens :=
  hNext.after [warning]

/-- A reader that looks at what remains has to take a token of what it sees. -/
theorem Takes.remaining_bind {next : List Token → Reader α}
    (hNext : ∀ final tokens, (next tokens final tokens).LeavesLessThan tokens) : Takes (remaining >>= next) := by
  intro final tokens
  rw [Reader.remaining_bind]
  exact hNext final tokens

end Reader

namespace Grammar

open Reader

section Types

variable {operand : Reader TypeTerm}

/-- The first operand takes the token, whatever follows it. -/
theorem takes_intersection (hTakes : Takes operand) (hOperand : Advances operand) : Takes (intersection operand) :=
  hTakes.bind (advances_intersectionTail hOperand)

/-- A leading bar does not count: the first member takes a token of its own. -/
theorem takes_wholeType (hTakes : Takes operand) (hOperand : Advances operand) : Takes (wholeType operand) :=
  Takes.behind (Advances.accept _) fun _ => (takes_intersection hTakes hOperand).bind (advances_unionTail hOperand)

variable (hOperand : Advances operand)

include hOperand

theorem takes_tupleType : Takes (tupleType operand) :=
  (Takes.expect _).bind fun _ => Advances.remaining_bind fun final tokens =>
    advances_tupleElements hOperand _ _ _ final tokens

/-- Both forms start with a mark that is taken: the parenthesis, or the arrow behind what is passed over. -/
theorem takes_parenthesized : Takes (parenthesized operand) := by
  refine Takes.remaining_bind fun final tokens => ?_
  have hWhole := advances_wholeType hOperand
  split
  · have hFunction : Takes (do
        expect .arrow
        let _ ← wholeType operand
        warn (.functionType (← place).line)
        return TypeTerm.unknown) :=
      (Takes.expect _).bind fun _ => hWhole.bind fun _ => Advances.place.bind fun _ =>
        (Advances.warn _).bind fun _ => Advances.pure _
    rw [continueAt_bind]
    exact (hFunction final _).mono (skipGroup_suffix _ _ _ _).length_le
  · exact ((Takes.expect _).bind fun _ => hWhole.bind fun _ =>
      (Advances.expect _).bind fun _ => Advances.pure _) final tokens

/-- A primary type takes its first token, whatever is nested in it. -/
theorem takes_primaryType : Takes (primaryType operand) := by
  refine Takes.remaining_bind fun final tokens => ?_
  rcases tokens with _ | ⟨⟨kind, position⟩, rest⟩
  · exact Takes.refuseNext _ final []
  have hFirst {next : Unit → Reader TypeTerm} (hNext : Advances (next ())) :
      ((continueAt rest >>= next) final (⟨kind, position⟩ :: rest)).LeavesLessThan (⟨kind, position⟩ :: rest) :=
    leavesLessThan_continueAt_bind hNext (Nat.lt_succ_self _) final
  cases kind with
  | word name => exact hFirst (advances_namedType hOperand name)
  | text value => exact hFirst (Advances.pure _)
  | number value => exact hFirst (Advances.pure _)
  | template => exact hFirst ((Advances.warn _).bind fun _ => Advances.pure _)
  | other c => exact Takes.refuseNext _ final _
  | mark mark =>
      cases mark with
      | openBracket => exact takes_tupleType hOperand final _
      | openParen => exact takes_parenthesized hOperand final _
      | openBrace =>
          refine leavesLessThan_warn_bind ?_ _
          have hGroup := length_skipGroup_le .openBrace .closeBrace position rest
          exact leavesLessThan_continueAt_bind (Advances.pure _) (Nat.lt_succ_of_le hGroup) final
      | minus =>
          dsimp only
          split
          · refine leavesLessThan_continueAt_bind (Advances.pure _) ?_ final
            simp only [List.length_cons]
            omega
          · exact Takes.refuse _ final _
      | _ => exact Takes.refuseNext _ final _

end Types

/-- At depth zero everything is refused, and above it an operand takes its first token. -/
theorem takes_operandWithin (depth : Nat) : Takes (operandWithin depth) := by
  cases depth with
  | zero => exact Takes.refuseNext _
  | succ depth => exact (takes_primaryType (advances_operandWithin depth)).bind advances_suffixed

theorem takes_operandType : Takes operandType :=
  Takes.remaining_bind fun final tokens => takes_operandWithin _ final tokens

theorem takes_typeTerm : Takes typeTerm :=
  takes_wholeType takes_operandType advances_operandType

/-- A member that is passed over from a token that does not end it. -/
theorem leavesLessThan_skipped {token : Token} {rest : List Token} {depth : Nat}
    (hStep : memberStep 0 token.kind = .onward depth) (warning : Position → Warning) (final : Position) :
    ((do skipped (warning (← place))) final (token :: rest)).LeavesLessThan (token :: rest) := by
  have hShorter : (skipMember 0 (token :: rest)).length < (token :: rest).length := by
    rw [skipMember_eq_skipTokens, skipTokens_onward hStep]
    exact Nat.lt_succ_of_le (skipTokens_suffix _ _ _).length_le
  change (((skipped (warning token.position)) final (token :: rest)).after []).LeavesLessThan (token :: rest)
  refine (leavesLessThan_warn_bind ?_ _).after []
  rw [remaining_bind]
  exact leavesLessThan_continueAt_bind (Advances.pure none) hShorter final

/-- A mapped member does not start with a token at which passing over a member would stop. -/
theorem exists_onward_of_startsMapping {tokens : List Token} (hMapping : startsMapping tokens = true) :
    ∃ token rest, tokens = token :: rest ∧ memberStep 0 token.kind = .onward 0 := by
  unfold startsMapping at hMapping
  split at hMapping
  · exact ⟨_, _, rfl, rfl⟩
  · exact ⟨_, _, rfl, rfl⟩
  · cases hMapping

/-- An accessor starts with a word, at which passing over a member goes on. -/
theorem exists_onward_of_startsAccessor {tokens : List Token} (hAccessor : startsAccessor tokens = true) :
    ∃ token rest, tokens = token :: rest ∧ memberStep 0 token.kind = .onward 0 := by
  unfold startsAccessor at hAccessor
  split at hAccessor
  · exact ⟨_, _, rfl, rfl⟩
  · exact ⟨_, _, rfl, rfl⟩
  · cases hAccessor

/-- Behind its modifier a member still takes a token: its name, or the first of what is passed over. -/
theorem leavesLessThan_modifiedMember (readonly : Bool) (final : Position) (tokens : List Token) :
    (modifiedMember readonly tokens final tokens).LeavesLessThan tokens := by
  have hNamed {rest : List Token} {token : Token} (name : String) :
      ((continueAt rest >>= fun _ => namedProperty name readonly) final (token :: rest)).LeavesLessThan
        (token :: rest) :=
    leavesLessThan_continueAt_bind (advances_namedProperty name readonly) (Nat.lt_succ_self _) final
  unfold modifiedMember
  split
  case isTrue hAccessor =>
    obtain ⟨token, rest, rfl, hStep⟩ := exists_onward_of_startsAccessor hAccessor
    exact leavesLessThan_skipped hStep (fun place => .accessor place.line) final
  case isFalse hOther =>
    split
    · exact hNamed _
    · exact hNamed _
    · exact hNamed _
    · exact leavesLessThan_skipped rfl (fun place => .indexOrCallSignature place.line) final
    · exact leavesLessThan_skipped rfl (fun place => .indexOrCallSignature place.line) final
    · exact leavesLessThan_skipped rfl (fun place => .indexOrCallSignature place.line) final
    · exact Takes.refuseNext _ final _

/-- A member takes a token also where it is passed over: no such member starts with a token that ends it. -/
theorem takes_member : Takes member := by
  intro final tokens
  rw [member_apply]
  split
  case isTrue hMapping =>
    obtain ⟨token, rest, rfl, hStep⟩ := exists_onward_of_startsMapping hMapping
    exact leavesLessThan_skipped hStep (fun place => .mappedMember place.line) final
  case isFalse hOther =>
    exact (leavesLessThan_modifiedMember _ final _).mono (skipReadonly_suffix tokens).length_le

theorem takes_objectType : Takes objectType :=
  (Takes.expect _).bind fun _ => Advances.remaining_bind fun final tokens => advances_members _ final tokens

/-- A body is an object type or a type, and both take a token. -/
theorem takes_body (name : String) : Takes (body name) := by
  intro final tokens
  rw [body_apply]
  split
  · exact (takes_objectType.bind (advances_objectBodyEnd name)) final tokens
  · exact (takes_typeTerm.bind fun _ => Advances.pure _) final tokens

/-- Scanning goes on with fewer tokens after every declaration. -/
theorem takes_declaration (position : Position) (heading : Heading) : Takes (declaration position heading) := by
  intro final tokens
  rw [declaration_apply]
  have hDefinition : Takes (definition heading (startsParameters tokens)) :=
    (Takes.expect _).bind fun _ => (advances_body _).bind (advances_definitionEnd heading _)
  have hRead := (hDefinition.bind fun contents =>
    Advances.pure (⟨heading.name, heading.exported, contents, position⟩ : Declaration)) final (skipParameters tokens)
  exact hRead.mono (skipParameters_suffix tokens).length_le

end Grammar

end SchemaForge
