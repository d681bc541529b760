import SchemaForge.Proofs.RevisedMembers

/-! Types without a form of their own. As the type of a property each of them is read up to the semicolon behind it
and taken as unknown, so the word can stand in its place. Type arguments are passed over by counting angle brackets
only: a semicolon or a brace directly in them ends them too early, and an operand behind a type operator has to start
with a token by which such an operand is recognized. -/
namespace SchemaForge.Grammar

open Reader

def unplaced (kinds : List TokenKind) : List Token :=
  kinds.map fun kind => ⟨kind, Position.start⟩

/-- A piece in which brackets match and which the reader takes as a whole if the mark stands behind it. -/
structure ReadBefore (stop : Mark) (reader : Reader TypeTerm) (kinds : List TokenKind) : Prop where
  nested : wellNested kinds = true
  read : ∃ value, reader.Yields Position.start (unplaced kinds ++ unplaced [.mark stop]) value (unplaced [.mark stop])

/-- The further operands of an intersection. -/
inductive ReadConjuncts : List TokenKind → Prop where
  | last {operand : List TokenKind} (hOperand : ReadBefore .semicolon operandType operand) :
      ReadConjuncts (.mark .ampersand :: operand)
  | more {operand further : List TokenKind} (hOperand : ReadBefore .ampersand operandType operand)
      (hFurther : ReadConjuncts further) : ReadConjuncts (.mark .ampersand :: (operand ++ further))

def typeKeywords : List String :=
  ["string", "number", "boolean", "null", "true", "false", "object", "any", "unknown", "undefined", "never", "void",
    "bigint", "symbol"]

def dottedName (first : String) (parts : List String) : String :=
  parts.foldl (fun name part => name ++ "." ++ part) first

def partKinds (parts : List String) : List TokenKind :=
  parts.flatMap fun part => [.mark .dot, .word part]

/-- The types without a form of their own, written with matching brackets. The types in them are read. Type arguments
have no semicolon and no closing brace outside nested ones. -/
inductive UnsupportedType : List TokenKind → Prop where
  | template : UnsupportedType [.template]
  | object {inner : List TokenKind} (hNested : wellNested inner = true) :
      UnsupportedType (.mark .openBrace :: (inner ++ [.mark .closeBrace]))
  | function {parameters result : List TokenKind} (hNested : wellNested parameters = true)
      (hResult : ReadBefore .semicolon typeTerm result) :
      UnsupportedType (.mark .openParen :: (parameters ++ .mark .closeParen :: .mark .arrow :: result))
  | generic {first : String} {parts : List String} {arguments : List TokenKind} (hFirst : first ∉ typeKeywords)
      (hName : dottedName first parts ∉ ["Array", "ReadonlyArray"]) (hNested : wellNested arguments = true)
      (hEnclosed : ∀ kind ∈ exposed [.greater] [] arguments, kind ∉ [TokenKind.mark .semicolon, .mark .closeBrace]) :
      UnsupportedType (.word first :: (partKinds parts ++ .mark .less :: (arguments ++ [.mark .greater])))
  | intersection {first further : List TokenKind} (hFirst : ReadBefore .ampersand operandType first)
      (hFurther : ReadConjuncts further) : UnsupportedType (first ++ further)
  | operator {word : String} {operand : List TokenKind} (hWord : word ∈ ["keyof", "typeof"])
      (hStarts : startsType (unplaced operand) = true) (hOperand : ReadBefore .semicolon operandType operand) :
      UnsupportedType (.word word :: operand)

/-- What stands before the type of a property: a modifier, if there is one, the name and perhaps a question mark. -/
structure PropertyHead where
  readonly : Bool
  kind : TokenKind
  name : String
  named : propertyName? kind = some name
  optional : Bool

def PropertyHead.kinds (head : PropertyHead) : List TokenKind :=
  (if head.readonly then [.word "readonly"] else []) ++
    head.kind :: ((if head.optional then [.mark .question] else []) ++ [.mark .colon])

def PropertyHead.property (head : PropertyHead) (type : TypeTerm) : Property :=
  ⟨head.name, type, head.optional, head.readonly⟩

/-- The unknown type of a property is replaced by a type without a form of its own. -/
inductive ReplacesUnknown : List TokenKind → List TokenKind → Prop where
  | intro {kinds : List TokenKind} (head : PropertyHead) (hType : UnsupportedType kinds) :
      ReplacesUnknown ((head.kinds ++ [.word "unknown"]) ++ [.mark .semicolon])
        ((head.kinds ++ kinds) ++ [.mark .semicolon])

section Nesting

theorem wellNested_partKinds (parts : List String) : wellNested (partKinds parts) = true := by
  induction parts with
  | nil => rfl
  | cons part parts ih => exact wellNested_cons rfl rfl (wellNested_cons rfl rfl ih)

/-- The induction is over the operands, in each of which brackets match. -/
theorem ReadConjuncts.nested {kinds : List TokenKind} (hConjuncts : ReadConjuncts kinds) : wellNested kinds = true := by
  induction hConjuncts with
  | last hOperand => exact wellNested_cons rfl rfl hOperand.nested
  | more hOperand hFurther ih => exact wellNested_cons rfl rfl (wellNested_append hOperand.nested ih)

/-- In all of these types brackets match, which is what passing over them relies on. -/
theorem UnsupportedType.nested {kinds : List TokenKind} (hType : UnsupportedType kinds) : wellNested kinds = true := by
  cases hType with
  | template => rfl
  | object hNested => exact wellNested_group rfl hNested
  | @function parameters result hNested hResult =>
      have hGroup : wellNested (.mark .openParen :: (parameters ++ [.mark .closeParen])) = true :=
        wellNested_group rfl hNested
      have hArrow : wellNested (.mark .arrow :: result) = true := wellNested_cons rfl rfl hResult.nested
      simpa using wellNested_append hGroup hArrow
  | generic hFirst hName hNested hEnclosed =>
      exact wellNested_cons rfl rfl (wellNested_append (wellNested_partKinds _) (wellNested_group rfl hNested))
  | intersection hFirst hFurther => exact wellNested_append hFirst.nested hFurther.nested
  | operator hWord hStarts hOperand => exact wellNested_cons rfl rfl hOperand.nested

theorem PropertyHead.wellNested_append (head : PropertyHead) {kinds : List TokenKind}
    (hNested : wellNested kinds = true) : wellNested (head.kinds ++ kinds) = true := by
  obtain ⟨readonly, kind, name, hName, optional⟩ := head
  have hColon : wellNested ((if optional then [.mark .question] else []) ++ .mark .colon :: kinds) = true := by
    cases optional with
    | false => exact wellNested_cons rfl rfl hNested
    | true => exact wellNested_cons rfl rfl (wellNested_cons rfl rfl hNested)
  have hNamed : wellNested (kind :: ((if optional then [.mark .question] else []) ++ .mark .colon :: kinds)) = true := by
    cases kind with
    | mark mark => cases hName
    | template => cases hName
    | other c => cases hName
    | _ => exact wellNested_cons rfl rfl hColon
  cases readonly with
  | false => simpa [PropertyHead.kinds] using hNamed
  | true => simpa [PropertyHead.kinds] using wellNested_cons rfl rfl hNamed

end Nesting

section Pieces

variable {stop : Mark} {reader reader' : Reader TypeTerm} {kinds : List TokenKind} {tokens rest : List Token}
  {final place : Position}

theorem map_kind_unplaced (kinds : List TokenKind) : (unplaced kinds).map Token.kind = kinds := by
  simp [unplaced, Function.comp_def]

/-- A piece that is read before a mark is read before it everywhere, also by a reader that follows the first one. -/
theorem ReadBefore.exists_yields (hRead : ReadBefore stop reader kinds) (hStop : stop ∈ forkMarks) {bound' : Nat}
    (hTracks : ∀ (fork : Fork) (bound : Nat), fork.Tracks bound bound' reader reader')
    (hTokens : tokens.map Token.kind = kinds) (hLength : (tokens ++ ⟨.mark stop, place⟩ :: rest).length < bound')
    (final : Position) :
    ∃ value, reader'.Yields final (tokens ++ ⟨.mark stop, place⟩ :: rest) value (⟨.mark stop, place⟩ :: rest) := by
  obtain ⟨value, warnings, hDone⟩ := hRead.read
  have hKinds : tokens.map Token.kind = (unplaced kinds).map Token.kind := by rw [map_kind_unplaced, hTokens]
  have hNested : closesAll [] ((unplaced kinds).map Token.kind) = true := by
    rw [map_kind_unplaced]
    exact hRead.nested
  have hAlike : (forkAt hStop Position.start place [] rest).Alike (unplaced kinds ++ unplaced [.mark stop])
      (tokens ++ ⟨.mark stop, place⟩ :: rest) := .of_closesAll (fun _ _ => trivial) hKinds hNested
  have hFinal : (forkAt hStop Position.start place [] rest).places Position.start final := trivial
  exact ⟨value, (hTracks _ _).exists_done_at_fork hFinal hAlike (Nat.lt_succ_self _) hLength hDone⟩

/-- A piece is read as an operand before its mark, whatever stands behind the mark. -/
theorem ReadBefore.operandType_yields (hRead : ReadBefore stop operandType kinds) (hStop : stop ∈ forkMarks)
    (hTokens : tokens.map Token.kind = kinds) (final place : Position) (rest : List Token) :
    ∃ value, operandType.Yields final (tokens ++ ⟨.mark stop, place⟩ :: rest) value (⟨.mark stop, place⟩ :: rest) :=
  hRead.exists_yields hStop (fun _ _ => tracks_operandType) hTokens (Nat.lt_succ_self _) final

end Pieces

section Grammar

variable {operand : Reader TypeTerm} {value : TypeTerm} {final place : Position} {tokens rest : List Token}

theorem unionTail_semicolon (operand : Reader TypeTerm) (first : TypeTerm) (final place : Position)
    (rest : List Token) :
    (unionTail operand first).Yields final (⟨.mark .semicolon, place⟩ :: rest) first
      (⟨.mark .semicolon, place⟩ :: rest) :=
  ⟨[], rfl⟩

theorem intersectionTail_semicolon (operand : Reader TypeTerm) (first : TypeTerm) (final place : Position)
    (rest : List Token) :
    (intersectionTail operand first).Yields final (⟨.mark .semicolon, place⟩ :: rest) first
      (⟨.mark .semicolon, place⟩ :: rest) :=
  ⟨[], rfl⟩

/-- A type without a bar before it is an intersection if a semicolon stands behind it. -/
theorem typeTerm_of_intersection
    (hRead : (intersection operandType).Yields final tokens value (⟨.mark .semicolon, place⟩ :: rest))
    (hPipe : tokens.head?.map Token.kind ≠ some (.mark .pipe)) :
    typeTerm.Yields final tokens value (⟨.mark .semicolon, place⟩ :: rest) :=
  .accept_other_bind hPipe (hRead.bind (unionTail_semicolon _ _ _ _ _))

/-- Such an intersection has one operand if no ampersand stands behind it, and there are no brackets behind that. -/
theorem typeTerm_of_primaryType
    (hRead : (primaryType (operandWithin tokens.length)).Yields final tokens value (⟨.mark .semicolon, place⟩ :: rest))
    (hPipe : tokens.head?.map Token.kind ≠ some (.mark .pipe)) :
    typeTerm.Yields final tokens value (⟨.mark .semicolon, place⟩ :: rest) := by
  have hOperand : operandType.Yields final tokens value (⟨.mark .semicolon, place⟩ :: rest) :=
    .remaining_bind (hRead.bind ⟨[], rfl⟩)
  exact typeTerm_of_intersection (hOperand.bind (intersectionTail_semicolon _ _ _ _ _)) hPipe

/-- A group whose brackets match is passed over up to its own closing bracket. -/
theorem skipGroup_group {opening closing : Mark} (hPair : TokenKind.opens? (.mark opening) = some closing)
    {inner : List Token} (hNested : wellNested (inner.map Token.kind) = true) (first last : Position)
    (rest : List Token) :
    skipGroup opening closing 0 (⟨.mark opening, first⟩ :: (inner ++ ⟨.mark closing, last⟩ :: rest)) = rest := by
  have hDistinct : closing ≠ opening := by
    rintro rfl
    cases closing <;> cases hPair
  rw [skipGroup, if_pos rfl, skipGroup_eq_skipTokens,
    skipTokens_of_wellNested (countsBrackets_groupStep hPair 0) hNested fun _ _ => trivial]
  exact skipTokens_endBehind (by simp [groupStep, hDistinct])

/-- Type arguments are passed over up to their own closing bracket, if nothing in them ends them before. -/
theorem skipArguments_group {inner : List Token} (hNested : wellNested (inner.map Token.kind) = true)
    (hEnclosed : ∀ kind ∈ exposed [.greater] [] (inner.map Token.kind),
      kind ∉ [TokenKind.mark .semicolon, .mark .closeBrace]) (first last : Position) (rest : List Token) :
    skipArguments 0 (⟨.mark .less, first⟩ :: (inner ++ ⟨.mark .greater, last⟩ :: rest)) = rest := by
  rw [skipArguments_eq_skipTokens, skipTokens_onward rfl,
    skipTokens_of_wellNested countsBrackets_argumentStep hNested hEnclosed]
  exact skipTokens_endBehind rfl

/-- The parts of a dotted name are read up to the first token that is no dot. -/
theorem dottedParts_append {first : String} {parts : List String} (hTokens : tokens.map Token.kind = partKinds parts)
    (hNext : rest.head?.map Token.kind ≠ some (.mark .dot)) :
    dottedParts first (tokens ++ rest) = (dottedName first parts, rest) := by
  induction parts generalizing first tokens with
  | nil =>
      rw [List.map_eq_nil_iff.mp hTokens, List.nil_append]
      unfold dottedParts
      split
      · exact absurd rfl hNext
      · rfl
  | cons part parts ih =>
      obtain ⟨⟨_, dot⟩, tokens, rfl, rfl, hPart⟩ := List.map_eq_cons_iff.mp hTokens
      obtain ⟨⟨_, place⟩, tokens, rfl, rfl, hParts⟩ := List.map_eq_cons_iff.mp hPart
      exact ih hParts

/-- A reference with type arguments becomes unknown, behind whatever was passed over. -/
theorem referenceTo_arguments {first name : String}
    (hDotted : dottedParts first tokens = (name, ⟨.mark .less, place⟩ :: rest))
    (hName : name ∉ ["Array", "ReadonlyArray"]) (operand : Reader TypeTerm) (final : Position) :
    (referenceTo operand first).Yields final tokens .unknown (skipArguments 0 (⟨.mark .less, place⟩ :: rest)) := by
  have hOther : ¬ (name = "Array" ∨ name = "ReadonlyArray") := by simpa using hName
  refine .remaining_bind ?_
  rw [hDotted]
  refine .continueAt_bind ?_
  simp only [List.head?_cons, Option.map_some, if_neg hOther]
  exact .remaining_bind (.continueAt_bind (.warn_pure _ _ _ _))

/-- A word that is neither a type nor an operator is the start of a reference. -/
theorem namedType_reference {word : String} (hWord : word ∉ typeKeywords) (hNext : startsType tokens = false)
    (operand : Reader TypeTerm) (final : Position) :
    namedType operand word final tokens = referenceTo operand word final tokens := by
  simp only [typeKeywords, List.mem_cons, List.not_mem_nil, or_false, not_or] at hWord
  rw [namedType, remaining_bind]
  simp [hWord, hNext]

/-- An operator on types reads its operand and drops it. -/
theorem namedType_operator {word : String} (hWord : word ∈ ["keyof", "typeof"]) (hNext : startsType tokens = true)
    (hOperand : operand.Yields final tokens value rest) :
    (namedType operand word).Yields final tokens .unknown rest := by
  have hWarned : Yields (do let _ ← operand; warn (.typeOperator word); return TypeTerm.unknown) final tokens .unknown
      rest := hOperand.bind (.warn_pure _ _ _ _)
  refine .remaining_bind ?_
  simp only [List.mem_cons, List.not_mem_nil, or_false] at hWord
  rcases hWord with rfl | rfl
  · simpa [hNext] using hWarned
  · simpa [hNext] using hWarned

theorem primaryType_word {word : String} (hNamed : (namedType operand word).Yields final tokens value rest)
    (place : Position) : (primaryType operand).Yields final (⟨.word word, place⟩ :: tokens) value rest :=
  .remaining_bind (.continueAt_bind hNamed)

theorem primaryType_template (operand : Reader TypeTerm) (final place : Position) (rest : List Token) :
    (primaryType operand).Yields final (⟨.template, place⟩ :: rest) .unknown rest :=
  .remaining_bind (.continueAt_bind (.warn_pure _ _ _ _))

/-- A nested object type becomes unknown, behind its closing brace. -/
theorem primaryType_object {inner : List Token} (hNested : wellNested (inner.map Token.kind) = true)
    (operand : Reader TypeTerm) (final first last : Position) (rest : List Token) :
    (primaryType operand).Yields final
      (⟨.mark .openBrace, first⟩ :: (inner ++ ⟨.mark .closeBrace, last⟩ :: rest)) .unknown rest := by
  refine .remaining_bind (.warn_bind (.continueAt_bind ?_) _)
  rw [skipGroup_group rfl hNested]
  exact .pure _ _ _

/-- A function type becomes unknown, behind the type of its result. -/
theorem primaryType_function {inner behind : List Token} (hNested : wellNested (inner.map Token.kind) = true)
    (hResult : (wholeType operand).Yields final behind value rest) (first last arrow : Position) :
    (primaryType operand).Yields final
      (⟨.mark .openParen, first⟩ :: (inner ++ ⟨.mark .closeParen, last⟩ :: ⟨.mark .arrow, arrow⟩ :: behind)) .unknown
      rest := by
  have hFunction : startsFunction 0
      (⟨.mark .openParen, first⟩ :: (inner ++ ⟨.mark .closeParen, last⟩ :: ⟨.mark .arrow, arrow⟩ :: behind)) = true := by
    rw [startsFunction_open rfl, startsFunction_of_wellNested hNested, startsFunction_closing rfl]
    rfl
  refine .remaining_bind (.remaining_bind ?_)
  rw [if_pos hFunction, skipGroup_group rfl hNested]
  exact .continueAt_bind (.expect_bind (hResult.bind (.place_bind fun _ => .warn_pure _ _ _ _)) _ _)

end Grammar

section Types

variable {kinds : List TokenKind} {tokens : List Token}

/-- No operand starts with a bar. -/
theorem head?_ne_pipe_of_operandType {final : Position} {value : TypeTerm} {rest : List Token}
    (hRead : operandType.Yields final tokens value rest) : tokens.head?.map Token.kind ≠ some (.mark .pipe) := by
  obtain ⟨warnings, hRead⟩ := hRead
  rcases tokens with _ | ⟨⟨kind, place⟩, tokens⟩
  · simp
  · intro hPipe
    obtain rfl : kind = .mark .pipe := by simpa using hPipe
    cases hRead

theorem ReadConjuncts.exists_ampersand (hConjuncts : ReadConjuncts (tokens.map Token.kind)) :
    ∃ place behind, tokens = ⟨.mark .ampersand, place⟩ :: behind := by
  generalize hKinds : tokens.map Token.kind = kinds at hConjuncts
  cases hConjuncts with
  | last hOperand =>
      obtain ⟨⟨_, place⟩, behind, rfl, rfl, -⟩ := List.map_eq_cons_iff.mp hKinds
      exact ⟨place, behind, rfl⟩
  | more hOperand hFurther =>
      obtain ⟨⟨_, place⟩, behind, rfl, rfl, -⟩ := List.map_eq_cons_iff.mp hKinds
      exact ⟨place, behind, rfl⟩

/-- The induction is over the operands. There is at least one, so the intersection becomes unknown. -/
theorem ReadConjuncts.eachAfter_yields (hConjuncts : ReadConjuncts kinds) (hTokens : tokens.map Token.kind = kinds)
    {bound : Nat} (hBound : tokens.length ≤ bound) (final place : Position) (rest : List Token) :
    ∃ value values, (eachAfter .ampersand operandType bound).Yields final (tokens ++ ⟨.mark .semicolon, place⟩ :: rest)
      (value :: values) (⟨.mark .semicolon, place⟩ :: rest) := by
  induction hConjuncts generalizing tokens bound with
  | last hOperand =>
      obtain ⟨⟨_, ampersand⟩, operand, rfl, rfl, hKinds⟩ := List.map_eq_cons_iff.mp hTokens
      obtain ⟨bound, rfl⟩ : ∃ fewer, bound = fewer + 1 := ⟨bound - 1, by rw [List.length_cons] at hBound; omega⟩
      obtain ⟨value, hValue⟩ := hOperand.operandType_yields (by decide) hKinds final place rest
      have hNone : (eachAfter .ampersand operandType bound).Yields final (⟨.mark .semicolon, place⟩ :: rest) []
          (⟨.mark .semicolon, place⟩ :: rest) := by
        cases bound <;> exact ⟨[], rfl⟩
      exact ⟨value, [], hValue.eachAfter_cons hNone ampersand⟩
  | @more _ further hOperand hFurther ih =>
      obtain ⟨⟨_, ampersand⟩, behind, rfl, rfl, hKinds⟩ := List.map_eq_cons_iff.mp hTokens
      obtain ⟨operand, others, rfl, hOperandKinds, rfl⟩ := List.map_eq_append_iff.mp hKinds
      rw [List.length_cons, List.length_append] at hBound
      obtain ⟨bound, rfl⟩ : ∃ fewer, bound = fewer + 1 := ⟨bound - 1, by omega⟩
      obtain ⟨second, values, hValues⟩ := ih rfl (show others.length ≤ bound by omega)
      -- The ampersand before the next operand is the mark behind this one.
      obtain ⟨next, others, rfl⟩ := hFurther.exists_ampersand
      obtain ⟨value, hValue⟩ := hOperand.operandType_yields (by decide) hOperandKinds final next
        (others ++ ⟨.mark .semicolon, place⟩ :: rest)
      refine ⟨value, second :: values, ?_⟩
      rw [List.cons_append, List.append_assoc]
      exact hValue.eachAfter_cons hValues ampersand

/-- An intersection is read to its end and taken as unknown. -/
theorem typeTerm_intersection {first further : List Token}
    (hFirst : ReadBefore .ampersand operandType (first.map Token.kind))
    (hFurther : ReadConjuncts (further.map Token.kind)) (final place : Position) (rest : List Token) :
    typeTerm.Yields final (first ++ (further ++ ⟨.mark .semicolon, place⟩ :: rest)) .unknown
      (⟨.mark .semicolon, place⟩ :: rest) := by
  have hBound : further.length ≤ (further ++ ⟨.mark .semicolon, place⟩ :: rest).length := by simp
  obtain ⟨second, values, hValues⟩ := hFurther.eachAfter_yields rfl hBound final place rest
  obtain ⟨ampersand, others, rfl⟩ := hFurther.exists_ampersand
  obtain ⟨value, hValue⟩ := hFirst.operandType_yields (by decide) rfl final ampersand
    (others ++ ⟨.mark .semicolon, place⟩ :: rest)
  refine typeTerm_of_intersection (hValue.bind ?_) (head?_ne_pipe_of_operandType hValue)
  exact .remaining_bind (hValues.bind (.place_bind fun _ => .warn_pure _ _ _ _))

/-- A function type is read up to the semicolon behind its result. -/
theorem typeTerm_function {parameters result : List Token} (hNested : wellNested (parameters.map Token.kind) = true)
    (hResult : ReadBefore .semicolon typeTerm (result.map Token.kind)) (final first last arrow place : Position)
    (rest : List Token) :
    typeTerm.Yields final (⟨.mark .openParen, first⟩ :: (parameters ++ ⟨.mark .closeParen, last⟩ ::
      ⟨.mark .arrow, arrow⟩ :: (result ++ ⟨.mark .semicolon, place⟩ :: rest))) .unknown
      (⟨.mark .semicolon, place⟩ :: rest) := by
  have hTracks {depth : Nat} (fork : Fork) (bound : Nat) :
      fork.Tracks bound depth typeTerm (wholeType (operandWithin depth)) :=
    tracks_wholeType (tracks_operandType_operandWithin depth)
  refine typeTerm_of_primaryType ?_ (by simp)
  -- The result is read by the reader for nested types, which may go as deep as the whole type is long.
  generalize hDepth : List.length _ = depth
  have hLength : (result ++ ⟨.mark .semicolon, place⟩ :: rest).length < depth := by
    simp only [← hDepth, List.length_cons, List.length_append]
    omega
  obtain ⟨value, hValue⟩ := hResult.exists_yields (by decide) hTracks rfl hLength final
  exact primaryType_function hNested hValue first last arrow

/-- A reference with type arguments is read up to the semicolon behind them. -/
theorem typeTerm_generic {first : String} {parts : List String} {dotted arguments : List Token}
    (hFirst : first ∉ typeKeywords) (hName : dottedName first parts ∉ ["Array", "ReadonlyArray"])
    (hDotted : dotted.map Token.kind = partKinds parts) (hNested : wellNested (arguments.map Token.kind) = true)
    (hEnclosed : ∀ kind ∈ exposed [.greater] [] (arguments.map Token.kind),
      kind ∉ [TokenKind.mark .semicolon, .mark .closeBrace]) (final word opening closing place : Position)
    (rest : List Token) :
    typeTerm.Yields final (⟨.word first, word⟩ :: (dotted ++ ⟨.mark .less, opening⟩ ::
      (arguments ++ ⟨.mark .greater, closing⟩ :: ⟨.mark .semicolon, place⟩ :: rest))) .unknown
      (⟨.mark .semicolon, place⟩ :: rest) := by
  have hNext : startsType (dotted ++ ⟨.mark .less, opening⟩ ::
      (arguments ++ ⟨.mark .greater, closing⟩ :: ⟨.mark .semicolon, place⟩ :: rest)) = false := by
    cases parts with
    | nil =>
        rw [List.map_eq_nil_iff.mp hDotted]
        rfl
    | cons part parts =>
        obtain ⟨⟨_, dot⟩, dotted, rfl, rfl, -⟩ := List.map_eq_cons_iff.mp hDotted
        rfl
  refine typeTerm_of_primaryType (primaryType_word ?_ word) (by simp)
  obtain ⟨warnings, hRead⟩ := referenceTo_arguments (dottedParts_append hDotted (by simp)) hName
    (operandWithin (⟨.word first, word⟩ :: (dotted ++ ⟨.mark .less, opening⟩ ::
      (arguments ++ ⟨.mark .greater, closing⟩ :: ⟨.mark .semicolon, place⟩ :: rest))).length) final
  rw [skipArguments_group hNested hEnclosed, ← namedType_reference hFirst hNext] at hRead
  exact ⟨warnings, hRead⟩

/-- An operator and its operand are read up to the semicolon behind them. -/
theorem typeTerm_operator {word : String} {operand : List Token} (hWord : word ∈ ["keyof", "typeof"])
    (hStarts : startsType operand = true) (hOperand : ReadBefore .semicolon operandType (operand.map Token.kind))
    (final first place : Position) (rest : List Token) :
    typeTerm.Yields final (⟨.word word, first⟩ :: (operand ++ ⟨.mark .semicolon, place⟩ :: rest)) .unknown
      (⟨.mark .semicolon, place⟩ :: rest) := by
  have hNext : startsType (operand ++ ⟨.mark .semicolon, place⟩ :: rest) = true := by
    cases operand with
    | nil => cases hStarts
    | cons token operand => exact hStarts
  refine typeTerm_of_primaryType (primaryType_word ?_ first) (by simp)
  obtain ⟨value, hValue⟩ := hOperand.exists_yields (by decide)
    (fun _ _ => tracks_operandType_operandWithin _) rfl (Nat.lt_succ_self _) final
  exact namedType_operator hWord hNext hValue

theorem startsType_unplaced (operand : List Token) :
    startsType (unplaced (operand.map Token.kind)) = startsType operand := by
  cases operand <;> rfl

/-- Each of the types is read up to the semicolon behind it and taken as unknown. -/
theorem UnsupportedType.typeTerm_yields (hType : UnsupportedType (tokens.map Token.kind)) (final place : Position)
    (rest : List Token) :
    typeTerm.Yields final (tokens ++ ⟨.mark .semicolon, place⟩ :: rest) .unknown
      (⟨.mark .semicolon, place⟩ :: rest) := by
  generalize hTokens : tokens.map Token.kind = kinds at hType
  cases hType with
  | template =>
      obtain ⟨⟨_, first⟩, none, rfl, rfl, hNil⟩ := List.map_eq_cons_iff.mp hTokens
      obtain rfl := List.map_eq_nil_iff.mp hNil
      exact typeTerm_of_primaryType (primaryType_template _ _ _ _) (by simp)
  | object hNested =>
      obtain ⟨⟨_, first⟩, behind, rfl, rfl, hBehind⟩ := List.map_eq_cons_iff.mp hTokens
      obtain ⟨inner, last, none, rfl, rfl, hNil⟩ := eq_append_of_map_kind hBehind
      obtain rfl := List.map_eq_nil_iff.mp hNil
      rw [List.cons_append, List.append_assoc, List.singleton_append]
      exact typeTerm_of_primaryType (primaryType_object hNested _ _ _ _ _) (by simp)
  | function hNested hResult =>
      obtain ⟨⟨_, first⟩, behind, rfl, rfl, hBehind⟩ := List.map_eq_cons_iff.mp hTokens
      obtain ⟨parameters, last, behind, rfl, rfl, hArrow⟩ := eq_append_of_map_kind hBehind
      obtain ⟨⟨_, arrow⟩, result, rfl, rfl, rfl⟩ := List.map_eq_cons_iff.mp hArrow
      rw [List.cons_append, List.append_assoc, List.cons_append, List.cons_append]
      exact typeTerm_function hNested hResult final first last arrow place rest
  | generic hFirst hName hNested hEnclosed =>
      obtain ⟨⟨_, word⟩, behind, rfl, rfl, hBehind⟩ := List.map_eq_cons_iff.mp hTokens
      obtain ⟨dotted, opening, behind, rfl, hDotted, hArguments⟩ := eq_append_of_map_kind hBehind
      obtain ⟨arguments, closing, none, rfl, rfl, hNil⟩ := eq_append_of_map_kind hArguments
      obtain rfl := List.map_eq_nil_iff.mp hNil
      rw [List.cons_append, List.append_assoc, List.cons_append, List.append_assoc, List.singleton_append]
      exact typeTerm_generic hFirst hName hDotted hNested hEnclosed final word opening closing place rest
  | intersection hFirst hFurther =>
      obtain ⟨first, further, rfl, rfl, rfl⟩ := List.map_eq_append_iff.mp hTokens
      rw [List.append_assoc]
      exact typeTerm_intersection hFirst hFurther final place rest
  | operator hWord hStarts hOperand =>
      obtain ⟨⟨_, first⟩, operand, rfl, rfl, rfl⟩ := List.map_eq_cons_iff.mp hTokens
      rw [startsType_unplaced] at hStarts
      exact typeTerm_operator hWord hStarts hOperand final first place rest

end Types

section Properties

variable {final : Position} {tokens behind rest : List Token} {type : TypeTerm} {optional : Bool}

/-- A property behind its name: a question mark or none, the colon, and its type. -/
theorem namedProperty_yields
    (hTokens : tokens.map Token.kind = (if optional then [.mark .question] else []) ++ [.mark .colon])
    (hType : typeTerm.Yields final behind type rest) (name : String) (readonly : Bool) :
    (namedProperty name readonly).Yields final (tokens ++ behind) (some ⟨name, type, optional, readonly⟩) rest := by
  cases optional with
  | false =>
      obtain ⟨⟨_, colon⟩, none, rfl, rfl, hNil⟩ := List.map_eq_cons_iff.mp hTokens
      obtain rfl := List.map_eq_nil_iff.mp hNil
      exact .accept_other_bind (by simp) (.remaining_bind (.expect_bind (hType.map _) _ _))
  | true =>
      obtain ⟨⟨_, question⟩, others, rfl, rfl, hColon⟩ := List.map_eq_cons_iff.mp hTokens
      obtain ⟨⟨_, colon⟩, none, rfl, rfl, hNil⟩ := List.map_eq_cons_iff.mp hColon
      obtain rfl := List.map_eq_nil_iff.mp hNil
      exact .accept_bind (.remaining_bind (.expect_bind (hType.map _) _ _)) _ _

/-- A property is read where its type is. -/
theorem PropertyHead.member_yields (head : PropertyHead) (hTokens : tokens.map Token.kind = head.kinds)
    (hType : typeTerm.Yields final behind type rest) :
    member.Yields final (tokens ++ behind) (some (head.property type)) rest := by
  obtain ⟨readonly, kind, name, hName, optional⟩ := head
  cases readonly with
  | false =>
      obtain ⟨⟨_, place⟩, others, rfl, rfl, hOthers⟩ := List.map_eq_cons_iff.mp hTokens
      have hNext := namesMember_behind_name (by decide) hOthers behind
      rw [List.cons_append, Yields, member_named hName hNext]
      exact namedProperty_yields hOthers hType name false
  | true =>
      obtain ⟨⟨_, modifier⟩, others, rfl, rfl, hNamed⟩ := List.map_eq_cons_iff.mp hTokens
      obtain ⟨⟨_, place⟩, others, rfl, rfl, hOthers⟩ := List.map_eq_cons_iff.mp hNamed
      have hNext := namesMember_behind_name (by decide) hOthers behind
      rw [List.cons_append, List.cons_append, Yields, member_readonly_named hName hNext]
      exact namedProperty_yields hOthers hType name true

/-- Any type that is read up to its semicolon makes a property with its head. -/
theorem PropertyHead.readAsMember (head : PropertyHead) {kinds : List TokenKind} {type : TypeTerm}
    (hType : ∀ final tokens place rest, tokens.map Token.kind = kinds →
      typeTerm.Yields final (tokens ++ ⟨.mark .semicolon, place⟩ :: rest) type (⟨.mark .semicolon, place⟩ :: rest)) :
    ReadAsMember (head.kinds ++ kinds) (some (head.property type)) := by
  intro final tokens place rest hTokens
  obtain ⟨taken, behind, rfl, hTaken, hBehind⟩ := List.map_eq_append_iff.mp hTokens
  rw [List.append_assoc]
  exact head.member_yields hTaken (hType final behind place rest hBehind)

/-- The word for the unknown type is read as such up to its semicolon. -/
theorem typeTerm_unknown (final first place : Position) (rest : List Token) :
    typeTerm.Yields final (⟨.word "unknown", first⟩ :: ⟨.mark .semicolon, place⟩ :: rest) .unknown
      (⟨.mark .semicolon, place⟩ :: rest) :=
  typeTerm_of_primaryType (primaryType_word ⟨[], rfl⟩ first) (by simp)

/-- Both types are read as unknown, so the property stays the same. -/
theorem ReplacesUnknown.keepsProperties {plain revised : List TokenKind} (hReplaces : ReplacesUnknown plain revised) :
    KeepsProperties plain revised := by
  obtain @⟨kinds, head, hType⟩ := hReplaces
  have hPlain : ReadAsMember (head.kinds ++ [.word "unknown"]) (some (head.property .unknown)) := by
    apply head.readAsMember
    intro final tokens place rest hTokens
    obtain ⟨⟨_, first⟩, none, rfl, rfl, hNil⟩ := List.map_eq_cons_iff.mp hTokens
    obtain rfl := List.map_eq_nil_iff.mp hNil
    exact typeTerm_unknown final first place rest
  have hRevised : ReadAsMember (head.kinds ++ kinds) (some (head.property .unknown)) := by
    apply head.readAsMember
    intro final tokens place rest hTokens
    subst hTokens
    exact hType.typeTerm_yields final place rest
  exact .replaced hPlain (head.wellNested_append rfl) hRevised (head.wellNested_append hType.nested)

end Properties

/-- A type without a form of its own does not matter outside its property: a source in which any number of properties
of an object declaration have such types has the declarations that it has with unknown types there, up to their
places. -/
theorem scan_unsupported_types {plain source : String} (hRevises : Revises ReplacesUnknown plain source)
    {found : List Declaration} (hFound : (scan plain).outcome = .ok found) :
    ∃ found', (scan source).outcome = .ok found' ∧
      found'.map Declaration.content = found.map Declaration.content :=
  scan_outcome_of_revises (fun _ _ => ReplacesUnknown.keepsProperties) hRevises hFound

def unknownSample : String := "type A = \x7b readonly x?: unknown; f: unknown; y: number \x7d;"

def typedSample : String :=
  "type A = \x7b readonly x?: Map<string, Set<\x7b a: T; \x7d>>; f: (of: [T, T]) => keyof T; y: number \x7d;"

/-- Type arguments with an object type, which stands in angle brackets of its own. -/
def sampleArguments : List TokenKind :=
  [.word "string", .mark .comma, .word "Set", .mark .less, .mark .openBrace, .word "a", .mark .colon, .word "T",
    .mark .semicolon, .mark .closeBrace, .mark .greater]

def sampleGeneric : List TokenKind :=
  .word "Map" :: (partKinds [] ++ .mark .less :: (sampleArguments ++ [.mark .greater]))

def sampleParameters : List TokenKind :=
  [.word "of", .mark .colon, .mark .openBracket, .word "T", .mark .comma, .word "T", .mark .closeBracket]

def sampleFunction : List TokenKind :=
  .mark .openParen :: (sampleParameters ++ .mark .closeParen :: .mark .arrow :: [.word "keyof", .word "T"])

def sampleOptional : PropertyHead := ⟨true, .word "x", "x", rfl, true⟩

def sampleRequired : PropertyHead := ⟨false, .word "f", "f", rfl, false⟩

def unknownOptional : List Token :=
  [⟨.word "readonly", ⟨1, 12⟩⟩, ⟨.word "x", ⟨1, 21⟩⟩, ⟨.mark .question, ⟨1, 22⟩⟩, ⟨.mark .colon, ⟨1, 23⟩⟩,
    ⟨.word "unknown", ⟨1, 25⟩⟩, ⟨.mark .semicolon, ⟨1, 32⟩⟩]

def unknownRequired : List Token :=
  [⟨.word "f", ⟨1, 34⟩⟩, ⟨.mark .colon, ⟨1, 35⟩⟩, ⟨.word "unknown", ⟨1, 37⟩⟩, ⟨.mark .semicolon, ⟨1, 44⟩⟩]

def sampleOther : List Token :=
  [⟨.word "y", ⟨1, 46⟩⟩, ⟨.mark .colon, ⟨1, 47⟩⟩, ⟨.word "number", ⟨1, 49⟩⟩, ⟨.mark .closeBrace, ⟨1, 56⟩⟩,
    ⟨.mark .semicolon, ⟨1, 57⟩⟩]

theorem tokenize_unknownSample : tokenize unknownSample =
    [⟨.word "type", ⟨1, 1⟩⟩, ⟨.word "A", ⟨1, 6⟩⟩, ⟨.mark .equals, ⟨1, 8⟩⟩] ++ ⟨.mark .openBrace, ⟨1, 10⟩⟩ ::
      (unknownOptional ++ (unknownRequired ++ sampleOther)) :=
  (tokenize_ofList _).trans (by decide +kernel)

/-- Two properties of the sample are revised one after the other, and the third is left alone. -/
theorem membersRevised_typedSample (final : Position) :
    MembersRevised ReplacesUnknown final (unknownOptional ++ (unknownRequired ++ sampleOther))
      (((sampleOptional.kinds ++ sampleGeneric) ++ [.mark .semicolon]) ++
        (((sampleRequired.kinds ++ sampleFunction) ++ [.mark .semicolon]) ++ sampleOther.map Token.kind)) := by
  have hGeneric : UnsupportedType sampleGeneric := .generic (by decide) (by decide) (by decide) (by decide)
  have hFunction : UnsupportedType sampleFunction := .function (by decide) ⟨by decide, _, _, rfl⟩
  have hOptional : ReplacesUnknown (unknownOptional.map Token.kind)
      ((sampleOptional.kinds ++ sampleGeneric) ++ [.mark .semicolon]) := .intro sampleOptional hGeneric
  have hRequired : ReplacesUnknown (unknownRequired.map Token.kind)
      ((sampleRequired.kinds ++ sampleFunction) ++ [.mark .semicolon]) := .intro sampleRequired hFunction
  exact .changed hOptional (.changed hRequired (.same sampleOther))

theorem revises_typedSample : Revises ReplacesUnknown unknownSample typedSample := by
  have hHeading : heading? (tokenize unknownSample) = some (⟨false, "A"⟩, ⟨.mark .equals, ⟨1, 8⟩⟩ ::
      ⟨.mark .openBrace, ⟨1, 10⟩⟩ :: (unknownOptional ++ (unknownRequired ++ sampleOther))) := by
    rw [tokenize_unknownSample]
    rfl
  refine .intro tokenize_unknownSample (.here 0 _) hHeading rfl (membersRevised_typedSample _) ?_
  rw [show tokenize typedSample = _ from tokenize_ofList _]
  decide +kernel

/-- A generic type and a function type in place of unknown types, with a property behind them that is kept. -/
theorem scan_unsupported_types_sample : Revises ReplacesUnknown unknownSample typedSample ∧
    ∃ found, (scan unknownSample).outcome = .ok found ∧
      ∃ found', (scan typedSample).outcome = .ok found' ∧
        found'.map Declaration.content = found.map Declaration.content := by
  have hNames : foundNames? unknownSample = some [("A", ["x", "f", "y"])] :=
    (foundNames?_ofList _).trans (by decide +kernel)
  obtain ⟨found, hFound⟩ := exists_found_of_foundNames? hNames
  exact ⟨revises_typedSample, found, hFound, scan_unsupported_types revises_typedSample hFound⟩

def exposedArguments : List TokenKind :=
  [.word "string", .mark .comma, .mark .openBrace, .word "a", .mark .colon, .word "number", .mark .closeBrace]

def exposedGeneric : List TokenKind :=
  .word "Map" :: .mark .less :: (exposedArguments ++ [.mark .greater])

def shortSample : String := "export type A = \x7b x: unknown; y: number \x7d;"

def exposedSample : String := "export type A = \x7b x: Map<string, \x7b a: number \x7d>; y: number \x7d;"

def operatorSample : String := "export type A = \x7b x: keyof \x7b a: number \x7d; y: number \x7d;"

/-- Matching brackets are not enough: the type arguments end at the brace in them, which is taken for that of the
declaration, and the property behind is lost. An object type behind an operator is refused. -/
theorem scan_loses_sibling_of_exposed_brace :
    wellNested exposedGeneric = true ∧
      (tokenize exposedSample).map Token.kind = ((tokenize shortSample).map Token.kind).take 7 ++ exposedGeneric ++
        ((tokenize shortSample).map Token.kind).drop 8 ∧
      foundNames? shortSample = some [("A", ["x", "y"])] ∧ foundNames? exposedSample = some [("A", ["x"])] ∧
      foundNames? operatorSample = none := by
  refine ⟨by decide, ?_, ?_, ?_, ?_⟩
  · rw [show tokenize exposedSample = _ from tokenize_ofList _, show tokenize shortSample = _ from tokenize_ofList _]
    decide +kernel
  · exact (foundNames?_ofList _).trans (by decide +kernel)
  · exact (foundNames?_ofList _).trans (by decide +kernel)
  · exact (foundNames?_ofList _).trans (by decide +kernel)

end SchemaForge.Grammar
