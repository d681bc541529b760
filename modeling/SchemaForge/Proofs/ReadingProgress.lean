import SchemaForge.Proofs.ReaderRules
import SchemaForge.Proofs.SkippedTokens

/-! Readers only go forward. What a reader leaves is an end of the tokens it was given, so a place that was
passed is not read again. -/
namespace SchemaForge

/-- What is left, if the reading is done, is an end of the tokens. -/
def Reading.LeavesEndOf {α : Type} (tokens : List Token) : Reading α → Prop
  | .done _ rest _ => rest <:+ tokens
  | .refused _ _ => True

namespace Reader

variable {α β : Type}

/-- The reader leaves an end of the tokens it is given. -/
def Advances (reader : Reader α) : Prop :=
  ∀ final tokens, (reader final tokens).LeavesEndOf tokens

/-- What is left of an end of the tokens is an end of all of them. -/
theorem LeavesEndOf.mono {reading : Reading α} {tokens longer : List Token}
    (hEnd : reading.LeavesEndOf tokens) (hSuffix : tokens <:+ longer) : reading.LeavesEndOf longer := by
  cases reading with
  | done value rest warnings => exact List.IsSuffix.trans hEnd hSuffix
  | refused error warnings => trivial

/-- Warnings that were raised before do not change what is left. -/
theorem leavesEndOf_after {reading : Reading α} {tokens : List Token} (hEnd : reading.LeavesEndOf tokens)
    (earlier : List Warning) : (reading.after earlier).LeavesEndOf tokens := by
  cases reading with
  | done value rest warnings => exact hEnd
  | refused error warnings => trivial

/-- The form in which an advancing reader is used once a reading of it is known. -/
theorem Advances.of_done {reader : Reader α} (hReader : Advances reader) {final : Position} {tokens rest : List Token}
    {value : α} {warnings : List Warning} (hDone : reader final tokens = .done value rest warnings) :
    rest <:+ tokens := by
  have hEnd := hReader final tokens
  rwa [hDone] at hEnd

/-- Only the first reader has to be looked at on these very tokens; the second starts wherever it ended. -/
theorem leavesEndOf_bind {first : Reader α} {next : α → Reader β} {final : Position} {tokens : List Token}
    (hFirst : (first final tokens).LeavesEndOf tokens) (hNext : ∀ value, Advances (next value)) :
    ((first >>= next) final tokens).LeavesEndOf tokens := by
  change (andThen first next final tokens).LeavesEndOf tokens
  unfold andThen
  cases hReading : first final tokens with
  | refused error warnings => trivial
  | done value rest warnings =>
      rw [hReading] at hFirst
      exact leavesEndOf_after (LeavesEndOf.mono (hNext value final rest) hFirst) warnings

/-- Readers that advance do so one after the other, since an end of an end is an end. -/
theorem Advances.bind {first : Reader α} {next : α → Reader β} (hFirst : Advances first)
    (hNext : ∀ value, Advances (next value)) : Advances (first >>= next) :=
  fun final tokens => leavesEndOf_bind (hFirst final tokens) hNext

theorem Advances.pure (value : α) : Advances (pure value) :=
  fun _ _ => List.suffix_rfl

theorem Advances.warn (warning : Warning) : Advances (warn warning) :=
  fun _ _ => List.suffix_rfl

theorem Advances.place : Advances place := by
  intro final tokens
  cases tokens <;> exact List.suffix_rfl

theorem Advances.refuse (problem : SyntaxProblem) : Advances (refuse problem : Reader α) := by
  intro final tokens
  cases tokens <;> trivial

theorem Advances.refuseNext (expected : Expectation) : Advances (refuseNext expected : Reader α) :=
  fun final tokens => Advances.refuse _ final tokens

/-- The mark is taken or left; both leave an end. -/
theorem Advances.accept (mark : Mark) : Advances (accept mark) := by
  intro final tokens
  cases tokens with
  | nil => exact List.suffix_rfl
  | cons token rest =>
      by_cases hMark : token.kind = .mark mark
      · simp [Reader.accept, hMark, Reading.LeavesEndOf]
      · simp [Reader.accept, hMark, Reading.LeavesEndOf]

theorem Advances.ite {condition : Prop} [Decidable condition] {yes no : Reader α} (hYes : Advances yes)
    (hNo : Advances no) : Advances (if condition then yes else no) := by
  split
  · exact hYes
  · exact hNo

/-- Looking for a mark and going on either way, which is how the grammar decides. -/
theorem Advances.if_accepted {mark : Mark} {yes no : Reader α} (hYes : Advances yes) (hNo : Advances no) :
    Advances (Reader.accept mark >>= fun accepted => if accepted then yes else no) :=
  (Advances.accept mark).bind fun _ => hYes.ite hNo

/-- A mark that is demanded is taken, or the reading is refused. -/
theorem Advances.expectAs (mark : Mark) (expected : Expectation) : Advances (expectAs mark expected) :=
  Advances.if_accepted (Advances.pure ()) (Advances.refuseNext expected)

theorem Advances.expect (mark : Mark) : Advances (expect mark) :=
  Advances.expectAs mark _

/-- A reader that looks at all tokens that are left. -/
theorem Advances.remaining_bind {next : List Token → Reader α}
    (hNext : ∀ final tokens, (next tokens final tokens).LeavesEndOf tokens) : Advances (remaining >>= next) := by
  intro final tokens
  rw [Reader.remaining_bind]
  exact hNext final tokens

/-- A choice that depends on the tokens that are left. -/
theorem Advances.if_remaining {look : List Token → Bool} {yes no : Reader α} (hYes : Advances yes)
    (hNo : Advances no) : Advances (remaining >>= fun tokens => if look tokens then yes else no) :=
  Advances.remaining_bind fun final tokens => (hYes.ite hNo) final tokens

/-- Going on behind some tokens of those that are left. -/
theorem leavesEndOf_continueAt_bind {next : Unit → Reader α} (hNext : Advances (next ())) {rest tokens : List Token}
    (hSuffix : rest <:+ tokens) (final : Position) :
    ((continueAt rest >>= next) final tokens).LeavesEndOf tokens := by
  rw [continueAt_bind]
  exact LeavesEndOf.mono (hNext final rest) hSuffix

/-- A warning takes no token, so the reader behind it starts where the warning was raised. -/
theorem leavesEndOf_warn_bind {next : Unit → Reader α} {final : Position} {tokens : List Token}
    (hNext : (next () final tokens).LeavesEndOf tokens) (warning : Warning) :
    ((Reader.warn warning >>= next) final tokens).LeavesEndOf tokens :=
  leavesEndOf_after hNext [warning]

/-- Tokens passed over without reading them are a loss at the front, so what is left stays an end. -/
theorem Advances.skip_bind {skip : List Token → List Token} (hSkip : ∀ tokens, skip tokens <:+ tokens)
    {next : List Token → Unit → Reader α} (hNext : ∀ tokens, Advances (next tokens ())) :
    Advances (remaining >>= fun tokens => continueAt (skip tokens) >>= next tokens) :=
  Advances.remaining_bind fun final tokens => leavesEndOf_continueAt_bind (hNext tokens) (hSkip tokens) final

/-- The induction is on the bound of the loop: every round leaves an end of what the round before left. -/
theorem Advances.eachAfter {mark : Mark} {item : Reader α} (hItem : Advances item) (bound : Nat) :
    Advances (eachAfter mark item bound) := by
  induction bound with
  | zero => exact Advances.pure []
  | succ bound ih =>
      exact Advances.if_accepted (hItem.bind fun _ => ih.bind fun _ => Advances.pure _) (Advances.pure [])

end Reader

namespace Grammar

open Reader

/-- Passing over a member never goes back, whatever brackets it counts. -/
theorem skipMember_suffix (depth : Nat) (tokens : List Token) : skipMember depth tokens <:+ tokens :=
  skipMember_eq_skipTokens depth tokens ▸ skipTokens_suffix _ _ _

/-- Passing over a bracketed group stops behind the group or at the end of the tokens. -/
theorem skipGroup_suffix (opening closing : Mark) (depth : Nat) (tokens : List Token) :
    skipGroup opening closing depth tokens <:+ tokens :=
  skipGroup_eq_skipTokens opening closing depth tokens ▸ skipTokens_suffix _ _ _

/-- A group takes at least the mark that opens it. -/
theorem length_skipGroup_le (opening closing : Mark) (place : Position) (rest : List Token) :
    (skipGroup opening closing 0 (⟨.mark opening, place⟩ :: rest)).length ≤ rest.length := by
  rw [skipGroup, if_pos rfl]
  exact (skipGroup_suffix opening closing _ rest).length_le

/-- Passing over type arguments stops behind them, in front of what cannot belong to them, or at the end. -/
theorem skipArguments_suffix (depth : Nat) (tokens : List Token) : skipArguments depth tokens <:+ tokens :=
  skipArguments_eq_skipTokens depth tokens ▸ skipTokens_suffix _ _ _

theorem skipSeparators_suffix (tokens : List Token) : skipSeparators tokens <:+ tokens :=
  skipSeparators_eq_skipTokens tokens ▸ skipTokens_suffix _ _ _

/-- Each pair of square brackets behind an operand is taken off the front. -/
theorem arraySuffixes_suffix (term : TypeTerm) (tokens : List Token) : (arraySuffixes term tokens).2 <:+ tokens := by
  fun_induction arraySuffixes term tokens with
  | case1 term opening closing rest ih => exact (ih.trans (List.suffix_cons _ _)).trans (List.suffix_cons _ _)
  | case2 term rest => exact List.suffix_rfl

/-- The further parts of a dotted name are taken off the front, two tokens at a time. -/
theorem dottedParts_suffix (name : String) (tokens : List Token) : (dottedParts name tokens).2 <:+ tokens := by
  fun_induction dottedParts name tokens with
  | case1 name dot part place rest ih => exact (ih.trans (List.suffix_cons _ _)).trans (List.suffix_cons _ _)
  | case2 name rest => exact List.suffix_rfl

/-- The label of a tuple element, if there is one, is taken off the front. -/
theorem skipLabel_suffix (tokens : List Token) : skipLabel tokens <:+ tokens := by
  unfold skipLabel
  split
  · exact (List.suffix_cons _ _).trans (List.suffix_cons _ _)
  · exact ((List.suffix_cons _ _).trans (List.suffix_cons _ _)).trans (List.suffix_cons _ _)
  · exact List.suffix_rfl

theorem skipReadonly_suffix (tokens : List Token) : (skipReadonly tokens).2 <:+ tokens := by
  unfold skipReadonly
  split
  · split
    · exact List.suffix_cons _ _
    · exact List.suffix_rfl
  · exact List.suffix_rfl

/-- The words that stand for a type that is kept. -/
def keywordTypes : List (String × TypeTerm) :=
  [("string", .primitive .string), ("number", .primitive .number), ("boolean", .primitive .boolean),
    ("null", .literal .null), ("true", .literal (.bool true)), ("false", .literal (.bool false)),
    ("object", .anyObject)]

def unsupportedWords : List String :=
  ["undefined", "never", "void", "bigint", "symbol"]

def operatorWords : List String :=
  ["keyof", "typeof", "unique", "infer"]

def typeWords : List String :=
  keywordTypes.map Prod.fst ++ ["any", "unknown"] ++ unsupportedWords

/-- What the word at the start of a type makes of it, given whether an operand can follow: the reader of the type in
terms of the reader for operands. -/
inductive WordUse (word : String) (follows : Bool) : (Reader TypeTerm → Reader TypeTerm) → Prop where
  | keyword {term : TypeTerm} (hWord : (word, term) ∈ keywordTypes) : WordUse word follows fun _ => return term
  | unknown (hWord : word = "any" ∨ word = "unknown") : WordUse word follows fun _ => return .unknown
  | unsupported (hWord : word ∈ unsupportedWords) : WordUse word follows fun _ => do
      warn (.unsupportedKeyword word)
      return .unknown
  | modifier (hWord : word = "readonly") (hNext : follows = true) : WordUse word follows fun operand => operand
  | operator (hWord : word ∈ operatorWords) (hNext : follows = true) : WordUse word follows fun operand => do
      let _ ← operand
      warn (.typeOperator word)
      return .unknown
  | reference (hWord : word ∉ typeWords) (hNext : word ∈ "readonly" :: operatorWords → follows = false) :
      WordUse word follows fun operand => referenceTo operand word

/-- Every word at the start of a type has one of these uses. The tokens behind it matter only as far as an operand can
start with them. -/
theorem exists_wordUse (word : String) (follows : Bool) :
    ∃ use, WordUse word follows use ∧ ∀ operand final tokens, startsType tokens = follows →
      namedType operand word final tokens = use operand final tokens := by
  by_cases hKeyword : ∃ term, (word, term) ∈ keywordTypes
  · obtain ⟨term, hTerm⟩ := hKeyword
    refine ⟨_, .keyword hTerm, fun operand final tokens hStarts => ?_⟩
    rw [namedType, remaining_bind]
    simp only [keywordTypes, List.mem_cons, Prod.mk.injEq, List.not_mem_nil, or_false] at hTerm
    rcases hTerm with ⟨rfl, rfl⟩ | ⟨rfl, rfl⟩ | ⟨rfl, rfl⟩ | ⟨rfl, rfl⟩ | ⟨rfl, rfl⟩ | ⟨rfl, rfl⟩ | ⟨rfl, rfl⟩ <;> rfl
  by_cases hUnknown : word = "any" ∨ word = "unknown"
  · refine ⟨_, .unknown hUnknown, fun operand final tokens hStarts => ?_⟩
    rw [namedType, remaining_bind]
    rcases hUnknown with rfl | rfl <;> rfl
  by_cases hUnsupported : word ∈ unsupportedWords
  · refine ⟨_, .unsupported hUnsupported, fun operand final tokens hStarts => ?_⟩
    rw [namedType, remaining_bind]
    simp only [unsupportedWords, List.mem_cons, List.not_mem_nil, or_false] at hUnsupported
    rcases hUnsupported with rfl | rfl | rfl | rfl | rfl <;> rfl
  by_cases hModifier : word = "readonly" ∧ follows = true
  · obtain ⟨rfl, hNext⟩ := hModifier
    refine ⟨_, .modifier rfl hNext, fun operand final tokens hStarts => ?_⟩
    rw [namedType, remaining_bind, hStarts, hNext]
    rfl
  by_cases hOperator : word ∈ operatorWords ∧ follows = true
  · obtain ⟨hWord, hNext⟩ := hOperator
    refine ⟨_, .operator hWord hNext, fun operand final tokens hStarts => ?_⟩
    rw [namedType, remaining_bind, hStarts, hNext]
    simp only [operatorWords, List.mem_cons, List.not_mem_nil, or_false] at hWord
    rcases hWord with rfl | rfl | rfl | rfl <;> rfl
  -- What is left is the start of a reference, an operator without an operand included.
  have hOther : word ∉ typeWords := by
    simp only [typeWords, List.mem_append, List.mem_map, Prod.exists, exists_and_right, exists_eq_right, not_or]
    exact ⟨⟨hKeyword, by simpa using hUnknown⟩, hUnsupported⟩
  refine ⟨_, .reference hOther fun hWord => ?_, fun operand final tokens hStarts => ?_⟩
  · rcases List.mem_cons.mp hWord with rfl | hAmong
    · exact Bool.eq_false_iff.mpr fun hNext => hModifier ⟨rfl, hNext⟩
    · exact Bool.eq_false_iff.mpr fun hNext => hOperator ⟨hAmong, hNext⟩
  · rw [namedType, remaining_bind, hStarts]
    simp only [typeWords, keywordTypes, unsupportedWords, List.map_cons, List.map_nil, List.cons_append, List.nil_append,
      List.mem_cons, List.not_mem_nil, or_false, not_or] at hOther
    simp only [operatorWords, List.mem_cons, List.not_mem_nil, or_false] at hOperator
    simp [hOther, hModifier, hOperator]

section Types

variable {operand : Reader TypeTerm} (hOperand : Advances operand)

theorem advances_suffixed (term : TypeTerm) : Advances (suffixed term) :=
  Advances.skip_bind (arraySuffixes_suffix term) fun _ => Advances.pure _

include hOperand

/-- The operands of an intersection are read one after the other, so it advances if they do. -/
theorem advances_intersectionTail (first : TypeTerm) : Advances (intersectionTail operand first) := by
  refine Advances.remaining_bind fun final tokens => leavesEndOf_bind (hOperand.eachAfter _ final tokens) fun _ => ?_
  exact Advances.ite (Advances.pure _) (Advances.place.bind fun _ => (Advances.warn _).bind fun _ => Advances.pure _)

theorem advances_intersection : Advances (intersection operand) :=
  hOperand.bind (advances_intersectionTail hOperand)

/-- The members of a union are read by the reader for intersections, each behind a bar. -/
theorem advances_unionTail (first : TypeTerm) : Advances (unionTail operand first) := by
  refine Advances.remaining_bind fun final tokens =>
    leavesEndOf_bind ((advances_intersection hOperand).eachAfter _ final tokens) fun _ => ?_
  exact Advances.ite (Advances.pure _) (Advances.pure _)

/-- A type in full may start with a bar, which is taken before its members. -/
theorem advances_wholeType : Advances (wholeType operand) :=
  (Advances.accept .pipe).bind fun _ => (advances_intersection hOperand).bind (advances_unionTail hOperand)

/-- A reference reads the parts of its name and then reads or passes over its type arguments. -/
theorem advances_referenceTo (first : String) : Advances (referenceTo operand first) := by
  have hDegrade (name : String) : Advances (do
      continueAt (skipArguments 0 (← remaining))
      warn (.genericArguments name)
      return TypeTerm.unknown) :=
    Advances.skip_bind (skipArguments_suffix 0) fun _ => (Advances.warn _).bind fun _ => Advances.pure _
  refine Advances.skip_bind (dottedParts_suffix first) fun tokens => ?_
  split
  · refine Advances.ite ?_ (hDegrade _)
    exact (Advances.accept .less).bind fun _ => (advances_wholeType hOperand).bind fun _ =>
      Advances.if_accepted (Advances.pure _) (hDegrade _)
  · exact Advances.pure _

/-- There is one case for each use of a word; only modifiers, operators and references read on with the operand. -/
theorem advances_namedType (word : String) : Advances (namedType operand word) := by
  have hWarned (warning : Warning) : Advances (do warn warning; return TypeTerm.unknown) :=
    (Advances.warn warning).bind fun _ => Advances.pure _
  intro final tokens
  obtain ⟨use, hUse, hNamed⟩ := exists_wordUse word (startsType tokens)
  rw [hNamed operand final tokens rfl]
  cases hUse with
  | keyword hWord => exact Advances.pure _ final tokens
  | unknown hWord => exact Advances.pure _ final tokens
  | unsupported hWord => exact hWarned _ final tokens
  | modifier hWord hNext => exact hOperand final tokens
  | operator hWord hNext => exact (hOperand.bind fun _ => hWarned _) final tokens
  | reference hWord hNext => exact advances_referenceTo hOperand word final tokens

omit hOperand in
theorem advances_addElement (elements : List TypeTerm) (rest : Option TypeTerm) (spread : Bool)
    (element : TypeTerm) : Advances (addElement elements rest spread element) := by
  unfold addElement
  cases rest <;> cases spread
  · exact Advances.pure _
  · exact Advances.pure _
  · exact (Advances.warn _).bind fun _ => Advances.pure _
  · exact (Advances.warn _).bind fun _ => Advances.pure _

/-- The induction is on the bound. A round reads an element behind its label and what separates it from the next. -/
theorem advances_tupleElements (bound : Nat) (elements : List TypeTerm) (rest : Option TypeTerm) :
    Advances (tupleElements operand bound elements rest) := by
  induction bound generalizing elements rest with
  | zero => exact Advances.refuseNext _
  | succ bound ih =>
      refine Advances.if_accepted (Advances.pure _) ((Advances.accept _).bind fun spread => ?_)
      refine Advances.skip_bind skipLabel_suffix fun _ => (advances_wholeType hOperand).bind fun element => ?_
      refine (Advances.accept _).bind fun _ => (advances_addElement _ _ _ _).bind fun added => ?_
      exact Advances.if_accepted (ih _ _) ((Advances.expectAs _ _).bind fun _ => Advances.pure _)

theorem advances_tupleType : Advances (tupleType operand) :=
  (Advances.expect _).bind fun _ => Advances.remaining_bind fun final tokens =>
    advances_tupleElements hOperand _ _ _ final tokens

/-- Parameters of a function type are passed over before its result is read; other parentheses enclose a type. -/
theorem advances_parenthesized : Advances (parenthesized operand) := by
  refine Advances.remaining_bind fun final tokens => ?_
  have hWhole := advances_wholeType hOperand
  split
  · refine leavesEndOf_continueAt_bind ?_ (skipGroup_suffix _ _ _ _) final
    exact (Advances.expect _).bind fun _ => hWhole.bind fun _ => Advances.place.bind fun _ =>
      (Advances.warn _).bind fun _ => Advances.pure _
  · exact ((Advances.expect _).bind fun _ => hWhole.bind fun _ =>
      (Advances.expect _).bind fun _ => Advances.pure _) final tokens

/-- An operand without suffixes, by the kind of token it starts with. -/
theorem advances_primaryType : Advances (primaryType operand) := by
  refine Advances.remaining_bind fun final tokens => ?_
  rcases tokens with _ | ⟨⟨kind, position⟩, rest⟩
  · exact Advances.refuseNext _ final []
  have hFirst {next : Unit → Reader TypeTerm} (hNext : Advances (next ())) :
      ((continueAt rest >>= next) final (⟨kind, position⟩ :: rest)).LeavesEndOf (⟨kind, position⟩ :: rest) :=
    leavesEndOf_continueAt_bind hNext (List.suffix_cons _ _) final
  cases kind with
  | word name => exact hFirst (advances_namedType hOperand name)
  | text value => exact hFirst (Advances.pure _)
  | number value => exact hFirst (Advances.pure _)
  | template => exact hFirst ((Advances.warn _).bind fun _ => Advances.pure _)
  | other c => exact Advances.refuseNext _ final _
  | mark mark =>
      cases mark with
      | openBracket => exact advances_tupleType hOperand final _
      | openParen => exact advances_parenthesized hOperand final _
      | openBrace =>
          refine leavesEndOf_warn_bind ?_ _
          exact leavesEndOf_continueAt_bind (Advances.pure _) (skipGroup_suffix _ _ _ _) final
      | minus =>
          dsimp only
          split
          · refine leavesEndOf_continueAt_bind (Advances.pure _) ?_ final
            exact (List.suffix_cons _ _).trans (List.suffix_cons _ _)
          · exact Advances.refuse _ final _
      | _ => exact Advances.refuseNext _ final _

end Types

/-- The induction is on the depth of nesting, at the bottom of which everything is refused. -/
theorem advances_operandWithin (depth : Nat) : Advances (operandWithin depth) := by
  induction depth with
  | zero => exact Advances.refuseNext _
  | succ depth ih => exact (advances_primaryType ih).bind advances_suffixed

theorem advances_operandType : Advances operandType :=
  Advances.remaining_bind fun final tokens => advances_operandWithin _ final tokens

theorem advances_typeTerm : Advances typeTerm :=
  advances_wholeType advances_operandType

/-- A member that is given up is passed over as a whole and reported. -/
theorem advances_skipped (warning : Warning) : Advances (skipped warning) :=
  (Advances.warn warning).bind fun _ => Advances.skip_bind (skipMember_suffix 0) fun _ => Advances.pure none

theorem advances_namedProperty (name : String) (readonly : Bool) : Advances (namedProperty name readonly) := by
  refine (Advances.accept _).bind fun optional => Advances.if_remaining (advances_skipped _) ?_
  exact (Advances.expect _).bind fun _ => advances_typeTerm.bind fun _ => Advances.pure _

def modifiedMember (readonly : Bool) (tokens : List Token) : Reader (Option Property) := do
  if startsAccessor tokens then skipped (.accessor (← place).line)
  else
    match tokens with
    | ⟨.word name, _⟩ :: rest =>
        continueAt rest
        namedProperty name readonly
    | ⟨.text name, _⟩ :: rest =>
        continueAt rest
        namedProperty name readonly
    | ⟨.number value, _⟩ :: rest =>
        continueAt rest
        namedProperty value.literalText readonly
    | ⟨.mark .openBracket, _⟩ :: _ => skipped (.indexOrCallSignature (← place).line)
    | ⟨.mark .openParen, _⟩ :: _ => skipped (.indexOrCallSignature (← place).line)
    | ⟨.mark .less, _⟩ :: _ => skipped (.indexOrCallSignature (← place).line)
    | _ => refuseNext .propertyName

/-- The reader of a member with its two decisions, on a mapping and on a modifier, made on the tokens themselves. -/
theorem member_apply (final : Position) (tokens : List Token) :
    member final tokens =
      if startsMapping tokens then (do skipped (.mappedMember (← place).line)) final tokens
      else modifiedMember (skipReadonly tokens).1 (skipReadonly tokens).2 final (skipReadonly tokens).2 := by
  rw [member, remaining_bind]
  split
  · rfl
  · rw [remaining_bind]
    exact continueAt_bind _ _ _ _

/-- A modifier is passed over first, so the member proper starts at an end of the tokens. -/
theorem advances_member : Advances member := by
  have hSkipped (warning : Position → Warning) : Advances (do skipped (warning (← place))) :=
    Advances.place.bind fun _ => advances_skipped _
  intro final tokens
  rw [member_apply]
  split
  · exact hSkipped _ final tokens
  refine LeavesEndOf.mono ?_ (skipReadonly_suffix tokens)
  generalize (skipReadonly tokens).1 = readonly, (skipReadonly tokens).2 = named
  unfold modifiedMember
  split
  · exact hSkipped _ final named
  split
  · exact leavesEndOf_continueAt_bind (advances_namedProperty _ _) (List.suffix_cons _ _) final
  · exact leavesEndOf_continueAt_bind (advances_namedProperty _ _) (List.suffix_cons _ _) final
  · exact leavesEndOf_continueAt_bind (advances_namedProperty _ _) (List.suffix_cons _ _) final
  · exact hSkipped _ final _
  · exact hSkipped _ final _
  · exact hSkipped _ final _
  · exact Advances.refuseNext _ final _

/-- The induction is on the bound: a round takes separators and then a member, or the closing brace. -/
theorem advances_members (bound : Nat) : Advances (members bound) := by
  induction bound with
  | zero => exact Advances.refuse _
  | succ bound ih =>
      refine Advances.skip_bind skipSeparators_suffix fun _ => Advances.if_remaining (Advances.refuse _) ?_
      refine Advances.if_accepted (Advances.pure _) (advances_member.bind fun property => ?_)
      exact Advances.if_remaining (ih.bind fun _ => Advances.pure _) (Advances.refuseNext _)

theorem advances_objectType : Advances objectType :=
  (Advances.expect _).bind fun _ => Advances.remaining_bind fun final tokens => advances_members _ final tokens

/-- What an object type is continued with is read and given up. -/
theorem advances_continuedType : Advances continuedType :=
  (advances_suffixed _).bind fun _ => (advances_intersectionTail advances_operandType _).bind
    (advances_unionTail advances_operandType)

def objectBodyEnd (name : String) (properties : List Property) : Reader Body := do
  if continuesType (← remaining) then
    warn (.objectCombined name)
    return .alias (← continuedType)
  else return .object properties

theorem advances_objectBodyEnd (name : String) (properties : List Property) :
    Advances (objectBodyEnd name properties) := by
  refine Advances.if_remaining ?_ (Advances.pure _)
  exact (Advances.warn _).bind fun _ => advances_continuedType.bind fun _ => Advances.pure _

def objectBody (name : String) : Reader Body := do
  objectBodyEnd name (← objectType)

/-- The reader of a body with its decision, on an opening brace, made on the tokens themselves. -/
theorem body_apply (name : String) (final : Position) (tokens : List Token) :
    body name final tokens =
      if tokens.head?.map Token.kind = some (.mark .openBrace) then objectBody name final tokens
      else (do return Body.alias (← typeTerm)) final tokens := by
  rw [body, remaining_bind]
  generalize tokens.head?.map Token.kind = head
  rcases head with _ | kind
  · rfl
  · cases kind with
    | mark mark => cases mark <;> rfl
    | _ => rfl

theorem advances_body (name : String) : Advances (body name) := by
  intro final tokens
  rw [body_apply]
  split
  · exact (advances_objectType.bind (advances_objectBodyEnd name)) final tokens
  · exact (advances_typeTerm.bind fun _ => Advances.pure _) final tokens

def startsParameters (tokens : List Token) : Bool :=
  tokens.head?.map Token.kind == some (.mark .less)

def skipParameters (tokens : List Token) : List Token :=
  if startsParameters tokens then skipGroup .less .greater 0 tokens else tokens

/-- Reads what follows the body of a declaration. A body with type parameters is not kept. -/
def definitionEnd (heading : Heading) (generic : Bool) (contents : Body) : Reader Body := do
  if generic then warn (.genericDeclaration heading.name)
  let _ ← accept .semicolon
  return if generic then .alias .unknown else contents

def definition (heading : Heading) (generic : Bool) : Reader Body := do
  expect .equals
  definitionEnd heading generic (← body heading.name)

/-- The reader of a declaration behind its type parameters, which are passed over in one step. -/
theorem declaration_apply (position : Position) (heading : Heading) (final : Position) (tokens : List Token) :
    declaration position heading final tokens =
      (definition heading (startsParameters tokens) >>= fun contents =>
        pure ⟨heading.name, heading.exported, contents, position⟩) final (skipParameters tokens) := by
  have hForm : declaration position heading final tokens =
      (if startsParameters tokens then
        continueAt (skipGroup .less .greater 0 tokens) >>= fun _ =>
          definition heading (startsParameters tokens) >>= fun contents =>
            pure ⟨heading.name, heading.exported, contents, position⟩
      else
        definition heading (startsParameters tokens) >>= fun contents =>
          pure ⟨heading.name, heading.exported, contents, position⟩) final tokens := by
    cases hGeneric : startsParameters tokens with
    | true =>
        have hHead : (tokens.head?.map Token.kind == some (.mark .less)) = true := hGeneric
        simp only [declaration, remaining_bind, hHead, if_true, definition, definitionEnd, bind_assoc, pure_bind]
    | false =>
        have hHead : (tokens.head?.map Token.kind == some (.mark .less)) = false := hGeneric
        simp only [declaration, remaining_bind, hHead, Bool.false_eq_true, if_false, definition, definitionEnd,
          bind_assoc, pure_bind]
  rw [hForm, skipParameters]
  split
  · exact continueAt_bind _ _ _ _
  · rfl

/-- Type parameters are passed over as a group in angle brackets, and only where there are some. -/
theorem skipParameters_suffix (tokens : List Token) : skipParameters tokens <:+ tokens := by
  unfold skipParameters
  split
  · exact skipGroup_suffix _ _ _ _
  · exact List.suffix_rfl

theorem advances_definitionEnd (heading : Heading) (generic : Bool) (contents : Body) :
    Advances (definitionEnd heading generic contents) := by
  have hEnd (found : Body) : Advances (do let _ ← accept .semicolon; return found) :=
    (Advances.accept _).bind fun _ => Advances.pure found
  exact Advances.ite ((Advances.warn _).bind fun _ => hEnd _) (hEnd _)

theorem advances_definition (heading : Heading) (generic : Bool) : Advances (definition heading generic) :=
  (Advances.expect _).bind fun _ => (advances_body _).bind (advances_definitionEnd heading generic)

/-- A declaration never reads a token twice: what is scanned next lies behind it. -/
theorem advances_declaration (position : Position) (heading : Heading) :
    Advances (declaration position heading) := by
  intro final tokens
  rw [declaration_apply]
  have hRead := ((advances_definition heading (startsParameters tokens)).bind fun contents =>
    Advances.pure (⟨heading.name, heading.exported, contents, position⟩ : Declaration)) final (skipParameters tokens)
  exact LeavesEndOf.mono hRead (skipParameters_suffix tokens)

end Grammar

end SchemaForge
