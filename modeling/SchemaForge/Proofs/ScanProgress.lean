import Mathlib.Data.Nat.PSub
import SchemaForge.Proofs.EndingLoops
import SchemaForge.Proofs.ScanSteps

/-! Scanning makes progress and tells real places. Every reader of the grammar goes forward in the source and stays in
it, and those that read something take a token. Depths that are counted down never go below zero. A source that is
refused is refused at one of its tokens, which does not stand before the declaration that is being read. -/
namespace SchemaForge

/-- From any place in the source the reader goes on to a place in it that is at least so many tokens further on. -/
def Reader.MovesIn {α : Type} (source : List Token) (least : Nat) (reader : Reader α) : Prop :=
  ∀ place final value rest warnings, place ≤ source.length →
    reader final (source.drop place) = .done value rest warnings →
      ∃ later, place + least ≤ later ∧ later ≤ source.length ∧ rest = source.drop later

namespace Reader

variable {α : Type} {source : List Token} {reader : Reader α}

/-- An end of what stands behind a place begins at a later place. -/
theorem exists_place_of_suffix {rest : List Token} {place least : Nat} (hPlace : place ≤ source.length)
    (hSuffix : rest <:+ source.drop place) (hLength : rest.length + least ≤ (source.drop place).length) :
    ∃ later, place + least ≤ later ∧ later ≤ source.length ∧ rest = source.drop later := by
  refine ⟨source.length - rest.length, ?_, Nat.sub_le _ _, ?_⟩
  · rw [List.length_drop] at hLength
    omega
  · exact List.suffix_iff_eq_drop.mp (hSuffix.trans (List.drop_suffix place source))

/-- What is left is an end of what was left before, so it is a place in the same source. -/
theorem Advances.movesIn (hAdvances : Advances reader) (source : List Token) : reader.MovesIn source 0 := by
  intro place final value rest warnings hPlace hDone
  have hSuffix := hAdvances.of_done hDone
  exact exists_place_of_suffix hPlace hSuffix hSuffix.length_le

theorem Takes.movesIn (hTakes : Takes reader) (hAdvances : Advances reader) (source : List Token) :
    reader.MovesIn source 1 := by
  intro place final value rest warnings hPlace hDone
  have hTaken := hTakes final (source.drop place)
  rw [hDone] at hTaken
  exact exists_place_of_suffix hPlace (hAdvances.of_done hDone) hTaken

end Reader

namespace Grammar

open Reader

/-- The rules of the grammar as readers, each with the number of tokens that it takes at least when it succeeds. -/
inductive Rule : {α : Type} → Nat → Reader α → Prop where
  | accept (mark : Mark) : Rule 0 (accept mark)
  | expect (mark : Mark) (expected : Expectation) : Rule 1 (expectAs mark expected)
  | skipMember (depth : Nat) : Rule 0 (do continueAt (skipMember depth (← remaining)))
  | skipGroup (opening closing : Mark) (depth : Nat) :
      Rule 0 (do continueAt (skipGroup opening closing depth (← remaining)))
  | skipArguments (depth : Nat) : Rule 0 (do continueAt (skipArguments depth (← remaining)))
  | skipSeparators : Rule 0 (do continueAt (skipSeparators (← remaining)))
  | suffixes (term : TypeTerm) : Rule 0 (suffixed term)
  | intersectionTail (first : TypeTerm) : Rule 0 (intersectionTail operandType first)
  | intersection : Rule 1 (intersection operandType)
  | unionTail (first : TypeTerm) : Rule 0 (unionTail operandType first)
  | type : Rule 1 typeTerm
  | continuedType : Rule 0 continuedType
  | operand : Rule 1 operandType
  | primary : Rule 1 (primaryType operandType)
  | named (word : String) : Rule 0 (namedType operandType word)
  | reference (first : String) : Rule 0 (referenceTo operandType first)
  | tuple : Rule 1 (tupleType operandType)
  | parenthesized : Rule 1 (parenthesized operandType)
  | object : Rule 1 objectType
  | member : Rule 1 member
  | namedProperty (name : String) (readonly : Bool) : Rule 0 (namedProperty name readonly)
  | skipped (warning : Warning) : Rule 0 (skipped warning)
  | body (name : String) : Rule 1 (body name)
  | declaration (position : Position) (heading : Heading) : Rule 1 (declaration position heading)

/-- Passing over tokens is a reader that advances, if what is left is an end. -/
theorem advances_skipping {skip : List Token → List Token} (hSkip : ∀ tokens, skip tokens <:+ tokens) :
    Advances (do continueAt (skip (← remaining))) := by
  intro final tokens
  rw [remaining_bind]
  exact hSkip tokens

/-- There is one case for each rule of the grammar. -/
theorem Rule.movesIn {α : Type} {least : Nat} {reader : Reader α} (hRule : Rule least reader)
    (source : List Token) : reader.MovesIn source least := by
  have hOperand := advances_operandType
  have hTakes := takes_operandType
  cases hRule with
  | accept mark => exact (Advances.accept mark).movesIn source
  | expect mark expected => exact (Takes.expectAs mark expected).movesIn (Advances.expectAs mark expected) source
  | skipMember depth => exact (advances_skipping (skipMember_suffix depth)).movesIn source
  | skipGroup opening closing depth =>
      exact (advances_skipping (skipGroup_suffix opening closing depth)).movesIn source
  | skipArguments depth => exact (advances_skipping (skipArguments_suffix depth)).movesIn source
  | skipSeparators => exact (advances_skipping skipSeparators_suffix).movesIn source
  | suffixes term => exact (advances_suffixed term).movesIn source
  | intersectionTail first => exact (advances_intersectionTail hOperand first).movesIn source
  | intersection => exact (takes_intersection hTakes hOperand).movesIn (advances_intersection hOperand) source
  | unionTail first => exact (advances_unionTail hOperand first).movesIn source
  | type => exact takes_typeTerm.movesIn advances_typeTerm source
  | continuedType => exact advances_continuedType.movesIn source
  | operand => exact hTakes.movesIn hOperand source
  | primary => exact (takes_primaryType hOperand).movesIn (advances_primaryType hOperand) source
  | named word => exact (advances_namedType hOperand word).movesIn source
  | reference first => exact (advances_referenceTo hOperand first).movesIn source
  | tuple => exact (takes_tupleType hOperand).movesIn (advances_tupleType hOperand) source
  | parenthesized => exact (takes_parenthesized hOperand).movesIn (advances_parenthesized hOperand) source
  | object => exact takes_objectType.movesIn advances_objectType source
  | member => exact takes_member.movesIn advances_member source
  | namedProperty name readonly => exact (advances_namedProperty name readonly).movesIn source
  | skipped warning => exact (advances_skipped warning).movesIn source
  | body name => exact (takes_body name).movesIn (advances_body name) source
  | declaration position heading =>
      exact (takes_declaration position heading).movesIn (advances_declaration position heading) source

/-- A heading takes tokens too. -/
theorem exists_place_of_heading? {source following : List Token} {place : Nat} {heading : Heading}
    (hPlace : place ≤ source.length) (hHeading : heading? (source.drop place) = some (heading, following)) :
    ∃ later, place + 1 ≤ later ∧ later ≤ source.length ∧ following = source.drop later := by
  cases hTokens : source.drop place with
  | nil =>
      rw [hTokens] at hHeading
      cases hHeading
  | cons token rest =>
      rw [hTokens] at hHeading
      have hSuffix := heading?_suffix hHeading
      apply exists_place_of_suffix hPlace
      · rw [hTokens]
        exact hSuffix.trans (List.suffix_cons token rest)
      · rw [hTokens]
        exact Nat.succ_le_succ hSuffix.length_le

/-- Passing over a member, if the depth is counted down by a subtraction that fails at zero. Closing a parenthesis or a
bracket leaves a depth of zero as it is. -/
def skipMember? (depth : Nat) : List Token → Option (List Token)
  | [] => some []
  | token :: rest =>
      match token.kind with
      | .mark .openBrace => skipMember? (depth + 1) rest
      | .mark .openParen => skipMember? (depth + 1) rest
      | .mark .openBracket => skipMember? (depth + 1) rest
      | .mark .closeParen => skipMember? (depth - 1) rest
      | .mark .closeBracket => skipMember? (depth - 1) rest
      | .mark .closeBrace =>
          if depth = 0 then some (token :: rest) else depth.ppred.bind fun depth => skipMember? depth rest
      | .mark .semicolon => if depth = 0 then some (token :: rest) else skipMember? depth rest
      | .mark .comma => if depth = 0 then some (token :: rest) else skipMember? depth rest
      | _ => skipMember? depth rest

/-- The count never fails: where a brace would be counted down at zero, passing over stops. -/
theorem skipMember?_eq_some (depth : Nat) (tokens : List Token) :
    skipMember? depth tokens = some (skipMember depth tokens) := by
  induction tokens generalizing depth with
  | nil => rfl
  | cons token rest ih =>
      obtain ⟨kind, position⟩ := token
      cases kind with
      | mark mark =>
          cases depth with
          | zero => cases mark <;> simp [skipMember?, skipMember, ih]
          | succ depth => cases mark <;> simp [skipMember?, skipMember, ih]
      | _ => simp [skipMember?, skipMember, ih]

/-- Looking for the arrow of a function type, if the depth is counted down by a subtraction that fails at zero. -/
def startsFunction? (depth : Nat) : List Token → Option Bool
  | [] => some false
  | token :: rest =>
      match token.kind with
      | .mark .openParen => startsFunction? (depth + 1) rest
      | .mark .closeParen =>
          depth.ppred.bind fun depth =>
            if depth = 0 then some (rest.head?.map Token.kind = some (.mark .arrow)) else startsFunction? depth rest
      | _ => startsFunction? depth rest

/-- Once a parenthesis is open the depth stays above zero until the parenthesis is closed, and then the search ends. -/
theorem startsFunction?_eq_some (depth : Nat) (tokens : List Token) :
    startsFunction? (depth + 1) tokens = some (startsFunction (depth + 1) tokens) := by
  induction tokens generalizing depth with
  | nil => rfl
  | cons token rest ih =>
      by_cases hOpen : token.kind = .mark .openParen
      · rw [startsFunction_open hOpen, startsFunction?]
        simp only [hOpen]
        exact ih (depth + 1)
      by_cases hClose : token.kind = .mark .closeParen
      · rw [startsFunction?]
        cases depth with
        | zero =>
            rw [startsFunction_closing hClose]
            simp [hClose]
        | succ depth =>
            rw [startsFunction_close hClose]
            simp [hClose, ih]
      · rw [startsFunction_cons hOpen hClose, startsFunction?]
        split
        · exact absurd ‹_› hOpen
        · exact absurd ‹_› hClose
        · exact ih depth

def skippedCounting (failed : Reader (Option Property)) (warning : Warning) : Reader (Option Property) := do
  warn warning
  (skipMember? 0 (← remaining)).elim failed fun rest => do
    continueAt rest
    return none

/-- What would be done after a failure of the count does not matter, as there is none. -/
theorem skipped_eq_skippedCounting (failed : Reader (Option Property)) (warning : Warning) :
    skipped warning = skippedCounting failed warning := by
  unfold skipped skippedCounting
  simp only [skipMember?_eq_some, Option.elim_some]

/-- Reads a type in parentheses or a function type, where it is known which of them it is. -/
def parenthesizedAs (operand : Reader TypeTerm) (isFunction : Bool) : Reader TypeTerm := do
  if isFunction then
    continueAt (skipGroup .openParen .closeParen 0 (← remaining))
    expect .arrow
    let _ ← wholeType operand
    warn (.functionType (← place).line)
    return .unknown
  else
    expect .openParen
    let term ← wholeType operand
    expect .closeParen
    return term

/-- Reads a type in parentheses or a function type by a count that may fail. -/
def parenthesizedCounting (failed operand : Reader TypeTerm) : Reader TypeTerm := do
  (startsFunction? 0 (← remaining)).elim failed (parenthesizedAs operand)

/-- Types are read so only where a parenthesis opens, and there the count does not fail. -/
theorem primaryType_eq_parenthesizedCounting (failed operand : Reader TypeTerm) (final place : Position)
    (rest : List Token) :
    primaryType operand final (⟨.mark .openParen, place⟩ :: rest) =
      parenthesizedCounting failed operand final (⟨.mark .openParen, place⟩ :: rest) := by
  have hCount : startsFunction? 0 (⟨.mark .openParen, place⟩ :: rest) =
      some (startsFunction 0 (⟨.mark .openParen, place⟩ :: rest)) :=
    startsFunction?_eq_some 0 rest
  have hPrimary : primaryType operand final (⟨.mark .openParen, place⟩ :: rest) =
      parenthesized operand final (⟨.mark .openParen, place⟩ :: rest) := by
    rw [primaryType, remaining_bind]
  rw [hPrimary, parenthesizedCounting, remaining_bind, hCount, parenthesized, remaining_bind, Option.elim_some,
    parenthesizedAs]
  split
  · rw [remaining_bind]
  · rfl

/-- Scanning goes forward. The induction is over its steps. -/
theorem Scans.suffix {final : Position} {depth later : Nat} {tokens left : List Token} {found : List Declaration}
    (hScans : Scans final depth tokens found later left) : left <:+ tokens := by
  induction hScans with
  | here depth tokens => exact List.suffix_rfl
  | pass hNone further ih => exact ih.trans (List.suffix_cons _ _)
  | find hHeading hFirst further ih =>
      exact (ih.trans (behind_suffix hHeading hFirst)).trans (List.suffix_cons _ _)

/-- The last token of a source is the last one of any end of it that is not empty. -/
theorem exists_mem_finalPosition {source left : List Token} (hSuffix : left <:+ source) (hSome : left ≠ []) :
    ∃ token ∈ left, token.position = finalPosition source := by
  obtain ⟨before, rfl⟩ := hSuffix
  refine ⟨left.getLast hSome, List.getLast_mem hSome, ?_⟩
  rw [finalPosition, List.getLast?_append_of_ne_nil before hSome, List.getLast?_eq_some_getLast hSome]
  rfl

/-- The tokens compared with themselves, where only the places of tokens of a list correspond to anything. -/
def ownPlaces (tokens : List Token) : Fork where
  places place _ := ∃ token ∈ tokens, place = token.position
  tail := []
  tail' := []
  starts := .nil

/-- Tokens are alike to themselves, at places that are their own. -/
theorem alike_ownPlaces {tokens rest : List Token} (hSubset : rest ⊆ tokens) : (ownPlaces tokens).Alike rest rest := by
  induction rest with
  | nil => exact .fork
  | cons token rest ih =>
      obtain ⟨hToken, hRest⟩ := List.cons_subset.mp hSubset
      exact .cons ⟨token, hToken, rfl⟩ (fun _ => rfl) (ih hRest)

/-- A declaration is refused at one of its tokens or of those behind it. Places are only passed on in reading, so the
place of a refusal is one that reading was given: it corresponds to a place if all of these do. -/
theorem RefusedAt.exists_token {source left : List Token} {error : SyntaxError}
    (hRefused : RefusedAt (finalPosition source) left error) (hSuffix : left <:+ source) :
    ∃ token ∈ left, error.position = token.position := by
  have hSome : left ≠ [] := by
    obtain ⟨token, rest, heading, following, warnings, rfl, -⟩ := hRefused
    exact List.cons_ne_nil token rest
  obtain ⟨last, hLast, hFinal⟩ := exists_mem_finalPosition hSuffix hSome
  have hPlaces : (ownPlaces left).places (finalPosition source) (finalPosition source) := ⟨last, hLast, hFinal.symm⟩
  obtain ⟨error', -, -, hPlace⟩ := hRefused.follow hPlaces (alike_ownPlaces (List.Subset.refl left)) rfl
  exact hPlace

/-- How scanning a source ends: behind its last token, or before a declaration that is refused at a token that stands
in the declaration or behind it. -/
inductive ScanEnds (source : List Token) : Prop where
  | done {found : List Declaration} {depth : Nat} (scans : Scans (finalPosition source) 0 source found depth [])
      (outcome : (scanTokens source).outcome = .ok found)
  | refused {found : List Declaration} {left : List Token} {error : SyntaxError}
      (scans : Scans (finalPosition source) 0 source found 0 left) (suffix : left <:+ source)
      (refusal : RefusedAt (finalPosition source) left error) (outcome : (scanTokens source).outcome = .error error)
      (place : ∃ token ∈ left, error.position = token.position)

/-- Scanning comes to the last token or to a refusal, and the latter names a place in the source. -/
theorem scanEnds (source : List Token) : ScanEnds source := by
  obtain ⟨found, depth, left, hScans, rfl | ⟨rfl, error, hRefused⟩⟩ := exists_scans (finalPosition source) 0 source
  · refine .done hScans ?_
    rw [scanTokens, hScans.outcome_eq, scanFrom, Except.map, List.append_nil]
  · refine .refused hScans hScans.suffix hRefused ?_ (hRefused.exists_token hScans.suffix)
    rw [scanTokens, hScans.outcome_eq, hRefused.outcome_eq, Except.map]

/-- A source that ends too early is refused at its last token. -/
example :
    (scanTokens [⟨.word "type", ⟨1, 1⟩⟩, ⟨.word "A", ⟨1, 6⟩⟩, ⟨.mark .equals, ⟨2, 1⟩⟩]).outcome =
      .error ⟨⟨2, 1⟩, .unexpected .type none⟩ := rfl

/-- Reading a source makes progress, comes to an end, counts no depth below zero and tells real places. -/
structure MakesProgress (source : List Token) : Prop where
  /-- Every rule stays in the source and takes as many tokens as it has to. -/
  moves : ∀ {α : Type} {least : Nat} {reader : Reader α}, Rule least reader → reader.MovesIn source least
  headings : ∀ {place : Nat} {heading : Heading} {following : List Token}, place ≤ source.length →
    heading? (source.drop place) = some (heading, following) →
      ∃ later, place + 1 ≤ later ∧ later ≤ source.length ∧ following = source.drop later
  /-- Types inside types end, and so do all things that are read again and again. -/
  operands : IsLoop operandRound fun _ => operandType
  unions : IsLoop (itemRound .pipe (intersection operandType))
    (fun _ => do eachAfter .pipe (intersection operandType) (← remaining).length)
  intersections : IsLoop (itemRound .ampersand operandType)
    (fun _ => do eachAfter .ampersand operandType (← remaining).length)
  tuples : IsLoop (tupleRound operandType)
    (fun read => do tupleElements operandType ((← remaining).length + 1) read.1 read.2)
  members : IsLoop memberRound (fun _ => do members ((← remaining).length + 1))
  /-- Whatever would be done where a depth goes below zero, it is not done. -/
  memberDepths : ∀ failed warning, skipped warning = skippedCounting failed warning
  functionDepths : ∀ failed operand final place rest,
    primaryType operand final (⟨.mark .openParen, place⟩ :: rest) =
      parenthesizedCounting failed operand final (⟨.mark .openParen, place⟩ :: rest)
  /-- Scanning ends, and a refusal is at a token that is not before the declaration. -/
  scan : ScanEnds source

/-- Whatever the tokens of a source are, reading makes progress on them. -/
theorem scan_makesProgress (source : List Token) : MakesProgress source where
  moves hRule := hRule.movesIn source
  headings := exists_place_of_heading?
  operands := isLoop_operandType
  unions := isLoop_eachAfter .pipe (advances_intersection advances_operandType)
  intersections := isLoop_eachAfter .ampersand advances_operandType
  tuples := isLoop_tupleElements takes_operandType advances_operandType
  members := isLoop_members
  memberDepths := skipped_eq_skippedCounting
  functionDepths := primaryType_eq_parenthesizedCounting
  scan := scanEnds source

end Grammar

end SchemaForge
