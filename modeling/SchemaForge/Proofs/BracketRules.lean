import SchemaForge.Proofs.GrammarForms

/-! Brackets in what fits a form. A form is balanced if what is read of it closes the brackets that are open before it,
by a rule for each way to build a form. All forms of the grammar are balanced, so the brackets among the tokens that
are read always match; those in a part that is passed over need not. -/
namespace SchemaForge

/-- The kinds of the tokens without angle brackets. -/
def bracketKinds (tokens : List Token) : List TokenKind :=
  (tokens.map Token.kind).filter fun kind => kind ∉ [TokenKind.mark .less, .mark .greater]

/-- The braces, brackets and parentheses that are open are closed by the tokens, and all others in them match. -/
def closesBrackets (awaited : List Mark) (tokens : List Token) : Bool :=
  closesAll awaited (bracketKinds tokens)

/-- The braces, brackets and parentheses of the tokens are properly nested and matched. -/
def bracketsMatch (tokens : List Token) : Bool :=
  closesBrackets [] tokens

theorem bracketKinds_append (first second : List Token) :
    bracketKinds (first ++ second) = bracketKinds first ++ bracketKinds second := by
  simp [bracketKinds]

/-- Brackets that are closed one after the other: the inner ones by the first tokens, the outer ones by the others. -/
theorem closesBrackets_append {inner outer : List Mark} {first second : List Token}
    (hFirst : closesBrackets inner first = true) (hSecond : closesBrackets outer second = true) :
    closesBrackets (inner ++ outer) (first ++ second) = true := by
  rw [closesBrackets, bracketKinds_append, closesAll_append hFirst]
  exact hSecond

/-- What is open behind the first token does not depend on the tokens that follow it. -/
theorem exists_closesBrackets_cons {awaited : List Mark} {token : Token} {tokens : List Token}
    (hCloses : closesBrackets awaited (token :: tokens) = true) :
    ∃ opened, ∀ others, closesBrackets awaited (token :: others) = closesBrackets opened others := by
  by_cases hAngle : token.kind ∈ [TokenKind.mark .less, .mark .greater]
  · refine ⟨awaited, fun others => ?_⟩
    rw [closesBrackets, bracketKinds, List.map_cons, List.filter_cons_of_neg (by simp only [hAngle]; decide)]
    rfl
  · have hCounted (others : List Token) :
        closesBrackets awaited (token :: others) = closesAll awaited (token.kind :: bracketKinds others) := by
      rw [closesBrackets, bracketKinds, List.map_cons, List.filter_cons_of_pos (by simpa using hAngle)]
      rfl
    rw [hCounted, closesAll] at hCloses
    cases hNext : openAfter awaited token.kind with
    | none => simp [hNext] at hCloses
    | some opened =>
        refine ⟨opened, fun others => ?_⟩
        rw [hCounted, closesAll, hNext]
        rfl

/-- An opening bracket is closed by what closes the others and it. -/
theorem closesBrackets_open {opening closing : Mark} (hPair : TokenKind.opens? (.mark opening) = some closing)
    (hShape : opening ≠ .less) {awaited : List Mark} {tokens : List Token}
    (hCloses : closesBrackets (closing :: awaited) tokens = true) (place : Position) :
    closesBrackets awaited (⟨.mark opening, place⟩ :: tokens) = true := by
  rw [closesBrackets] at hCloses
  cases opening <;> cases hPair <;>
    first
    | exact absurd rfl hShape
    | simpa [closesBrackets, bracketKinds, closesAll, openAfter, TokenKind.opens?] using hCloses

namespace Grammar

/-- The tokens after some that are read and whose brackets match. -/
def ReadsMatched (tokens rest : List Token) : Prop :=
  ∃ read, read ++ rest = tokens ∧ bracketsMatch read = true

theorem ReadsMatched.refl (tokens : List Token) : ReadsMatched tokens tokens :=
  ⟨[], rfl, rfl⟩

/-- Tokens whose brackets match may be read in front. -/
theorem ReadsMatched.append {tokens rest : List Token} (hFurther : ReadsMatched tokens rest) (read : List Token)
    (hRead : bracketsMatch read = true) : ReadsMatched (read ++ tokens) rest := by
  obtain ⟨further, rfl, hMatch⟩ := hFurther
  exact ⟨read ++ further, List.append_assoc read further rest, closesBrackets_append hRead hMatch⟩

/-- Suffixes are pairs of brackets. The induction follows the recursion that takes them off. -/
theorem readsMatched_arraySuffixes (term : TypeTerm) (tokens : List Token) :
    ReadsMatched tokens (arraySuffixes term tokens).2 := by
  fun_induction arraySuffixes term tokens with
  | case1 term opening closing rest ih =>
      exact ih.append [⟨.mark .openBracket, opening⟩, ⟨.mark .closeBracket, closing⟩] rfl
  | case2 term rest => exact .refl rest

theorem readsMatched_dottedParts (name : String) (tokens : List Token) :
    ReadsMatched tokens (dottedParts name tokens).2 := by
  fun_induction dottedParts name tokens with
  | case1 name dot part place rest ih =>
      exact ih.append [⟨.mark .dot, dot⟩, ⟨.word part, place⟩] rfl
  | case2 name rest => exact .refl rest

/-- A label consists of a word and of marks that are no brackets. -/
theorem readsMatched_skipLabel (tokens : List Token) : ReadsMatched tokens (skipLabel tokens) := by
  unfold skipLabel
  split
  · exact ⟨[_, _], rfl, rfl⟩
  · exact ⟨[_, _, _], rfl, rfl⟩
  · exact .refl tokens

theorem readsMatched_skipReadonly (tokens : List Token) : ReadsMatched tokens (skipReadonly tokens).2 := by
  unfold skipReadonly
  split
  · split
    · exact ⟨[_], rfl, rfl⟩
    · exact .refl _
  · exact .refl tokens

theorem readsMatched_skipSeparators (tokens : List Token) : ReadsMatched tokens (skipSeparators tokens) := by
  induction tokens with
  | nil => exact .refl []
  | cons token rest ih =>
      obtain ⟨kind, place⟩ := token
      cases kind with
      | mark mark =>
          cases mark with
          | semicolon => exact ih.append [⟨.mark .semicolon, place⟩] rfl
          | comma => exact ih.append [⟨.mark .comma, place⟩] rfl
          | _ => exact .refl _
      | _ => exact .refl _

/-- The brackets that are open where one of these forms starts, and that it closes. -/
def Symbol.awaits : Symbol → List Mark
  | .elements => [.closeBracket]
  | .members => [.closeBrace]
  | _ => []

/-- What is read of the form closes the brackets that are open, and all others in it match. A part that is passed over
does not count. -/
inductive Balanced : List Mark → Form → Prop where
  | nothing : Balanced [] .nothing
  | refused (awaited : List Mark) : Balanced awaited .refused
  | token {awaited : List Mark} {kind : TokenKind}
      (hCloses : ∀ place, closesBrackets awaited [⟨kind, place⟩] = true) : Balanced awaited (.token kind)
  | enclosed {awaited : List Mark} {opening closing : Mark} {form : Form}
      (hPair : TokenKind.opens? (.mark opening) = some closing) (hShape : opening ≠ .less)
      (hForm : Balanced (closing :: awaited) form) : Balanced awaited (.seq (.mark opening) form)
  | stretch {skip : List Token → List Token} (hRead : ∀ tokens, ReadsMatched tokens (skip tokens)) :
      Balanced [] (.stretch skip)
  | pass (routine : Routine) : Balanced [] (.pass routine)
  | seq {inner outer : List Mark} {first second : Form} (hFirst : Balanced inner first)
      (hSecond : Balanced outer second) : Balanced (inner ++ outer) (.seq first second)
  | look {awaited : List Mark} {choose : List Token → Form} (hChosen : ∀ tokens, Balanced awaited (choose tokens)) :
      Balanced awaited (.look choose)
  | rule (symbol : Symbol) : Balanced symbol.awaits (.rule symbol)

namespace Balanced

variable {awaited : List Mark} {first second : Form}

/-- What comes first closes none of the brackets that are open. -/
theorem behind (hFirst : Balanced [] first) (hSecond : Balanced awaited second) :
    Balanced awaited (.seq first second) :=
  .seq hFirst hSecond

/-- A mark that is no bracket may decide on the form, if both forms are balanced alike. -/
theorem ifNext {mark : Mark} (hPlain : ∀ place, bracketsMatch [⟨.mark mark, place⟩] = true)
    (hFirst : Balanced awaited first) (hSecond : Balanced awaited second) :
    Balanced awaited (.ifNext mark first second) := by
  apply Balanced.look
  intro tokens
  split
  · exact (Balanced.token hPlain).behind hFirst
  · exact hSecond

/-- The bracket that is open innermost is closed here, or later. -/
theorem ifClosed {mark : Mark} (hCloses : ∀ place, closesBrackets [mark] [⟨.mark mark, place⟩] = true)
    (hFirst : Balanced awaited first) (hSecond : Balanced (mark :: awaited) second) :
    Balanced (mark :: awaited) (.ifNext mark first second) := by
  apply Balanced.look
  intro tokens
  split
  · exact (Balanced.token hCloses).seq hFirst
  · exact hSecond

theorem optional {mark : Mark} (hPlain : ∀ place, bracketsMatch [⟨.mark mark, place⟩] = true) :
    Balanced [] (.optional mark) :=
  ifNext hPlain .nothing .nothing

end Balanced

theorem balanced_suffixes : Balanced [] .suffixes :=
  .stretch (readsMatched_arraySuffixes .unknown)

theorem balanced_intersection : Balanced [] .intersection :=
  (Balanced.rule .operand).behind (.rule .furtherOperands)

/-- Angle brackets do not count, so type arguments may be read or passed over. -/
theorem balanced_reference (first : String) : Balanced [] (.reference first) := by
  apply Balanced.look
  intro tokens
  apply (Balanced.stretch (readsMatched_dottedParts first)).behind
  apply Balanced.look
  intro rest
  split
  · split
    · apply (Balanced.token fun _ => rfl).behind
      exact (Balanced.rule .type).behind (.ifNext (fun _ => rfl) .nothing (.pass .arguments))
    · exact .pass .arguments
  · exact .nothing

/-- A word decides on the form behind it, in which brackets match whichever it is. -/
theorem balanced_named (word : String) : Balanced [] (.named word) := by
  apply Balanced.look
  intro tokens
  split
  · exact .nothing
  · split
    · exact .rule .operand
    · exact balanced_reference word

/-- Parentheses are opened and closed by the form, unless a function passes over its parameters as a whole. -/
theorem balanced_parenthesized : Balanced [] .parenthesized := by
  apply Balanced.look
  intro tokens
  split
  · exact (Balanced.pass .parameters).behind ((Balanced.token fun _ => rfl).behind (.rule .type))
  · apply Balanced.enclosed rfl (by decide)
    exact (Balanced.rule .type).behind (.token fun _ => rfl)

/-- There is one case for each kind of token; a nested object type is passed over as a whole. -/
theorem balanced_primary : Balanced [] .primary := by
  have hToken {kind : TokenKind} (hPlain : ∀ place, bracketsMatch [⟨kind, place⟩] = true) :
      Balanced [] (.token kind) := .token hPlain
  apply Balanced.look
  intro tokens
  rcases tokens with _ | ⟨⟨kind, place⟩, rest⟩
  · exact .refused []
  cases kind with
  | word name => exact (hToken fun _ => rfl).behind (balanced_named name)
  | text value => exact hToken fun _ => rfl
  | number value => exact hToken fun _ => rfl
  | template => exact hToken fun _ => rfl
  | other c => exact .refused []
  | mark mark =>
      cases mark with
      | openBracket => exact .enclosed rfl (by decide) (.rule .elements)
      | openParen => exact balanced_parenthesized
      | openBrace => exact .pass .nestedObject
      | minus =>
          dsimp only
          split
          · exact (hToken fun _ => rfl).behind (hToken fun _ => rfl)
          · exact .refused []
      | _ => exact .refused []

/-- The bracket of the tuple is open in front of an element, and what follows the element closes it. -/
theorem balanced_element : Balanced [.closeBracket] .element := by
  apply (Balanced.optional fun _ => rfl).behind
  apply (Balanced.stretch readsMatched_skipLabel).behind
  apply (Balanced.rule .type).behind
  apply (Balanced.optional fun _ => rfl).behind
  exact .ifNext (fun _ => rfl) (.rule .elements) (.token fun _ => rfl)

theorem balanced_property : Balanced [] .property := by
  apply (Balanced.optional fun _ => rfl).behind
  apply Balanced.look
  intro tokens
  split
  · exact .pass .member
  · exact (Balanced.token fun _ => rfl).behind (.rule .type)

/-- A member is read with its type or passed over as a whole. -/
theorem balanced_modifiedMember : Balanced [] .modifiedMember := by
  have hNamed {kind : TokenKind} (hPlain : ∀ place, bracketsMatch [⟨kind, place⟩] = true) :
      Balanced [] (.seq (.token kind) .property) := (Balanced.token hPlain).behind balanced_property
  apply Balanced.look
  intro tokens
  split
  · exact .pass .member
  · split
    · exact hNamed fun _ => rfl
    · exact hNamed fun _ => rfl
    · exact hNamed fun _ => rfl
    · exact .pass .member
    · exact .pass .member
    · exact .pass .member
    · exact .refused []

theorem balanced_member : Balanced [] .member := by
  apply Balanced.look
  intro tokens
  split
  · exact .pass .member
  · exact (Balanced.stretch readsMatched_skipReadonly).behind balanced_modifiedMember

/-- The brace of the object type is open in front of a member, and what follows the member closes it. -/
theorem balanced_memberOf : Balanced [.closeBrace] .memberOf := by
  apply balanced_member.behind
  apply Balanced.look
  intro tokens
  split
  · exact .rule .members
  · exact .refused _

/-- The form of each symbol is balanced, whatever the others stand for. -/
theorem balanced_form (symbol : Symbol) : Balanced symbol.awaits symbol.form := by
  cases symbol with
  | operand => exact balanced_primary.behind balanced_suffixes
  | furtherOperands =>
      exact .ifNext (fun _ => rfl) ((Balanced.rule .operand).behind (.rule .furtherOperands)) .nothing
  | furtherAlternatives =>
      exact .ifNext (fun _ => rfl) (balanced_intersection.behind (.rule .furtherAlternatives)) .nothing
  | type =>
      exact (Balanced.optional fun _ => rfl).behind (balanced_intersection.behind (.rule .furtherAlternatives))
  | elements => exact .ifClosed (fun _ => rfl) .nothing balanced_element
  | members =>
      exact (Balanced.stretch readsMatched_skipSeparators).behind (.ifClosed (fun _ => rfl) .nothing balanced_memberOf)

/-- The brace of the body is closed by its members, and nothing is open behind it. -/
theorem balanced_body : Balanced [] .body := by
  have hContinued : Balanced [] .continued :=
    balanced_suffixes.behind ((Balanced.rule .furtherOperands).behind (.rule .furtherAlternatives))
  apply Balanced.look
  intro tokens
  split
  · have hObject : Balanced [] .object := .enclosed rfl (by decide) (.rule .members)
    apply hObject.behind
    apply Balanced.look
    intro left
    split
    · exact hContinued
    · exact .nothing
  · exact .rule .type

/-- No bracket is open in front of a definition or behind it. -/
theorem balanced_definition : Balanced [] .definition :=
  balanced_body.behind (.optional fun _ => rfl)

theorem readTokens_append (first second : List Piece) :
    readTokens (first ++ second) = readTokens first ++ readTokens second :=
  List.filterMap_append

theorem readTokens_map_read (tokens : List Token) : readTokens (tokens.map Piece.read) = tokens := by
  rw [readTokens, List.filterMap_map]
  exact List.filterMap_some

/-- What is read of a balanced form closes the brackets that are open. The induction is over the way in which the tokens
fit the form, and a rule is followed into its own form. -/
theorem Derives.closesBrackets_readTokens {form : Form} {tokens rest : List Token} {pieces : List Piece}
    (hDerives : Derives form tokens pieces rest) {awaited : List Mark} (hBalanced : Balanced awaited form) :
    closesBrackets awaited (readTokens pieces) = true := by
  induction hDerives generalizing awaited with
  | nothing tokens =>
      cases hBalanced
      rfl
  | token kind place rest =>
      cases hBalanced with
      | token hCloses => exact hCloses place
  | @stretch skip tokens read hRead =>
      cases hBalanced with
      | stretch hMatched =>
          obtain ⟨same, hSame, hMatch⟩ := hMatched tokens
          rw [readTokens_map_read, ← List.append_cancel_right (hSame.trans hRead.symm)]
          exact hMatch
  | pass hPart =>
      cases hBalanced
      rfl
  | seq hFirst hSecond ihFirst ihSecond =>
      rw [readTokens_append]
      cases hBalanced with
      | enclosed hPair hShape hForm =>
          cases hFirst
          exact closesBrackets_open hPair hShape (ihSecond hForm) _
      | seq hInner hOuter => exact closesBrackets_append (ihFirst hInner) (ihSecond hOuter)
  | @look choose tokens rest pieces hChosen ih =>
      cases hBalanced with
      | look hEach => exact ih (hEach tokens)
  | @rule symbol tokens rest pieces hForm ih =>
      cases hBalanced
      exact ih (balanced_form symbol)

/-- Where the brackets of all parts match, all tokens together close the same brackets as those that were read. The
brackets that are open are those of the tokens read so far. -/
theorem closesBrackets_flatMap_tokens {pieces : List Piece} {awaited : List Mark}
    (hRead : closesBrackets awaited (readTokens pieces) = true)
    (hParts : ∀ routine, ∀ part ∈ passedBy routine pieces, bracketsMatch part = true) :
    closesBrackets awaited (pieces.flatMap Piece.tokens) = true := by
  induction pieces generalizing awaited with
  | nil => exact hRead
  | cons piece pieces ih =>
      have hLater (routine : Routine) : ∀ part ∈ passedBy routine pieces, bracketsMatch part = true := by
        intro part hPart
        exact hParts routine part ((List.sublist_cons_self piece pieces).filterMap _ |>.subset hPart)
      rw [List.flatMap_cons]
      cases piece with
      | read token =>
          have hHead : closesBrackets awaited (token :: readTokens pieces) = true := hRead
          obtain ⟨opened, hOpened⟩ := exists_closesBrackets_cons hHead
          rw [hOpened] at hHead
          exact (hOpened _).trans (ih hHead hLater)
      | passed routine part =>
          have hPart : part ∈ passedBy routine (.passed routine part :: pieces) := by
            simp [passedBy, Piece.passedBy?]
          exact closesBrackets_append (hParts routine part hPart) (ih hRead hLater)

end Grammar

end SchemaForge
