import SchemaForge.Proofs.ReadingProgress

/-! The grammar as data. A form says which tokens are read one by one, where a part is passed over unread, and what is
looked at to decide between two ways on. Tokens fit a form in one way only, so a form also tells apart which of the
tokens are read and which are not. The forms of types, members and bodies are given as a table. -/
namespace SchemaForge.Grammar

/-- A way to pass over tokens whose meaning is not kept. -/
inductive Routine where
  | nestedObject
  | parameters
  | arguments
  | member
deriving DecidableEq

/-- The tokens after the part that is passed over. -/
def Routine.skip : Routine → List Token → List Token
  | .nestedObject => skipGroup .openBrace .closeBrace 0
  | .parameters => skipGroup .openParen .closeParen 0
  | .arguments => skipArguments 0
  | .member => skipMember 0

/-- The warnings about parts that are passed over in this way. -/
def Routine.reports : Routine → Warning → Bool
  | .nestedObject, .nestedObject _ => true
  | .parameters, .functionType _ => true
  | .arguments, .genericArguments _ => true
  | .member, .mappedMember _ => true
  | .member, .accessor _ => true
  | .member, .indexOrCallSignature _ => true
  | .member, .method _ => true
  | _, _ => false

/-- What is passed over is taken off the front, in whichever way. -/
theorem Routine.skip_suffix (routine : Routine) (tokens : List Token) : routine.skip tokens <:+ tokens := by
  cases routine with
  | nestedObject => exact skipGroup_suffix _ _ _ _
  | parameters => exact skipGroup_suffix _ _ _ _
  | arguments => exact skipArguments_suffix _ _
  | member => exact skipMember_suffix _ _

/-- What becomes of tokens: one of them is read, or a part of them is passed over. -/
inductive Piece where
  | read (token : Token)
  | passed (routine : Routine) (part : List Token)

namespace Piece

def tokens : Piece → List Token
  | .read token => [token]
  | .passed _ part => part

def read? : Piece → Option Token
  | .read token => some token
  | .passed _ _ => none

def passedBy? (routine : Routine) : Piece → Option (List Token)
  | .read _ => none
  | .passed used part => if used = routine then some part else none

end Piece

/-- The tokens that are read, in order. -/
def readTokens (pieces : List Piece) : List Token :=
  pieces.filterMap Piece.read?

/-- The parts that are passed over in this way, in order. -/
def passedBy (routine : Routine) (pieces : List Piece) : List (List Token) :=
  pieces.filterMap (Piece.passedBy? routine)

/-- The forms that occur in themselves. -/
inductive Symbol where
  | operand
  | furtherOperands
  | furtherAlternatives
  | type
  | elements
  | members

/-- What may stand in a source from some place on. -/
inductive Form where
  /-- Nothing is read. -/
  | nothing
  /-- Nothing fits. -/
  | refused
  /-- A token of this kind is read. -/
  | token (kind : TokenKind)
  /-- The tokens are read up to those that the function leaves. -/
  | stretch (skip : List Token → List Token)
  /-- A part of the tokens is passed over. -/
  | pass (routine : Routine)
  | seq (first second : Form)
  /-- How to go on is decided by the tokens that are left. -/
  | look (choose : List Token → Form)
  | rule (symbol : Symbol)

namespace Form

def mark (mark : Mark) : Form :=
  .token (.mark mark)

/-- The first form follows the mark, if that is next, and the second one follows otherwise. -/
def ifNext (mark : Mark) (yes no : Form) : Form :=
  .look fun tokens =>
    if tokens.head?.map Token.kind = some (.mark mark) then .seq (.mark mark) yes else no

/-- The mark may stand here. -/
def optional (mark : Mark) : Form :=
  ifNext mark .nothing .nothing

/-- A reference behind its first name. The type arguments of an array are read if there is only one, and all others are
passed over: from their bracket on, or from behind the first argument on. -/
def reference (first : String) : Form :=
  .look fun tokens =>
    .seq (.stretch fun tokens => (dottedParts first tokens).2)
      (.look fun rest =>
        if rest.head?.map Token.kind = some (.mark .less) then
          if (dottedParts first tokens).1 = "Array" ∨ (dottedParts first tokens).1 = "ReadonlyArray" then
            .seq (.mark .less) (.seq (.rule .type) (ifNext .greater .nothing (.pass .arguments)))
          else .pass .arguments
        else .nothing)

/-- A type behind the word that it starts with. -/
def named (word : String) : Form :=
  .look fun tokens =>
    if word ∈ typeWords then .nothing
    else if word ∈ "readonly" :: operatorWords ∧ startsType tokens = true then .rule .operand
    else reference word

/-- A type in parentheses, or a function type, whose parameters are passed over. -/
def parenthesized : Form :=
  .look fun tokens =>
    if startsFunction 0 tokens then .seq (.pass .parameters) (.seq (.mark .arrow) (.rule .type))
    else .seq (.mark .openParen) (.seq (.rule .type) (.mark .closeParen))

def tuple : Form :=
  .seq (.mark .openBracket) (.rule .elements)

/-- A type without array suffixes. An object type is passed over here. -/
def primary : Form :=
  .look fun tokens =>
    match tokens with
    | [] => .refused
    | first :: rest =>
        match first.kind with
        | .word name => .seq (.token (.word name)) (named name)
        | .text value => .token (.text value)
        | .number value => .token (.number value)
        | .template => .token .template
        | .mark .minus =>
            match rest with
            | ⟨.number value, _⟩ :: _ => .seq (.mark .minus) (.token (.number value))
            | _ => .refused
        | .mark .openBracket => tuple
        | .mark .openParen => parenthesized
        | .mark .openBrace => .pass .nestedObject
        | _ => .refused

def suffixes : Form :=
  .stretch fun tokens => (arraySuffixes .unknown tokens).2

def intersection : Form :=
  .seq (.rule .operand) (.rule .furtherOperands)

/-- An element of a tuple, and what follows it up to the closing bracket. -/
def element : Form :=
  .seq (optional .ellipsis) (.seq (.stretch skipLabel) (.seq (.rule .type) (.seq (optional .question)
    (ifNext .comma (.rule .elements) (.mark .closeBracket)))))

/-- A member behind its name. A method is passed over from its parameters on. -/
def property : Form :=
  .seq (optional .question) (.look fun tokens =>
    if startsMethod tokens then .pass .member else .seq (.mark .colon) (.rule .type))

def modifiedMember : Form :=
  .look fun tokens =>
    if startsAccessor tokens then .pass .member
    else
      match tokens with
      | ⟨.word name, _⟩ :: _ => .seq (.token (.word name)) property
      | ⟨.text name, _⟩ :: _ => .seq (.token (.text name)) property
      | ⟨.number value, _⟩ :: _ => .seq (.token (.number value)) property
      | ⟨.mark .openBracket, _⟩ :: _ => .pass .member
      | ⟨.mark .openParen, _⟩ :: _ => .pass .member
      | ⟨.mark .less, _⟩ :: _ => .pass .member
      | _ => .refused

def member : Form :=
  .look fun tokens =>
    if startsMapping tokens then .pass .member
    else .seq (.stretch fun tokens => (skipReadonly tokens).2) modifiedMember

/-- A member, and what follows it up to the closing brace. -/
def memberOf : Form :=
  .seq member (.look fun tokens => if endsMember tokens then .rule .members else .refused)

def object : Form :=
  .seq (.mark .openBrace) (.rule .members)

/-- What follows a first part of a type that is not kept. -/
def continued : Form :=
  .seq suffixes (.seq (.rule .furtherOperands) (.rule .furtherAlternatives))

/-- What a declaration gives the name to. Only here an object type is read. -/
def body : Form :=
  .look fun tokens =>
    if tokens.head?.map Token.kind = some (.mark .openBrace) then
      .seq object (.look fun tokens => if continuesType tokens then continued else .nothing)
    else .rule .type

/-- The rest of a declaration behind its equals sign. -/
def definition : Form :=
  .seq body (optional .semicolon)

end Form

/-- What each of these forms stands for. -/
def Symbol.form : Symbol → Form
  | .operand => .seq .primary .suffixes
  | .furtherOperands => .ifNext .ampersand (.seq (.rule .operand) (.rule .furtherOperands)) .nothing
  | .furtherAlternatives => .ifNext .pipe (.seq .intersection (.rule .furtherAlternatives)) .nothing
  | .type => .seq (.optional .pipe) (.seq .intersection (.rule .furtherAlternatives))
  | .elements => .ifNext .closeBracket .nothing .element
  | .members => .seq (.stretch skipSeparators) (.ifNext .closeBrace .nothing .memberOf)

/-- The tokens fit the form up to those that are left, and this becomes of them on the way. -/
inductive Derives : Form → List Token → List Piece → List Token → Prop where
  | nothing (tokens : List Token) : Derives .nothing tokens [] tokens
  | token (kind : TokenKind) (place : Position) (rest : List Token) :
      Derives (.token kind) (⟨kind, place⟩ :: rest) [.read ⟨kind, place⟩] rest
  | stretch {skip : List Token → List Token} {tokens read : List Token} (hRead : read ++ skip tokens = tokens) :
      Derives (.stretch skip) tokens (read.map .read) (skip tokens)
  | pass {routine : Routine} {tokens part : List Token} (hPart : part ++ routine.skip tokens = tokens) :
      Derives (.pass routine) tokens [.passed routine part] (routine.skip tokens)
  | seq {first second : Form} {tokens middle rest : List Token} {pieces further : List Piece}
      (hFirst : Derives first tokens pieces middle) (hSecond : Derives second middle further rest) :
      Derives (.seq first second) tokens (pieces ++ further) rest
  | look {choose : List Token → Form} {tokens rest : List Token} {pieces : List Piece}
      (hChosen : Derives (choose tokens) tokens pieces rest) : Derives (.look choose) tokens pieces rest
  | rule {symbol : Symbol} {tokens rest : List Token} {pieces : List Piece}
      (hForm : Derives symbol.form tokens pieces rest) : Derives (.rule symbol) tokens pieces rest

namespace Derives

variable {form : Form} {tokens rest left : List Token} {pieces others : List Piece}

/-- No token is lost: the pieces together are the tokens that are not left. -/
theorem tokens_eq (hDerives : Derives form tokens pieces rest) : pieces.flatMap Piece.tokens ++ rest = tokens := by
  induction hDerives with
  | nothing tokens => rfl
  | token kind place rest => rfl
  | @stretch skip tokens read hRead =>
      have hTokens : (read.map Piece.read).flatMap Piece.tokens = read := by
        rw [List.flatMap_map]
        exact List.flatMap_singleton' read
      rw [hTokens, hRead]
  | @pass routine tokens part hPart =>
      rw [List.flatMap_singleton]
      exact hPart
  | seq _ _ ihFirst ihSecond => rw [List.flatMap_append, List.append_assoc, ihSecond, ihFirst]
  | look _ ih => exact ih
  | rule _ ih => exact ih

/-- Whatever fits a form, it takes no token back. -/
theorem length_le (hDerives : Derives form tokens pieces rest) : rest.length ≤ tokens.length := by
  rw [← hDerives.tokens_eq, List.length_append]
  exact Nat.le_add_left _ _

/-- Tokens fit a form in one way only. Where a form has alternatives, the tokens that are left choose between them. -/
theorem unique (hDerives : Derives form tokens pieces rest) (hOther : Derives form tokens others left) :
    others = pieces ∧ left = rest := by
  induction hDerives generalizing others left with
  | nothing tokens =>
      cases hOther
      exact ⟨rfl, rfl⟩
  | token kind place rest =>
      cases hOther
      exact ⟨rfl, rfl⟩
  | @stretch skip tokens read hRead =>
      cases hOther with
      | stretch hSame => exact ⟨by rw [List.append_cancel_right (hSame.trans hRead.symm)], rfl⟩
  | @pass routine tokens part hPart =>
      cases hOther with
      | pass hSame => exact ⟨by rw [List.append_cancel_right (hSame.trans hPart.symm)], rfl⟩
  | seq _ _ ihFirst ihSecond =>
      cases hOther with
      | seq hFirst hSecond =>
          obtain ⟨rfl, rfl⟩ := ihFirst hFirst
          obtain ⟨rfl, rfl⟩ := ihSecond hSecond
          exact ⟨rfl, rfl⟩
  | look _ ih =>
      cases hOther with
      | look hChosen => exact ih hChosen
  | rule _ ih =>
      cases hOther with
      | rule hForm => exact ih hForm

end Derives

end SchemaForge.Grammar
