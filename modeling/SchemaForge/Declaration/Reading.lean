import SchemaForge.Source.Token
import SchemaForge.Warning

/-! Readers over a list of tokens. A reader takes tokens from the front, collects warnings, and either
yields a value with the tokens that are left or refuses the source at a place. The warnings collected
before a refusal are kept. -/
namespace SchemaForge

/-- What was expected where the source is refused. -/
inductive Expectation where
  | mark (mark : Mark)
  | propertyName
  | propertyEnd
  | tupleEnd
  | type
deriving DecidableEq

def Mark.spelling : Mark → String
  | .openBrace => "\x7b"
  | .closeBrace => "\x7d"
  | .openBracket => "["
  | .closeBracket => "]"
  | .openParen => "("
  | .closeParen => ")"
  | .less => "<"
  | .greater => ">"
  | .pipe => "|"
  | .ampersand => "&"
  | .semicolon => ";"
  | .colon => ":"
  | .comma => ","
  | .question => "?"
  | .equals => "="
  | .dot => "."
  | .ellipsis => "..."
  | .arrow => "=>"
  | .minus => "-"

def Expectation.describe : Expectation → String
  | .mark expected => "'" ++ expected.spelling ++ "'"
  | .propertyName => "a property name"
  | .propertyEnd => "';' or '\x7d' after property"
  | .tupleEnd => "',' or ']' in tuple type"
  | .type => "a type"

/-- Why a source is refused. -/
inductive SyntaxProblem where
  | unexpected (expected : Expectation) (found : Option TokenKind)
  | unterminatedObject
  | numberExpected
deriving DecidableEq

def SyntaxProblem.message : SyntaxProblem → String
  | .unexpected expected found =>
      "expected " ++ expected.describe ++ ", found " ++
        (match found with
          | none => "end of input"
          | some kind => kind.describe)
  | .unterminatedObject => "unterminated object type, expected '\x7d'"
  | .numberExpected => "expected a number after '-'"

structure SyntaxError where
  position : Position
  problem : SyntaxProblem
deriving DecidableEq

inductive Reading (α : Type) where
  | done (value : α) (rest : List Token) (warnings : List Warning)
  | refused (error : SyntaxError) (warnings : List Warning)

/-- Puts warnings that were collected earlier in front. -/
def Reading.after {α : Type} (earlier : List Warning) : Reading α → Reading α
  | .done value rest warnings => .done value rest (earlier ++ warnings)
  | .refused error warnings => .refused error (earlier ++ warnings)

/-- A reader of tokens. The position is the one that is reported at the end of the tokens. -/
def Reader (α : Type) : Type :=
  Position → List Token → Reading α

namespace Reader

/-- Yields a value without taking tokens. -/
def yield {α : Type} (value : α) : Reader α :=
  fun _ tokens => .done value tokens []

/-- Reads on with the tokens that are left. -/
def andThen {α β : Type} (first : Reader α) (next : α → Reader β) : Reader β :=
  fun final tokens =>
    match first final tokens with
    | .done value rest warnings => (next value final rest).after warnings
    | .refused error warnings => .refused error warnings

instance : Monad Reader where
  pure := yield
  bind := andThen

def remaining : Reader (List Token) :=
  fun _ tokens => .done tokens tokens []

/-- Goes on with the given tokens, which are the end of those that are left. -/
def continueAt (rest : List Token) : Reader Unit :=
  fun _ _ => .done () rest []

/-- The place of the next token, or of the last one when none is left. -/
def place : Reader Position :=
  fun final tokens =>
    match tokens with
    | [] => .done final [] []
    | token :: _ => .done token.position tokens []

def warn (warning : Warning) : Reader Unit :=
  fun _ tokens => .done () tokens [warning]

/-- Refuses the source at the next token. -/
def refuse {α : Type} (problem : SyntaxProblem) : Reader α :=
  fun final tokens =>
    match tokens with
    | [] => .refused ⟨final, problem⟩ []
    | token :: _ => .refused ⟨token.position, problem⟩ []

/-- Refuses the source because something else was expected than the next token. -/
def refuseNext {α : Type} (expected : Expectation) : Reader α :=
  fun final tokens => refuse (.unexpected expected (tokens.head?.map Token.kind)) final tokens

/-- Takes the mark if it is next, and tells whether it was. -/
def accept (mark : Mark) : Reader Bool :=
  fun _ tokens =>
    match tokens with
    | [] => .done false [] []
    | token :: rest => if token.kind = .mark mark then .done true rest [] else .done false tokens []

/-- Takes the mark, or refuses the source. -/
def expectAs (mark : Mark) (expected : Expectation) : Reader Unit := do
  if ← accept mark then return () else refuseNext expected

/-- Takes the mark, or refuses the source because of its absence. -/
def expect (mark : Mark) : Reader Unit :=
  expectAs mark (.mark mark)

/-- Reads an item after each of the marks that follow. The first argument bounds their number. -/
def eachAfter {α : Type} (mark : Mark) (item : Reader α) : Nat → Reader (List α)
  | 0 => return []
  | bound + 1 => do
      if ← accept mark then
        let value ← item
        let values ← eachAfter mark item bound
        return value :: values
      else return []

end Reader

end SchemaForge
