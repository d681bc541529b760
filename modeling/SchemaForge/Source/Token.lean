import SchemaForge.Number.Layout
import SchemaForge.Text.Visible

/-! Tokens of a declaration source and their places in it. -/
namespace SchemaForge

/-- A place in a text. Lines and columns count from one, columns in characters. -/
structure Position where
  line : Nat
  column : Nat
deriving DecidableEq

namespace Position

def start : Position := ⟨1, 1⟩

/-- The place after a character. Only a line feed starts a new line. -/
def after (position : Position) (c : Char) : Position :=
  if c = '\n' then ⟨position.line + 1, 1⟩ else ⟨position.line, position.column + 1⟩

def afterAll (position : Position) (chars : List Char) : Position :=
  chars.foldl after position

end Position

inductive Mark where
  | openBrace | closeBrace
  | openBracket | closeBracket
  | openParen | closeParen
  | less | greater
  | pipe | ampersand | semicolon | colon | comma | question
  | equals | dot | ellipsis | arrow | minus
deriving DecidableEq

def Mark.label : Mark → String
  | .openBrace => "LBrace"
  | .closeBrace => "RBrace"
  | .openBracket => "LBracket"
  | .closeBracket => "RBracket"
  | .openParen => "LParen"
  | .closeParen => "RParen"
  | .less => "Lt"
  | .greater => "Gt"
  | .pipe => "Pipe"
  | .ampersand => "Amp"
  | .semicolon => "Semi"
  | .colon => "Colon"
  | .comma => "Comma"
  | .question => "Question"
  | .equals => "Eq"
  | .dot => "Dot"
  | .ellipsis => "Ellipsis"
  | .arrow => "Arrow"
  | .minus => "Minus"

/-- What a token is. A template keeps nothing of its content. -/
inductive TokenKind where
  | word (name : String)
  | text (value : String)
  | number (value : Binary64)
  | template
  | mark (mark : Mark)
  | other (c : Char)
deriving DecidableEq

/-- How a token is named in a message about it. -/
def TokenKind.describe : TokenKind → String
  | .word name => "'" ++ name ++ "'"
  | .text value => "string \"" ++ value ++ "\""
  | .number value => "number " ++ value.positional
  | .template => "Template"
  | .mark punctuation => punctuation.label
  | .other c => "Other(" ++ Text.quotedChar c ++ ")"

structure Token where
  kind : TokenKind
  position : Position
deriving DecidableEq

end SchemaForge
