import SchemaForge.Number.Numeral
import SchemaForge.Source.Token
import SchemaForge.Text.Blank
import SchemaForge.Text.Numeral

/-! Cutting a source into lexemes. A lexeme is a piece of the text that is either passed over, as white
space and comments are, or read as one token. The pieces put together give the text back, and the
place of a token is the place after all pieces before it. Nothing is refused: a text or comment that is
not closed ends with its line or with the source. -/
namespace SchemaForge

/-- A piece of the source, and the token it is read as if it is one. -/
structure Lexeme where
  chars : List Char
  kind : Option TokenKind

namespace Lexeme

def startsWord (c : Char) : Bool :=
  Text.isLetter c || c == '_' || c == '$'

def continuesWord (c : Char) : Bool :=
  Text.isLetterOrNumeral c || c == '_' || c == '$'

/-- The rest of a block comment after its opening, up to and including the first closing. -/
def blockComment : List Char → List Char
  | [] => []
  | '*' :: '/' :: _ => ['*', '/']
  | c :: rest => c :: blockComment rest

/-- The rest of a template after its opening, up to and including the closing. A backslash hides the
character after it. -/
def template : List Char → List Char
  | [] => []
  | '\\' :: c :: rest => '\\' :: c :: template rest
  | c :: rest => if c = '\x60' then [c] else c :: template rest

/-- The character that stands for an escaped one. -/
def unescape : Char → Char
  | 'n' => '\n'
  | 't' => '\t'
  | 'r' => '\r'
  | c => c

/-- The rest of a quoted text after its opening: its value, and the characters taken. The closing quote
is taken, a line feed that ends the text is not. -/
def quoted (quote : Char) : List Char → List Char × List Char
  | [] => ([], [])
  | '\n' :: _ => ([], [])
  | ['\\'] => ([], ['\\'])
  | '\\' :: c :: rest =>
      let (value, taken) := quoted quote rest
      (unescape c :: value, '\\' :: c :: taken)
  | c :: rest =>
      if c = quote then ([], [c])
      else
        let (value, taken) := quoted quote rest
        (c :: value, c :: taken)

def startsWithDigit : List Char → Bool
  | [] => false
  | c :: _ => c.isDigit

/-- A number: its text, and the characters taken. Low lines between digits are taken but do not belong
to the text. There is at most one point, and an exponent mark may be followed by a sign. -/
def numeral (pointSeen started : Bool) : List Char → List Char × List Char
  | [] => ([], [])
  | c :: rest =>
      if c.isDigit then
        let (text, taken) := numeral pointSeen true rest
        (c :: text, c :: taken)
      else if c == '.' && !pointSeen && startsWithDigit rest then
        let (text, taken) := numeral true true rest
        (c :: text, c :: taken)
      else if c == '_' then
        let (text, taken) := numeral pointSeen started rest
        (text, c :: taken)
      else if (c == 'e' || c == 'E') && started then
        match rest with
        | [] => ([c], [c])
        | sign :: after =>
            if sign == '+' || sign == '-' then
              let (text, taken) := numeral pointSeen true after
              (c :: sign :: text, c :: sign :: taken)
            else
              let (text, taken) := numeral pointSeen true (sign :: after)
              (c :: text, c :: taken)
      else ([], [])

/-- The lexeme of a number. A text that writes no number is read as a stray zero. -/
def ofNumeral (chars : List Char) : Lexeme :=
  let (text, taken) := numeral false false chars
  match Binary64.ofUnsignedText? false text with
  | some value => ⟨taken, some (.number value)⟩
  | none => ⟨taken, some (.other '0')⟩

/-- The mark that a single character makes. -/
def singleMark? : Char → Option Mark
  | '\x7b' => some .openBrace
  | '\x7d' => some .closeBrace
  | '[' => some .openBracket
  | ']' => some .closeBracket
  | '(' => some .openParen
  | ')' => some .closeParen
  | '<' => some .less
  | '>' => some .greater
  | '|' => some .pipe
  | '&' => some .ampersand
  | ';' => some .semicolon
  | ':' => some .colon
  | ',' => some .comma
  | '?' => some .question
  | '-' => some .minus
  | _ => none

def ofMark (chars : List Char) (mark : Mark) : Lexeme :=
  ⟨chars, some (.mark mark)⟩

/-- The lexeme that starts with a slash: a comment or a stray character. -/
def ofSlash : List Char → Lexeme
  | '/' :: rest => ⟨'/' :: '/' :: rest.takeWhile (· ≠ '\n'), none⟩
  | '*' :: rest => ⟨'/' :: '*' :: blockComment rest, none⟩
  | _ => ⟨['/'], some (.other '/')⟩

/-- The lexeme that starts with a point: an ellipsis, a number or the point alone. -/
def ofDot : List Char → Lexeme
  | '.' :: '.' :: _ => ofMark ['.', '.', '.'] .ellipsis
  | rest => if startsWithDigit rest then ofNumeral ('.' :: rest) else ofMark ['.'] .dot

def ofEquals : List Char → Lexeme
  | '>' :: _ => ofMark ['=', '>'] .arrow
  | _ => ofMark ['='] .equals

/-- The lexeme that starts with the given character, before the given rest of the source. -/
def read (c : Char) (rest : List Char) : Lexeme :=
  if Text.isBlank c then ⟨[c], none⟩
  else if c = '/' then ofSlash rest
  else if c = '"' ∨ c = '\x27' then
    let (value, taken) := quoted c rest
    ⟨c :: taken, some (.text (String.ofList value))⟩
  else if c = '\x60' then ⟨c :: template rest, some .template⟩
  else if c.isDigit then ofNumeral (c :: rest)
  else if startsWord c then
    let name := c :: rest.takeWhile continuesWord
    ⟨name, some (.word (String.ofList name))⟩
  else if c = '=' then ofEquals rest
  else if c = '.' then ofDot rest
  else match singleMark? c with
    | some mark => ofMark [c] mark
    | none => ⟨[c], some (.other c)⟩

/-- The lexemes of a source of which the first `taken` characters belong to a lexeme read before. -/
def readFrom (taken : Nat) : List Char → List Lexeme
  | [] => []
  | c :: rest =>
      match taken with
      | taken + 1 => readFrom taken rest
      | 0 =>
          let lexeme := read c rest
          lexeme :: readFrom (lexeme.chars.length - 1) rest

def readAll (chars : List Char) : List Lexeme :=
  readFrom 0 chars

/-- The tokens among the lexemes, each at the place where its lexeme starts. -/
def tokens (position : Position) : List Lexeme → List Token
  | [] => []
  | lexeme :: rest =>
      let following := tokens (position.afterAll lexeme.chars) rest
      match lexeme.kind with
      | some kind => ⟨kind, position⟩ :: following
      | none => following

end Lexeme

def tokenize (source : String) : List Token :=
  Lexeme.tokens Position.start (Lexeme.readAll source.toList)

end SchemaForge
