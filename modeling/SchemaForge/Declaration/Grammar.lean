import SchemaForge.Declaration.TypeGrammar
import SchemaForge.Source.Lexeme

/-! The grammar of declarations, and finding them in a source that may hold other code. A declaration
counts where no bracket is open. Members that are not properties are passed over and reported; what
follows the equals sign of a declaration must be well formed. -/
namespace SchemaForge.Grammar

open Reader

/-- The token can follow a modifier as the name of the member. -/
def namesMember : List Token → Bool
  | ⟨.word _, _⟩ :: _ => true
  | ⟨.text _, _⟩ :: _ => true
  | ⟨.number _, _⟩ :: _ => true
  | ⟨.mark .openBracket, _⟩ :: _ => true
  | _ => false

/-- The modifier of a readonly member. A member that is only named so has none. -/
def skipReadonly : List Token → Bool × List Token
  | ⟨.word "readonly", p⟩ :: rest =>
      if namesMember rest then (true, rest) else (false, ⟨.word "readonly", p⟩ :: rest)
  | tokens => (false, tokens)

/-- The member is removed or added by a mapping. -/
def startsMapping : List Token → Bool
  | ⟨.mark .minus, _⟩ :: ⟨.word "readonly", _⟩ :: _ => true
  | ⟨.other '+', _⟩ :: ⟨.word "readonly", _⟩ :: _ => true
  | _ => false

/-- The member is an accessor. A member that is only named like one is none. -/
def startsAccessor : List Token → Bool
  | ⟨.word "get", _⟩ :: rest => namesMember rest
  | ⟨.word "set", _⟩ :: rest => namesMember rest
  | _ => false

/-- The type parameters or arguments of a method follow. -/
def startsMethod : List Token → Bool
  | ⟨.mark .openParen, _⟩ :: _ => true
  | ⟨.mark .less, _⟩ :: _ => true
  | _ => false

/-- Passes over a member and reports it. -/
def skipped (warning : Warning) : Reader (Option Property) := do
  warn warning
  continueAt (skipMember 0 (← remaining))
  return none

/-- Reads a property whose modifier and name were read. -/
def namedProperty (name : String) (readonly : Bool) : Reader (Option Property) := do
  let optional ← accept .question
  if startsMethod (← remaining) then skipped (.method name)
  else
    expect .colon
    let type ← typeTerm
    return some ⟨name, type, optional, readonly⟩

/-- Reads a member of an object type. Only properties yield one. -/
def member : Reader (Option Property) := do
  if startsMapping (← remaining) then skipped (.mappedMember (← place).line)
  else
    let (readonly, tokens) := skipReadonly (← remaining)
    continueAt tokens
    if startsAccessor tokens then skipped (.accessor (← place).line)
    else
      match tokens with
      | ⟨.word name, _⟩ :: rest =>
          continueAt rest
          namedProperty name readonly
      | ⟨.text name, _⟩ :: rest =>
          continueAt rest
          namedProperty name readonly
      | ⟨.number value, _⟩ :: rest =>
          continueAt rest
          namedProperty value.literalText readonly
      | ⟨.mark .openBracket, _⟩ :: _ => skipped (.indexOrCallSignature (← place).line)
      | ⟨.mark .openParen, _⟩ :: _ => skipped (.indexOrCallSignature (← place).line)
      | ⟨.mark .less, _⟩ :: _ => skipped (.indexOrCallSignature (← place).line)
      | _ => refuseNext .propertyName

/-- The tokens after the semicolons and commas at the start. -/
def skipSeparators : List Token → List Token
  | ⟨.mark .semicolon, _⟩ :: rest => skipSeparators rest
  | ⟨.mark .comma, _⟩ :: rest => skipSeparators rest
  | tokens => tokens

/-- A member ends before this token. -/
def endsMember : List Token → Bool
  | ⟨.mark .semicolon, _⟩ :: _ => true
  | ⟨.mark .comma, _⟩ :: _ => true
  | ⟨.mark .closeBrace, _⟩ :: _ => true
  | _ => false

/-- Reads the members of an object type up to and including its closing brace. The first argument
bounds their number. -/
def members : Nat → Reader (List Property)
  | 0 => refuse .unterminatedObject
  | bound + 1 => do
      continueAt (skipSeparators (← remaining))
      if (← remaining).isEmpty then refuse .unterminatedObject
      else if ← accept .closeBrace then return []
      else
        let property ← member
        if endsMember (← remaining) then
          let further ← members bound
          return property.toList ++ further
        else refuseNext .propertyEnd

def objectType : Reader (List Property) := do
  expect .openBrace
  members ((← remaining).length + 1)

/-- The type goes on after an object type. -/
def continuesType : List Token → Bool
  | ⟨.mark .pipe, _⟩ :: _ => true
  | ⟨.mark .ampersand, _⟩ :: _ => true
  | ⟨.mark .openBracket, _⟩ :: ⟨.mark .closeBracket, _⟩ :: _ => true
  | _ => false

/-- Reads what follows a first part that is taken as unknown. -/
def continuedType : Reader TypeTerm := do
  let first ← suffixed .unknown
  let first ← intersectionTail operandType first
  unionTail operandType first

def body (name : String) : Reader Body := do
  match (← remaining).head?.map Token.kind with
  | some (.mark .openBrace) =>
      let properties ← objectType
      if continuesType (← remaining) then
        warn (.objectCombined name)
        return .alias (← continuedType)
      else return .object properties
  | _ => return .alias (← typeTerm)

/-- The start of a declaration, up to its name. -/
structure Heading where
  exported : Bool
  name : String

def startsWithWord (word : String) : List Token → Bool
  | token :: _ => token.kind = .word word
  | [] => false

/-- The heading of a declaration that starts here, and the tokens after it. An equals sign or type
parameters must follow. -/
def heading? (tokens : List Token) : Option (Heading × List Token) :=
  let exported := startsWithWord "export" tokens
  let tokens := if exported then tokens.tail else tokens
  let tokens := if startsWithWord "declare" tokens then tokens.tail else tokens
  if startsWithWord "type" tokens then
    match tokens.tail with
    | ⟨.word name, _⟩ :: next :: rest =>
        if next.kind = .mark .equals ∨ next.kind = .mark .less then
          some (⟨exported, name⟩, next :: rest)
        else none
    | _ => none
  else none

/-- Reads a declaration after its heading, which stands at the given place. -/
def declaration (position : Position) (heading : Heading) : Reader Declaration := do
  let tokens ← remaining
  let generic := tokens.head?.map Token.kind == some (.mark .less)
  if generic then continueAt (skipGroup .less .greater 0 tokens)
  expect .equals
  let contents ← body heading.name
  if generic then warn (.genericDeclaration heading.name)
  let _ ← accept .semicolon
  return { name := heading.name
           exported := heading.exported
           body := if generic then .alias .unknown else contents
           position := position }

/-- The number of open brackets after a token. A closing bracket without an opening one counts for
nothing. -/
def bracketDepth (depth : Nat) : TokenKind → Nat
  | .mark .openBrace => depth + 1
  | .mark .openParen => depth + 1
  | .mark .openBracket => depth + 1
  | .mark .closeBrace => depth - 1
  | .mark .closeParen => depth - 1
  | .mark .closeBracket => depth - 1
  | _ => depth

/-- The declarations of a source, or why it is refused, with the warnings collected on the way. -/
structure Scan where
  outcome : Except SyntaxError (List Declaration)
  warnings : List Warning

/-- Adds a declaration in front, with the warnings of its own reading. -/
def Scan.after (found : Declaration) (warnings : List Warning) (scan : Scan) : Scan :=
  { outcome := scan.outcome.map (found :: ·)
    warnings := warnings ++ scan.warnings }

/-- Finds the declarations among tokens of which the first `taken` belong to a declaration read before.
The depth is the number of open brackets, the position that of the last token. -/
def scanFrom (final : Position) (taken depth : Nat) : List Token → Scan
  | [] => ⟨.ok [], []⟩
  | token :: rest =>
      match taken with
      | taken + 1 => scanFrom final taken depth rest
      | 0 =>
          match if depth = 0 then heading? (token :: rest) else none with
          | none => scanFrom final 0 (bracketDepth depth token.kind) rest
          | some (heading, following) =>
              match declaration token.position heading final following with
              | .refused error warnings => ⟨.error error, warnings⟩
              | .done found left warnings =>
                  (scanFrom final (rest.length - left.length) 0 rest).after found warnings

def finalPosition (tokens : List Token) : Position :=
  (tokens.getLast?.map Token.position).getD ⟨0, 0⟩

def scanTokens (tokens : List Token) : Scan :=
  scanFrom (finalPosition tokens) 0 0 tokens

def scan (source : String) : Scan :=
  scanTokens (tokenize source)

end SchemaForge.Grammar
