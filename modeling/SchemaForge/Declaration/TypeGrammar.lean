import SchemaForge.Declaration.Basic
import SchemaForge.Declaration.Reading
import SchemaForge.Declaration.Skipping

/-! The grammar of types. Unions are built from intersections, these from operands, and an operand is a
primary type with any number of array suffixes. Each part is a reader that is given the reader for the
operands nested in it, so one recursion ties the grammar together, over the depth of nesting. Types
without a form of their own are read to their end, reported, and taken as unknown. -/
namespace SchemaForge.Grammar

open Reader

/-- Wraps the type once for each pair of empty brackets that follows. -/
def arraySuffixes (term : TypeTerm) : List Token → TypeTerm × List Token
  | ⟨.mark .openBracket, _⟩ :: ⟨.mark .closeBracket, _⟩ :: rest => arraySuffixes (.array term) rest
  | rest => (term, rest)

def suffixed (term : TypeTerm) : Reader TypeTerm := do
  let (term, rest) := arraySuffixes term (← remaining)
  continueAt rest
  return term

def intersectionTail (operand : Reader TypeTerm) (first : TypeTerm) : Reader TypeTerm := do
  let further ← eachAfter .ampersand operand (← remaining).length
  if further.isEmpty then return first
  else
    warn (.intersection (← place).line)
    return .unknown

def intersection (operand : Reader TypeTerm) : Reader TypeTerm := do
  intersectionTail operand (← operand)

/-- Reads what follows the first member of a union. -/
def unionTail (operand : Reader TypeTerm) (first : TypeTerm) : Reader TypeTerm := do
  let further ← eachAfter .pipe (intersection operand) (← remaining).length
  if further.isEmpty then return first else return .union (first :: further)

/-- Reads a type. A bar may stand before the first member of a union. -/
def wholeType (operand : Reader TypeTerm) : Reader TypeTerm := do
  let _ ← accept .pipe
  unionTail operand (← intersection operand)

def startsType (tokens : List Token) : Bool :=
  match tokens.head?.map Token.kind with
  | some (.word _) => true
  | some (.text _) => true
  | some (.number _) => true
  | some (.mark .openBracket) => true
  | some (.mark .openParen) => true
  | _ => false

/-- The parts of a dotted name after the first. -/
def dottedParts (name : String) : List Token → String × List Token
  | ⟨.mark .dot, _⟩ :: ⟨.word part, _⟩ :: rest => dottedParts (name ++ "." ++ part) rest
  | rest => (name, rest)

/-- Reads a reference whose first name was read. Only arrays may have type arguments. -/
def referenceTo (operand : Reader TypeTerm) (first : String) : Reader TypeTerm := do
  let (name, rest) := dottedParts first (← remaining)
  continueAt rest
  let degrade : Reader TypeTerm := do
    continueAt (skipArguments 0 (← remaining))
    warn (.genericArguments name)
    return .unknown
  match rest.head?.map Token.kind with
  | some (.mark .less) =>
      if name = "Array" ∨ name = "ReadonlyArray" then
        let _ ← accept .less
        let element ← wholeType operand
        if ← accept .greater then return .array element else degrade
      else degrade
  | _ => return if name = "Date" then .date else .reference name

/-- Reads a type that starts with a word, which was read. -/
def namedType (operand : Reader TypeTerm) (word : String) : Reader TypeTerm := do
  let operandFollows := startsType (← remaining)
  if word = "string" then return .primitive .string
  else if word = "number" then return .primitive .number
  else if word = "boolean" then return .primitive .boolean
  else if word = "null" then return .literal .null
  else if word = "true" then return .literal (.bool true)
  else if word = "false" then return .literal (.bool false)
  else if word = "object" then return .anyObject
  else if word = "any" ∨ word = "unknown" then return .unknown
  else if word ∈ ["undefined", "never", "void", "bigint", "symbol"] then
    warn (.unsupportedKeyword word)
    return .unknown
  else if word = "readonly" ∧ operandFollows then operand
  else if word ∈ ["keyof", "typeof", "unique", "infer"] ∧ operandFollows then
    let _ ← operand
    warn (.typeOperator word)
    return .unknown
  else referenceTo operand word

def skipLabel : List Token → List Token
  | ⟨.word _, _⟩ :: ⟨.mark .colon, _⟩ :: rest => rest
  | ⟨.word _, _⟩ :: ⟨.mark .question, _⟩ :: ⟨.mark .colon, _⟩ :: rest => rest
  | rest => rest

/-- Adds an element to the ones of a tuple read so far. Only the first rest element counts, and nothing
after it. -/
def addElement (elements : List TypeTerm) (rest : Option TypeTerm) (spread : Bool)
    (element : TypeTerm) : Reader (List TypeTerm × Option TypeTerm) := do
  match rest, spread with
  | none, true => return (elements, some element)
  | none, false => return (elements ++ [element], none)
  | some first, true =>
      warn .furtherRest
      return (elements, some first)
  | some first, false =>
      warn .elementAfterRest
      return (elements, some first)

/-- Reads the elements of a tuple up to and including its closing bracket. The first argument bounds
their number. -/
def tupleElements (operand : Reader TypeTerm) :
    Nat → List TypeTerm → Option TypeTerm → Reader TypeTerm
  | 0, _, _ => refuseNext .type
  | bound + 1, elements, rest => do
      if ← accept .closeBracket then return .tuple elements rest
      else
        let spread ← accept .ellipsis
        continueAt (skipLabel (← remaining))
        let element ← wholeType operand
        let _ ← accept .question
        let (elements, rest) ← addElement elements rest spread element
        if ← accept .comma then tupleElements operand bound elements rest
        else
          expectAs .closeBracket .tupleEnd
          return .tuple elements rest

def tupleType (operand : Reader TypeTerm) : Reader TypeTerm := do
  expect .openBracket
  tupleElements operand ((← remaining).length + 1) [] none

/-- Reads a type in parentheses, or a function type. -/
def parenthesized (operand : Reader TypeTerm) : Reader TypeTerm := do
  let tokens ← remaining
  if startsFunction 0 tokens then
    continueAt (skipGroup .openParen .closeParen 0 tokens)
    expect .arrow
    let _ ← wholeType operand
    warn (.functionType (← place).line)
    return .unknown
  else
    expect .openParen
    let term ← wholeType operand
    expect .closeParen
    return term

/-- Reads a type without array suffixes. -/
def primaryType (operand : Reader TypeTerm) : Reader TypeTerm := do
  match ← remaining with
  | [] => refuseNext .type
  | token :: rest =>
      match token.kind with
      | .word name =>
          continueAt rest
          namedType operand name
      | .text value =>
          continueAt rest
          return .literal (.text value)
      | .number value =>
          continueAt rest
          return .literal (.number value)
      | .template =>
          continueAt rest
          warn (.templateType token.position.line)
          return .unknown
      | .mark .minus =>
          match rest with
          | ⟨.number value, _⟩ :: rest =>
              continueAt rest
              return .literal (.number value.neg)
          | _ => refuse .numberExpected
      | .mark .openBracket => tupleType operand
      | .mark .openParen => parenthesized operand
      | .mark .openBrace =>
          warn (.nestedObject token.position.line)
          continueAt (skipGroup .openBrace .closeBrace 0 (token :: rest))
          return .unknown
      | _ => refuseNext .type

/-- Reads an operand in which operands are nested at most to the given depth. -/
def operandWithin : Nat → Reader TypeTerm
  | 0 => refuseNext .type
  | depth + 1 => do
      suffixed (← primaryType (operandWithin depth))

/-- Reads an operand. Every nested operand starts at a later token, so the number of tokens bounds the
depth. -/
def operandType : Reader TypeTerm := do
  operandWithin ((← remaining).length + 1)

def typeTerm : Reader TypeTerm :=
  wholeType operandType

end SchemaForge.Grammar
