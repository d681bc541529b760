import Mathlib.Algebra.Group.Nat.Defs
import SchemaForge.Declaration.Basic
import SchemaForge.Source.Lexeme

/-! The written form of declarations, and which of them have one. Types that the grammar does not tell from
`unknown` are left out, and so are references by a word that means something else in a type. -/
namespace SchemaForge

def Lexeme.isOneWord (name : String) : Bool :=
  match name.toList with
  | [] => false
  | c :: rest => startsWord c && rest.all continuesWord

/-- The words that do not refer to a declaration when they stand in a type. -/
def reservedWords : List String :=
  ["string", "number", "boolean", "null", "true", "false", "object", "any", "unknown", "undefined", "never",
    "void", "bigint", "symbol", "readonly", "keyof", "typeof", "unique", "infer", "Date"]

def quotedChar : Char → List Char
  | '\\' => ['\\', '\\']
  | '"' => ['\\', '"']
  | '\n' => ['\\', 'n']
  | '\t' => ['\\', 't']
  | '\r' => ['\\', 'r']
  | c => [c]

def quotedSource (value : String) : String :=
  "\"" ++ String.ofList (value.toList.flatMap quotedChar) ++ "\""

/-- The magnitude of a number literal is whole and below `2 ^ 53`. -/
def Literal.isPrintable : Literal → Bool
  | .number value =>
      match value.wholeMagnitude? with
      | some magnitude => decide (magnitude < 2 ^ 53)
      | none => false
  | _ => true

def Literal.source : Literal → String
  | .text value => quotedSource value
  | .number (.finite negative steps) =>
      Binary64.signText negative ++ toString (steps / Binary64.stepsInOne)
  | .number other => other.positional
  | .bool value => if value then "true" else "false"
  | .null => "null"

namespace TypeTerm

def isUnion : TypeTerm → Bool
  | .union _ => true
  | _ => false

/-- A type as an operand: unions stand in parentheses there. -/
def grouped (term : TypeTerm) (source : String) : String :=
  if term.isUnion then "(" ++ source ++ ")" else source

mutual

/-- The type has a written form that is not read as another type. -/
def isPrintable : TypeTerm → Bool
  | .primitive _ => true
  | .array element => element.isPrintable
  | .tuple elements rest =>
      allPrintable elements && (match rest with
        | none => true
        | some term => term.isPrintable)
  | .literal value => value.isPrintable
  | .union members => decide (2 ≤ members.length) && allPrintable members
  | .reference name => Lexeme.isOneWord name && decide (name ∉ reservedWords)
  | .date => true
  | .anyObject => true
  | .unknown => true

def allPrintable : List TypeTerm → Bool
  | [] => true
  | term :: rest => term.isPrintable && allPrintable rest

end

mutual

def source : TypeTerm → String
  | .primitive kind => kind.keyword
  | .array element => element.grouped element.source ++ "[]"
  | .tuple elements rest =>
      "[" ++ ", ".intercalate (sources elements ++ (match rest with
        | none => []
        | some term => ["..." ++ term.source])) ++ "]"
  | .literal value => value.source
  | .union members => " | ".intercalate (groupedSources members)
  | .reference name => name
  | .date => "Date"
  | .anyObject => "object"
  | .unknown => "unknown"

def sources : List TypeTerm → List String
  | [] => []
  | term :: rest => term.source :: sources rest

def groupedSources : List TypeTerm → List String
  | [] => []
  | term :: rest => term.grouped term.source :: groupedSources rest

end

end TypeTerm

/-- The written form of the name of a member: any word as it is, any other text in quotes. -/
def nameSource (name : String) : String :=
  if Lexeme.isOneWord name then name else quotedSource name

def Property.source (property : Property) : String :=
  (if property.readonly then "readonly " else "") ++ nameSource property.name ++
    (if property.optional then "?" else "") ++ ": " ++ property.type.source ++ ";"

/-- The white space around the members of an object type and between declarations. -/
structure Layout where
  memberGap : String
  declarationGap : String
  memberGap_blank : Text.isBlankText memberGap = true
  declarationGap_blank : Text.isBlankText declarationGap = true

def membersSource (gap : String) : List Property → String
  | [] => ""
  | property :: rest => property.source ++ gap ++ membersSource gap rest

namespace Body

def isPrintable : Body → Bool
  | .object properties => properties.all fun property => property.type.isPrintable
  | .alias term => term.isPrintable

def source (layout : Layout) : Body → String
  | .object properties =>
      "\x7b" ++ layout.memberGap ++ membersSource layout.memberGap properties ++ "\x7d"
  | .alias term => term.source

end Body

namespace Declaration

def isPrintable (declaration : Declaration) : Bool :=
  Lexeme.isOneWord declaration.name && declaration.body.isPrintable

def source (layout : Layout) (declaration : Declaration) : String :=
  (if declaration.exported then "export " else "") ++ "type " ++ declaration.name ++ " = " ++
    declaration.body.source layout ++ ";"

/-- A declaration without its place in the source. -/
def content (declaration : Declaration) : String × Bool × Body :=
  (declaration.name, declaration.exported, declaration.body)

end Declaration

/-- The written forms of declarations with a gap between any two of them. -/
def sourceOf (layout : Layout) (declarations : List Declaration) : String :=
  layout.declarationGap.intercalate (declarations.map (Declaration.source layout))

end SchemaForge
