import SchemaForge.Number.Layout
import SchemaForge.Source.Token
import SchemaForge.Text.LowerCase
import SchemaForge.Text.Quoted

/-! Type declarations: a name for an object type or for any other type. -/
namespace SchemaForge

/-- A value that is a type of its own. -/
inductive Literal where
  | text (value : String)
  | number (value : Binary64)
  | bool (value : Bool)
  | null
deriving DecidableEq

namespace Literal

/-- The value as plain text. -/
def plain : Literal → String
  | .text value => value
  | .number value => value.literalText
  | .bool value => if value then "true" else "false"
  | .null => "null"

/-- The value in a list of alternatives, where only texts are quoted. -/
def describe : Literal → String
  | .text value => "'" ++ value ++ "'"
  | other => other.plain

/-- The value as generated code writes it. -/
def code : Literal → String
  | .text value => Text.quoted value
  | other => other.plain

end Literal

inductive Primitive where
  | string
  | number
  | boolean
deriving DecidableEq

def Primitive.keyword : Primitive → String
  | .string => "string"
  | .number => "number"
  | .boolean => "boolean"

/-- A type as it is written in a declaration. Whatever has no form of its own is `unknown`. -/
inductive TypeTerm where
  | primitive (kind : Primitive)
  | array (element : TypeTerm)
  | tuple (elements : List TypeTerm) (rest : Option TypeTerm)
  | literal (value : Literal)
  | union (members : List TypeTerm)
  | reference (name : String)
  | date
  | anyObject
  | unknown

namespace TypeTerm

mutual

/-- The names that a type refers to, in order and with repetitions. -/
def references : TypeTerm → List String
  | .reference name => [name]
  | .array element => element.references
  | .tuple elements rest =>
      referencesOfAll elements ++ (match rest with
        | none => []
        | some term => term.references)
  | .union members => referencesOfAll members
  | .primitive _ => []
  | .literal _ => []
  | .date => []
  | .anyObject => []
  | .unknown => []

def referencesOfAll : List TypeTerm → List String
  | [] => []
  | term :: rest => term.references ++ referencesOfAll rest

end

def textLiteral? : TypeTerm → Option String
  | .literal (.text value) => some value
  | _ => none

/-- The values of the types if there is one and all are text literals. -/
def textLiterals? (terms : List TypeTerm) : Option (List String) :=
  if terms.isEmpty then none else terms.mapM textLiteral?

/-- How a type is named in a list of alternatives. -/
def describe : TypeTerm → String
  | .literal value => value.describe
  | .primitive kind => kind.keyword
  | .reference name => name
  | .date => "Date"
  | .array element => element.describe ++ "[]"
  | .tuple _ _ => "other"
  | .union _ => "other"
  | .anyObject => "other"
  | .unknown => "other"

end TypeTerm

structure Property where
  name : String
  type : TypeTerm
  optional : Bool
  readonly : Bool

/-- What a declaration gives a name to. -/
inductive Body where
  | object (properties : List Property)
  | alias (term : TypeTerm)

structure Declaration where
  name : String
  exported : Bool
  body : Body
  position : Position

namespace Declaration

/-- The key under which an exported type is served. -/
def key (declaration : Declaration) : String :=
  Text.lowerCase declaration.name

def isObject (declaration : Declaration) : Bool :=
  match declaration.body with
  | .object _ => true
  | .alias _ => false

/-- The properties of an object type; other types have none. -/
def properties (declaration : Declaration) : List Property :=
  match declaration.body with
  | .object properties => properties
  | .alias _ => []

/-- The first property with this name. -/
def property? (declaration : Declaration) (name : String) : Option Property :=
  declaration.properties.find? fun property => property.name = name

/-- The values of a declaration that is a union of text literals only. -/
def textLiteralUnion? (declaration : Declaration) : Option (List String) :=
  match declaration.body with
  | .alias (.union members) => TypeTerm.textLiterals? members
  | _ => none

end Declaration

end SchemaForge
