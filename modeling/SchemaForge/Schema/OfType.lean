import SchemaForge.Declaration.Catalog
import SchemaForge.Schema.Basic

/-! The schema of a type. A union of texts becomes an enumeration, also where a declared one is referred
to; other references stay references. A name that is not declared accepts anything. -/
namespace SchemaForge

/-- Alternatives in a sentence: commas between them and "or" before the last. -/
def alternatives : List String → String
  | [] => ""
  | [only] => only
  | first :: rest =>
      ", ".intercalate (first :: rest.dropLast) ++ " or " ++ (rest.getLast?.getD "")

/-- The message when a value is none of the alternatives for a subject. -/
def invalidValueMessage (subject : String) (options : List String) : String :=
  "Invalid value for '" ++ subject ++ "'. Expected " ++ alternatives options

/-- The enumeration of texts, whose message names the subject. -/
def enumerationOf (subject : String) (values : List String) : Schema :=
  .enumeration values (invalidValueMessage subject (values.map fun value => "'" ++ value ++ "'"))

/-- The schema of the elements, if the schema is one of arrays. -/
def Schema.elementOrSelf : Schema → Schema
  | .array element => element
  | schema => schema

namespace Catalog

def schemaOfReference (catalog : Catalog) (name : String) : Schema :=
  if name = "Date" then .dateTime
  else
    match catalog.find? name with
    | none => .any
    | some declaration =>
        match declaration.textLiteralUnion? with
        | some values => enumerationOf name values
        | none => .reference name

/-- The name is neither built in nor declared. -/
def isUnresolved (catalog : Catalog) (name : String) : Bool :=
  name ≠ "Date" && !catalog.has name

mutual

/-- The schema of a type that belongs to the named subject. The rest element of a tuple is written as an
array and gives the schema of its elements. -/
def schemaOf (catalog : Catalog) (subject : String) : TypeTerm → Schema
  | .primitive .string => .text none
  | .primitive .number => .number
  | .primitive .boolean => .boolean
  | .array element => .array (schemaOf catalog subject element)
  | .tuple elements rest =>
      .tuple (schemasOf catalog subject elements) (match rest with
        | none => none
        | some (.array element) => some (schemaOf catalog subject element)
        | some term => some (schemaOf catalog subject term).elementOrSelf)
  | .literal value => .literal value
  | .union members =>
      match TypeTerm.textLiterals? members with
      | some values => enumerationOf subject values
      | none =>
          .union (schemasOf catalog subject members)
            (invalidValueMessage subject (members.map TypeTerm.describe))
  | .reference name => catalog.schemaOfReference name
  | .date => .dateTime
  | .anyObject => .record
  | .unknown => .any

def schemasOf (catalog : Catalog) (subject : String) : List TypeTerm → List Schema
  | [] => []
  | term :: rest => schemaOf catalog subject term :: schemasOf catalog subject rest

end

/-- The warnings about the names that a type refers to. -/
def unresolvedIn (catalog : Catalog) (term : TypeTerm) : List Warning :=
  (term.references.filter catalog.isUnresolved).map .unresolvedReference

end Catalog

end SchemaForge
