import SchemaForge.Declaration.Basic
import SchemaForge.OrderedMap

/-! Schemas, the compiled form of types. A reference stays a name, which is looked up in a table while a
document is checked, so declarations may refer to one another in any way. -/
namespace SchemaForge

/-- A rule that a document, or its absence, satisfies or not. A text schema with a message asks for a
text that is not empty. -/
inductive Schema where
  | text (required : Option String)
  | number
  | boolean
  | dateTime
  | literal (value : Literal)
  | enumeration (values : List String) (message : String)
  | union (options : List Schema) (message : String)
  | array (element : Schema)
  | tuple (items : List Schema) (rest : Option Schema)
  | object (fields : List (String × Schema)) (strict : Bool)
  | record
  | optional (inner : Schema)
  | reference (name : String)
  | any

/-- The schemas of the declarations of a source by name. -/
abbrev SchemaTable := OrderedMap Schema

namespace Schema

/-- The schema that also accepts absence. A schema that is optional already stays as it is. -/
def orAbsent : Schema → Schema
  | .optional inner => .optional inner
  | schema => .optional schema

mutual

/-- The names that a schema refers to, in order and with repetitions. -/
def references : Schema → List String
  | .reference name => [name]
  | .array element => element.references
  | .optional inner => inner.references
  | .union options _ => referencesOfAll options
  | .tuple items rest =>
      referencesOfAll items ++ (match rest with
        | none => []
        | some schema => schema.references)
  | .object fields _ => referencesOfFields fields
  | .text _ => []
  | .number => []
  | .boolean => []
  | .dateTime => []
  | .literal _ => []
  | .enumeration _ _ => []
  | .record => []
  | .any => []

def referencesOfAll : List Schema → List String
  | [] => []
  | schema :: rest => schema.references ++ referencesOfAll rest

def referencesOfFields : List (String × Schema) → List String
  | [] => []
  | (_, schema) :: rest => schema.references ++ referencesOfFields rest

end

end Schema

end SchemaForge
