import SchemaForge.Schema.Basic
import SchemaForge.Source.Lexeme

/-! A schema as an expression of the Zod library. Objects stand on several lines, each field on one of
its own. A name that is not defined yet is referred to lazily. -/
namespace SchemaForge

/-- The constant that holds the schema of a declaration. -/
def constantName (name : String) : String :=
  name ++ "Schema"

/-- The text can stand as a name. -/
def isWord (text : String) : Bool :=
  match text.toList with
  | [] => false
  | c :: rest => Lexeme.startsWord c && rest.all Lexeme.continuesWord

/-- The key of a field, quoted unless it is a name. -/
def fieldKey (name : String) : String :=
  if isWord name then name else Text.quoted name

/-- Two blanks for each level of nesting. -/
def indent (depth : Nat) : String :=
  String.ofList (List.replicate (2 * depth) ' ')

def commaList (texts : List String) : String :=
  ", ".intercalate texts

namespace Schema

mutual

/-- The expression of a schema at a depth of nesting, when the given names are defined. -/
def expression (defined : List String) (depth : Nat) : Schema → String
  | .text none => "z.string()"
  | .text (some message) =>
      "z.string(\x7b required_error: " ++ Text.quoted message ++ " \x7d).min(1, " ++
        Text.quoted message ++ ")"
  | .number => "z.number()"
  | .boolean => "z.boolean()"
  | .dateTime => "z.string().datetime(\"Invalid date format\")"
  | .literal value => "z.literal(" ++ value.code ++ ")"
  | .enumeration values message =>
      "z.enum([" ++ commaList (values.map Text.quoted) ++
        "], \x7b errorMap: () => (\x7b message: " ++ Text.quoted message ++ " \x7d) \x7d)"
  | .union options message =>
      "z.union([" ++ commaList (expressions defined depth options) ++
        "], \x7b errorMap: (issue, ctx) => (\x7b message: issue.code === 'invalid_union' ? " ++
        Text.quoted message ++ " : ctx.defaultError \x7d) \x7d)"
  | .array element => "z.array(" ++ expression defined depth element ++ ")"
  | .tuple items rest =>
      "z.tuple([" ++ commaList (expressions defined depth items) ++ "])" ++
        (match rest with
          | none => ""
          | some schema => ".rest(" ++ expression defined depth schema ++ ")")
  | .object fields strict =>
      "z.object(\x7b" ++
        (if fields.isEmpty then ""
          else "\n" ++ fieldLines defined (depth + 1) fields ++ indent depth) ++
        "\x7d)" ++ (if strict then ".strict()" else "")
  | .record => "z.record(z.any())"
  | .optional inner => expression defined depth inner ++ ".optional()"
  | .reference name =>
      if name ∈ defined then constantName name else "z.lazy(() => " ++ constantName name ++ ")"
  | .any => "z.any()"

def expressions (defined : List String) (depth : Nat) : List Schema → List String
  | [] => []
  | schema :: rest => expression defined depth schema :: expressions defined depth rest

def fieldLines (defined : List String) (depth : Nat) : List (String × Schema) → String
  | [] => ""
  | (name, schema) :: rest =>
      indent depth ++ fieldKey name ++ ": " ++ expression defined depth schema ++ ",\n" ++
        fieldLines defined depth rest

end

end Schema

end SchemaForge
