import SchemaForge.Json.Basic
import SchemaForge.Text.Quoted

/-! The text of a JSON document, once on a single line without blanks and once with every element and
member on a line of its own. -/
namespace SchemaForge

def JsonNumber.text : JsonNumber → String
  | .integer value => toString value
  | .real value => value.documentText

namespace Json

mutual

def compact : Json → String
  | .null => "null"
  | .bool value => if value then "true" else "false"
  | .number value => value.text
  | .string value => Text.quoted value
  | .array elements => "[" ++ ",".intercalate (compactElements elements) ++ "]"
  | .object members => "\x7b" ++ ",".intercalate (compactMembers members) ++ "\x7d"

def compactElements : List Json → List String
  | [] => []
  | element :: rest => compact element :: compactElements rest

def compactMembers : List (String × Json) → List String
  | [] => []
  | (name, value) :: rest => (Text.quoted name ++ ":" ++ compact value) :: compactMembers rest

end

/-- The start of a line at a depth, two blanks for each level. -/
def indentation (depth : Nat) : String :=
  String.ofList (List.replicate (2 * depth) ' ')

/-- Texts on lines of their own between two brackets. Without texts the brackets stand together. -/
def bracketed (opening closing : String) (depth : Nat) (texts : List String) : String :=
  if texts.isEmpty then opening ++ closing
  else
    let lines := texts.map fun text => "\n" ++ indentation (depth + 1) ++ text
    opening ++ ",".intercalate lines ++ "\n" ++ indentation depth ++ closing

mutual

/-- The document at a depth of nesting, on several lines. -/
def prettyAt (depth : Nat) : Json → String
  | .null => "null"
  | .bool value => if value then "true" else "false"
  | .number value => value.text
  | .string value => Text.quoted value
  | .array elements => bracketed "[" "]" depth (prettyElements (depth + 1) elements)
  | .object members => bracketed "\x7b" "\x7d" depth (prettyMembers (depth + 1) members)

def prettyElements (depth : Nat) : List Json → List String
  | [] => []
  | element :: rest => prettyAt depth element :: prettyElements depth rest

def prettyMembers (depth : Nat) : List (String × Json) → List String
  | [] => []
  | (name, value) :: rest =>
      (Text.quoted name ++ ": " ++ prettyAt depth value) :: prettyMembers depth rest

end

def pretty (document : Json) : String :=
  prettyAt 0 document

end Json

end SchemaForge
