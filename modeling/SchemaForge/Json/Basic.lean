import SchemaForge.Number.Layout
import SchemaForge.OrderedMap

/-! JSON documents. Objects keep the order of their members. An integer that fits 64 bits stays an
integer; every other number is a double. -/
namespace SchemaForge

inductive JsonNumber where
  | integer (value : Int)
  | real (value : Binary64)
deriving DecidableEq

/-- The number as a double, the nearest one for an integer. -/
def JsonNumber.toBinary64 : JsonNumber → Binary64
  | .integer value => Binary64.ofInt value
  | .real value => value

inductive Json where
  | null
  | bool (value : Bool)
  | number (value : JsonNumber)
  | string (value : String)
  | array (elements : List Json)
  | object (members : List (String × Json))
deriving Inhabited

namespace Json

/-- The word for the kind of a document in messages. -/
def kindName : Json → String
  | .null => "null"
  | .bool _ => "boolean"
  | .number _ => "number"
  | .string _ => "string"
  | .array _ => "array"
  | .object _ => "object"

/-- The member of an object with this name. Other documents have no members. -/
def member? (name : String) : Json → Option Json
  | .object members => Entries.find? name members
  | _ => none

/-- The members of an object; other documents have none. -/
def members : Json → Entries Json
  | .object members => members
  | _ => []

def ofNat (n : Nat) : Json :=
  .number (.integer n)

/-- A text or `null`. -/
def ofOptionalText : Option String → Json
  | some text => .string text
  | none => .null

def ofTexts (texts : List String) : Json :=
  .array (texts.map .string)

end Json

end SchemaForge
