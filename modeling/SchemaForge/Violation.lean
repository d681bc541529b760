import SchemaForge.Json.Basic

/-! What is wrong with a document, field by field. -/
namespace SchemaForge

inductive ViolationKind where
  | required
  | wrongType
  | wrongLiteral
  | notEnumerated
  | noAlternative
  | malformedText
  | tooSmall
  | tooBig
  | unknownKeys
  | custom
deriving DecidableEq

def ViolationKind.code : ViolationKind → String
  | .required => "required"
  | .wrongType => "invalid_type"
  | .wrongLiteral => "invalid_literal"
  | .notEnumerated => "invalid_enum_value"
  | .noAlternative => "invalid_union"
  | .malformedText => "invalid_string"
  | .tooSmall => "too_small"
  | .tooBig => "too_big"
  | .unknownKeys => "unrecognized_keys"
  | .custom => "custom"

/-- A violation of a field, which is named by its dotted path and empty for the document itself. -/
structure Violation where
  field : String
  message : String
  kind : ViolationKind
deriving DecidableEq

namespace Violation

def describe (violation : Violation) : String :=
  if violation.field = "" then violation.message else violation.field ++ ": " ++ violation.message

/-- The violation as a document, without its kind. -/
def toJson (violation : Violation) : Json :=
  .object [("field", .string violation.field), ("message", .string violation.message)]

/-- Groups of messages that grow, with the place of the group of each field. -/
structure Grouper where
  groups : Entries (List String)
  places : OrderedMap Nat

namespace Grouper

def empty : Grouper :=
  { groups := [], places := OrderedMap.empty }

/-- Adds a message to the group at the place of its field. A field without a place gets a group at the end. -/
def add (grouper : Grouper) (violation : Violation) : Grouper :=
  match grouper.places.find? violation.field with
  | some place =>
      { grouper with
        groups := grouper.groups.modify place fun group => (group.1, group.2 ++ [violation.message]) }
  | none =>
      { groups := grouper.groups ++ [(violation.field, [violation.message])]
        places := grouper.places.put violation.field grouper.groups.length }

end Grouper

/-- The messages of each field, fields in order of their first violation. -/
def byField (violations : List Violation) : Entries (List String) :=
  (violations.foldl Grouper.add Grouper.empty).groups

end Violation

inductive Verdict where
  | valid (document : Json)
  | invalid (violations : List Violation)

namespace Verdict

/-- A document without violations is valid. -/
def ofViolations (document : Json) : List Violation → Verdict
  | [] => .valid document
  | violations => .invalid violations

def isValid : Verdict → Bool
  | .valid _ => true
  | .invalid _ => false

/-- The accepted document. -/
def document? : Verdict → Option Json
  | .valid document => some document
  | .invalid _ => none

/-- The violations; an accepted document has none. -/
def violations : Verdict → List Violation
  | .valid _ => []
  | .invalid violations => violations

/-- The outcome as a document. -/
def toJson : Verdict → Json
  | .valid document => .object [("valid", .bool true), ("data", document)]
  | .invalid violations =>
      .object [("valid", .bool false), ("errors", .array (violations.map Violation.toJson))]

end Verdict

end SchemaForge
