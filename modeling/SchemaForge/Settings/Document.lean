import SchemaForge.Json.Basic

/-! Documents that settings are read from. A format says what it counts as a text, as a list and as a
record, and reading settings is written once for every format. -/
namespace SchemaForge

/-- A format of documents. A record has fields by name; those whose names are given are read afterwards,
and the format decides whether it accepts what else the record holds. -/
class DocumentFormat (δ : Type) where
  text? : δ → Option String
  list? : δ → Option (List δ)
  fields? : List String → δ → Option (Entries δ)

/-- A record in JSON is an object, whose further members are ignored, or an array of no more than the
fields in order. -/
instance : DocumentFormat Json where
  text?
    | .string value => some value
    | _ => none
  list?
    | .array elements => some elements
    | _ => none
  fields? names
    | .object members => some members
    | .array elements => if elements.length ≤ names.length then some (names.zip elements) else none
    | _ => none

end SchemaForge
