import SchemaForge.Json.Basic

/-! What compiling reports without failing: parts of the source that are skipped or taken to accept any
value, names that do not resolve, and declarations that replace one another. -/
namespace SchemaForge

/-- A cause for concern in a source that still compiles. Lines are those where the cause was noticed. -/
inductive Warning where
  | objectCombined (name : String)
  | genericDeclaration (name : String)
  | mappedMember (line : Nat)
  | accessor (line : Nat)
  | indexOrCallSignature (line : Nat)
  | method (member : String)
  | intersection (line : Nat)
  | templateType (line : Nat)
  | nestedObject (line : Nat)
  | unsupportedKeyword (keyword : String)
  | typeOperator (operator : String)
  | genericArguments (name : String)
  | furtherRest
  | elementAfterRest
  | functionType (line : Nat)
  | duplicateDeclaration (name : String) (firstLine line : Nat)
  | unresolvedReference (name : String)
  | exportedAlias (name : String) (line : Nat)
  | keyCollision (name key : String)
deriving DecidableEq

namespace Warning

/-- The wording of a warning. -/
def message : Warning → String
  | .objectCombined _ =>
      "Object literal combined with other types is not supported; accepting any value"
  | .genericDeclaration _ => "Generic declarations are not supported; accepting any value"
  | .mappedMember _ => "Mapped type members are not supported; skipping member"
  | .accessor _ => "Accessor signatures are not supported; skipping member"
  | .indexOrCallSignature _ => "Index and call signatures are not supported; skipping member"
  | .method _ => "Method signatures are not supported; skipping member"
  | .intersection _ => "Intersection types are not supported; accepting any value"
  | .templateType _ => "Template literal types are not supported; accepting any value"
  | .nestedObject _ => "Nested object literal types are not supported; accepting any value"
  | .unsupportedKeyword _ => "Unsupported keyword type; accepting any value"
  | .typeOperator _ => "Type operators are not supported; accepting any value"
  | .genericArguments _ => "Generic type arguments are not supported; accepting any value"
  | .furtherRest => "Tuple has more than one rest element; keeping the first"
  | .elementAfterRest => "Tuple elements after a rest element are not supported; ignoring them"
  | .functionType _ => "Function types are not supported; accepting any value"
  | .duplicateDeclaration _ _ _ => "Duplicate type declaration; the later one wins"
  | .unresolvedReference _ => "Unresolved type reference; accepting any value"
  | .exportedAlias _ _ => "Exported type is not an object shape; compiling it as an empty object"
  | .keyCollision _ _ => "Exported types collide after lower-casing; the later one wins"

/-- What a warning is about, by name. -/
def details : Warning → Entries Json
  | .objectCombined name => [("name", .string name)]
  | .genericDeclaration name => [("name", .string name)]
  | .mappedMember line => [("line", .ofNat line)]
  | .accessor line => [("line", .ofNat line)]
  | .indexOrCallSignature line => [("line", .ofNat line)]
  | .method member => [("member", .string member)]
  | .intersection line => [("line", .ofNat line)]
  | .templateType line => [("line", .ofNat line)]
  | .nestedObject line => [("line", .ofNat line)]
  | .unsupportedKeyword keyword => [("keyword", .string keyword)]
  | .typeOperator operator => [("operator", .string operator)]
  | .genericArguments name => [("name", .string name)]
  | .furtherRest => []
  | .elementAfterRest => []
  | .functionType line => [("line", .ofNat line)]
  | .duplicateDeclaration name firstLine line =>
      [("name", .string name), ("first_line", .ofNat firstLine), ("line", .ofNat line)]
  | .unresolvedReference name => [("name", .string name)]
  | .exportedAlias name line => [("name", .string name), ("line", .ofNat line)]
  | .keyCollision name key => [("name", .string name), ("key", .string key)]

end Warning

end SchemaForge
