import SchemaForge.Declaration.Grammar
import SchemaForge.Schema.Check
import SchemaForge.Schema.OfDeclaration

/-! Compiling declarations: the schemas of all of them by name, and for the exported ones the validators
and the readonly properties by key. -/
namespace SchemaForge

/-- What compiling yields. A validator is the name of the declaration whose schema it checks. -/
structure Artifacts where
  catalog : Catalog
  schemas : SchemaTable
  validators : OrderedMap String
  readonly : OrderedMap (List String)

/-- No type is served under the key. -/
structure UnknownType where
  key : String
deriving DecidableEq

def UnknownType.message (unknown : UnknownType) : String :=
  "No validator registered for type '" ++ unknown.key ++ "'"

namespace Artifacts

def build (policy : Policy) (catalog : Catalog) : Artifacts :=
  { catalog := catalog
    schemas := OrderedMap.ofList (catalog.declarations.map fun declaration =>
      (declaration.name, catalog.schemaOfDeclaration policy declaration))
    validators := OrderedMap.ofList (catalog.exported.map fun declaration =>
      (declaration.key, declaration.name))
    readonly := OrderedMap.ofList (catalog.exported.map fun declaration =>
      (declaration.key, Catalog.readonlyNames declaration)) }

/-- The warnings about declarations whose key is among those given or taken by an earlier one. -/
def collisions (taken : List String) : List Declaration → List Warning
  | [] => []
  | declaration :: rest =>
      let key := declaration.key
      if key ∈ taken then .keyCollision declaration.name key :: collisions taken rest
      else collisions (key :: taken) rest

def buildWarnings (policy : Policy) (catalog : Catalog) : List Warning :=
  catalog.declarations.flatMap (catalog.warningsOfDeclaration policy) ++
    collisions [] catalog.exported

def violations (artifacts : Artifacts) (typeName : String) (document : Json) : List Violation :=
  match artifacts.schemas.find? typeName with
  | some schema => check artifacts.schemas schema (some document)
  | none => [⟨"", "No schema compiled for type '" ++ typeName ++ "'", .custom⟩]

/-- The verdict on a document for the type that is served under a key. -/
def validate (artifacts : Artifacts) (key : String) (document : Json) : Except UnknownType Verdict :=
  match artifacts.validators.find? key with
  | some typeName => .ok (Verdict.ofViolations document (artifacts.violations typeName document))
  | none => .error ⟨key⟩

/-- The readonly properties of the type that is served under a key; an unknown type has none. -/
def readonlyFields (artifacts : Artifacts) (key : String) : List String :=
  (artifacts.readonly.find? key).getD []

def isReadonly (artifacts : Artifacts) (key field : String) : Bool :=
  decide (field ∈ artifacts.readonlyFields key)

end Artifacts

end SchemaForge
