import SchemaForge.Policy
import SchemaForge.Schema.OfType

/-! The schema of a declaration. Objects are closed: they refuse members that are not declared. Exported
types follow the policy, and an exported type that is not an object is taken as one without properties. -/
namespace SchemaForge.Catalog

/-- The fields that the server manages, as an exported type passes them through. -/
def managedSchemas (policy : Policy) : Entries Schema :=
  Entries.ofList
    [(policy.managed.id, .optional .number),
     (policy.managed.createdAt, .optional (.text none)),
     (policy.managed.updatedAt, .optional (.text none))]

/-- The rule of the policy that replaces the declared type of a property. -/
def override? (policy : Policy) (exported : Bool) (property : Property) : Option MandatoryField :=
  if exported then policy.mandatory? property.name else none

def schemaOfProperty (catalog : Catalog) (policy : Policy) (exported : Bool) (property : Property) :
    Schema :=
  let schema := match override? policy exported property with
    | some rule => .text (some rule.message)
    | none => catalog.schemaOf property.name property.type
  if property.optional then schema.orAbsent else schema

/-- The properties that are left to the declaration, since the server does not manage them. -/
def ownProperties (policy : Policy) (properties : List Property) : List Property :=
  properties.filter fun property => !policy.managed.contains property.name

/-- Adds the mandatory fields that neither the declaration nor an earlier rule has. -/
def addMandatory (policy : Policy) (properties : List Property) (fields : Entries Schema) :
    Entries Schema :=
  policy.mandatory.foldl
    (fun fields rule =>
      if properties.any (fun property => property.name = rule.name) || fields.has rule.name then fields
      else fields.put rule.name (.text (some rule.message)))
    fields

def fieldsOf (catalog : Catalog) (policy : Policy) (exported : Bool) (properties : List Property) :
    Entries Schema :=
  let passed := if exported then managedSchemas policy else []
  let declared := (ownProperties policy properties).foldl
    (fun fields property =>
      fields.put property.name (catalog.schemaOfProperty policy exported property))
    passed
  if exported then addMandatory policy properties declared else declared

def schemaOfDeclaration (catalog : Catalog) (policy : Policy) (declaration : Declaration) : Schema :=
  match declaration.body, declaration.exported with
  | .object properties, exported => .object (catalog.fieldsOf policy exported properties) true
  | .alias term, false => catalog.schemaOf declaration.name term
  | .alias _, true => .object (catalog.fieldsOf policy true []) true

/-- The names of the readonly properties in order, also of those that the server manages. -/
def readonlyNames (declaration : Declaration) : List String :=
  (declaration.properties.filter Property.readonly).map Property.name

def warningsOfDeclaration (catalog : Catalog) (policy : Policy) (declaration : Declaration) :
    List Warning :=
  match declaration.body, declaration.exported with
  | .object properties, exported =>
      ((ownProperties policy properties).filter fun property =>
        (override? policy exported property).isNone).flatMap fun property =>
          catalog.unresolvedIn property.type
  | .alias term, false => catalog.unresolvedIn term
  | .alias _, true => [.exportedAlias declaration.name declaration.position.line]

end SchemaForge.Catalog
