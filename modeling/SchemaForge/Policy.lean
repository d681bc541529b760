/-! Rules that every exported type follows, whatever its declaration says: some fields are managed by
the server and only passed through, others must be there as texts that are not empty. -/
namespace SchemaForge

/-- The names of the fields that the server manages. -/
structure ManagedFields where
  id : String
  createdAt : String
  updatedAt : String
deriving DecidableEq

namespace ManagedFields

/-- The names that are used unless others are given. -/
def standard : ManagedFields :=
  { id := "id", createdAt := "createdAt", updatedAt := "updatedAt" }

def names (fields : ManagedFields) : List String :=
  [fields.id, fields.createdAt, fields.updatedAt]

def contains (fields : ManagedFields) (name : String) : Bool :=
  decide (name ∈ fields.names)

end ManagedFields

/-- A field that must hold a text that is not empty, and the message when it does not. -/
structure MandatoryField where
  name : String
  message : String
deriving DecidableEq

structure Policy where
  managed : ManagedFields
  mandatory : List MandatoryField
deriving DecidableEq

namespace Policy

/-- The rules that are used unless others are given. -/
def standard : Policy :=
  { managed := ManagedFields.standard
    mandatory := [⟨"title", "Title is required"⟩, ⟨"category", "Category is required"⟩] }

def mandatory? (policy : Policy) (name : String) : Option MandatoryField :=
  policy.mandatory.find? fun field => field.name = name

end Policy

end SchemaForge
