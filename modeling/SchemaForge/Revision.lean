import SchemaForge.Artifacts

/-! Revising a document by a patch. Fields that the server manages are dropped from the patch, a patch
that touches readonly properties is refused, and only then the revised document is checked. A patch that
has nothing left to say is accepted without a check. -/
namespace SchemaForge

inductive Refusal where
  | unknownType (unknown : UnknownType)
  | readonly (fields : List String)
  | invalid (violations : List Violation)

def Refusal.message : Refusal → String
  | .unknownType unknown => unknown.message
  | .readonly fields =>
      "The following properties are readonly and cannot be updated: " ++ ", ".intercalate fields
  | .invalid violations =>
      "Invalid data: " ++ "; ".intercalate (violations.map Violation.describe)

namespace Artifacts

/-- The members of a patch that the server does not manage. -/
def effectiveMembers (managed : ManagedFields) (patch : Entries Json) : Entries Json :=
  patch.filter fun member => !managed.contains member.1

/-- Revises a document of the type that is served under a key. A document that is no object counts as
one without members. -/
def revise (artifacts : Artifacts) (managed : ManagedFields) (key : String) (document patch : Json) :
    Except Refusal Json :=
  match artifacts.validators.find? key with
  | none => .error (.unknownType ⟨key⟩)
  | some typeName =>
      match patch with
      | .object patchMembers =>
          let changes := effectiveMembers managed patchMembers
          let touched := changes.names.filter (artifacts.isReadonly key)
          if touched.isEmpty then
            let revised : Json := .object (document.members.putAll changes)
            if changes.isEmpty then .ok revised
            else
              match artifacts.violations typeName revised with
              | [] => .ok revised
              | violations => .error (.invalid violations)
          else .error (.readonly touched)
      | other => .error (.invalid [⟨"", "Expected object, received " ++ other.kindName, .wrongType⟩])

end Artifacts

end SchemaForge
