import SchemaForge.Declaration.Basic
import SchemaForge.Warning

/-! The declarations of a source by name. A later declaration replaces an earlier one of the same name
and takes its place. -/
namespace SchemaForge

abbrev Catalog := OrderedMap Declaration

namespace Catalog

def register (catalog : Catalog) (declaration : Declaration) : Catalog :=
  catalog.put declaration.name declaration

/-- The warning about a declaration whose name is taken. -/
def duplicate? (catalog : Catalog) (declaration : Declaration) : Option Warning :=
  (catalog.find? declaration.name).map fun previous =>
    .duplicateDeclaration declaration.name previous.position.line declaration.position.line

def registerAll (catalog : Catalog) (declarations : List Declaration) : Catalog :=
  declarations.foldl register catalog

/-- The warnings that adding declarations in order gives. -/
def duplicates (catalog : Catalog) : List Declaration → List Warning
  | [] => []
  | declaration :: rest =>
      (catalog.duplicate? declaration).toList ++ duplicates (catalog.register declaration) rest

def ofDeclarations (declarations : List Declaration) : Catalog :=
  registerAll OrderedMap.empty declarations

def declarations (catalog : Catalog) : List Declaration :=
  catalog.values

def exported (catalog : Catalog) : List Declaration :=
  catalog.declarations.filter Declaration.exported

end Catalog

end SchemaForge
