import SchemaForge.Artifacts
import SchemaForge.Files.FileStore

/-! Compiling a source of declarations: from its text, from a file, or from declarations that are given.
Warnings are kept whether or not the source compiles. -/
namespace SchemaForge

inductive CompileError where
  | sourceUnreadable (path : String) (cause : FileError)
  | nothingExported (origin : String)
  | malformed (origin : String) (error : SyntaxError)
deriving DecidableEq

def CompileError.message : CompileError → String
  | .sourceUnreadable path cause =>
      "Declaration source " ++ path ++ " is missing or unreadable: " ++ cause.message
  | .nothingExported origin =>
      "No exported types found in " ++ origin ++ "; export at least one type declaration"
  | .malformed origin error =>
      "Syntax error in " ++ origin ++ ":" ++ toString error.position.line ++ ":" ++
        toString error.position.column ++ ": " ++ error.problem.message

/-- The outcome of compiling, with the warnings given on the way. -/
structure Compilation where
  outcome : Except CompileError Artifacts
  warnings : List Warning

namespace Compilation

/-- The origin of a text that comes from no file. -/
def unnamedOrigin : String := "<source>"

/-- The declarations of a text, exported or not. -/
def declarationsOf (origin source : String) : Except CompileError (List Declaration) :=
  (Grammar.scan source).outcome.mapError (.malformed origin)

/-- Refuses declarations of which none is exported. -/
def requireExported (origin : String) (declarations : List Declaration) :
    Except CompileError (List Declaration) :=
  if declarations.any Declaration.exported then .ok declarations
  else .error (.nothingExported origin)

/-- The declarations of a text that exports at least one. -/
def exportingDeclarationsOf (origin source : String) : Except CompileError (List Declaration) :=
  (declarationsOf origin source).bind (requireExported origin)

def ofDeclarations (policy : Policy) (declarations : List Declaration) : Compilation :=
  let catalog := Catalog.ofDeclarations declarations
  { outcome := .ok (Artifacts.build policy catalog)
    warnings := Catalog.duplicates OrderedMap.empty declarations ++
      Artifacts.buildWarnings policy catalog }

def ofText (policy : Policy) (origin source : String) : Compilation :=
  let noticed := (Grammar.scan source).warnings
  match exportingDeclarationsOf origin source with
  | .error error => { outcome := .error error, warnings := noticed }
  | .ok declarations =>
      let compiled := ofDeclarations policy declarations
      { compiled with warnings := noticed ++ compiled.warnings }

def ofFile {m : Type → Type} [Monad m] [FileStore m] (policy : Policy) (path : String) :
    m Compilation := do
  match ← FileStore.readText path with
  | .error cause => return { outcome := .error (.sourceUnreadable path cause), warnings := [] }
  | .ok source => return ofText policy path source

end Compilation

end SchemaForge
