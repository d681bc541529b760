import SchemaForge.Emission.Module
import SchemaForge.Failure
import SchemaForge.Settings.Basic

/-! Generating the module of a source file and delivering it to its place. -/
namespace SchemaForge

variable {m : Type → Type} [Monad m] [FileStore m]

/-- A generated module and what it was generated from. -/
structure Generation where
  artifacts : Artifacts
  text : String

def compileSource (settings : Settings) : Job m Artifacts := do
  let compilation ← ExceptT.mk (Except.ok <$> Compilation.ofFile settings.policy settings.source)
  Job.ofExcept .notCompiled compilation.outcome

/-- Generates the module of the source file of the settings. Its text names the file without the
directory, so it does not depend on where the command runs. -/
def generate (settings : Settings) : Job m Generation := do
  let artifacts ← compileSource settings
  return { artifacts := artifacts, text := artifacts.moduleText (PathName.label settings.source) }

/-- What delivering a text did. -/
inductive Delivery where
  | written (path : String) (bytes : Nat)
  | unchanged (path : String)
  | previewed (path content : String)

namespace Delivery

def path : Delivery → String
  | .written path _ => path
  | .unchanged path => path
  | .previewed path _ => path

def wasWritten : Delivery → Bool
  | .written _ _ => true
  | _ => false

end Delivery

/-- Makes the directory that holds a file unless it is there. -/
def makeParent (path : String) : Job m Unit :=
  match PathName.parent? path with
  | none => pure ()
  | some parent => do
      if parent = "" then return ()
      else if ← Job.present parent then return ()
      else Job.access (.directoryNotMade parent) (FileStore.makeDirectories parent)

/-- Writes a file whatever it holds. -/
def replaceFile (path content : String) : Job m Delivery := do
  makeParent path
  Job.access (.moduleNotWritten path) (FileStore.writeText path content)
  return .written path content.utf8ByteSize

/-- Delivers a text to a file, or only previews it. A file that holds the text already is left alone. -/
def deliver (preview : Bool) (path content : String) : Job m Delivery := do
  if preview then return .previewed path content
  else
    match ← ExceptT.mk (Except.ok <$> FileStore.readText path) with
    | .ok held => if held = content then return .unchanged path else replaceFile path content
    | .error _ => replaceFile path content

end SchemaForge
