import SchemaForge.Compilation
import SchemaForge.Revision

/-! Why a command fails. Only a check that finds something wrong has an exit code of its own; every other
failure counts as trouble with the files or settings. -/
namespace SchemaForge

/-- What a check finds wrong. -/
inductive Objection where
  | moduleMissing (path : String)
  | moduleOutdated
  | dataFilesInvalid (count : Nat)
  | patchRefused (refusal : Refusal)
  | payloadInvalid (count : Nat) (path : String)

def Objection.message : Objection → String
  | .moduleMissing path => "Module file not found: " ++ path
  | .moduleOutdated => "Module is out of date"
  | .dataFilesInvalid count => toString count ++ " data file(s) failed validation"
  | .patchRefused refusal => refusal.message
  | .payloadInvalid count path => toString count ++ " error(s) in " ++ path

inductive Failure where
  | notCompiled (error : CompileError)
  | unknownType (unknown : UnknownType)
  | settingsInvalid (path : String)
  | settingsPresent (path : String)
  | settingsInaccessible (path : String) (cause : FileError)
  | directoryNotMade (path : String) (cause : FileError)
  | moduleNotWritten (path : String) (cause : FileError)
  | documentUnreadable (path : String) (cause : FileError)
  | documentInvalid (path : String)
  | objected (objection : Objection)
  | moduleUnreadable (cause : FileError)

namespace Failure

def message : Failure → String
  | .notCompiled error => "Failed to compile declarations: " ++ error.message
  | .unknownType unknown => unknown.message
  | .settingsInvalid path => "Configuration error: Invalid TOML in " ++ path
  | .settingsPresent path =>
      "Configuration error: " ++ path ++ " already exists (use --force to overwrite)"
  | .settingsInaccessible path cause =>
      "Configuration error: Failed to access config " ++ path ++ ": " ++ cause.message
  | .directoryNotMade path cause =>
      "Failed to write output: Failed to create directory " ++ path ++ ": " ++ cause.message
  | .moduleNotWritten path cause =>
      "Failed to write output: Failed to write file " ++ path ++ ": " ++ cause.message
  | .documentUnreadable path cause =>
      "Failed to read data: Failed to read " ++ path ++ ": " ++ cause.message
  | .documentInvalid path => "Failed to read data: Invalid JSON in " ++ path
  | .objected objection => "Validation failed: " ++ objection.message
  | .moduleUnreadable cause => "IO error: " ++ cause.message

def exitCode : Failure → Nat
  | .objected _ => 2
  | _ => 1

end Failure

/-- Work on files that may fail. -/
abbrev Job (m : Type → Type) := ExceptT Failure m

namespace Job

variable {m : Type → Type} [Monad m] [FileStore m]

/-- Reports a failed access as a failure. -/
def access {α : Type} (describe : FileError → Failure) (action : m (Except FileError α)) : Job m α :=
  ExceptT.mk ((Except.mapError describe) <$> action)

/-- Reports an outcome whose error counts as a failure. -/
def ofExcept {ε α : Type} (describe : ε → Failure) (outcome : Except ε α) : Job m α :=
  ExceptT.mk (pure (outcome.mapError describe))

/-- A name leads to a file or directory. -/
def present (path : String) : Job m Bool :=
  ExceptT.mk (Except.ok <$> FileStore.present path)

end Job

end SchemaForge
