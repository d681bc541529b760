import SchemaForge.Failure
import SchemaForge.Settings.Decoding
import SchemaForge.Toml.Reader

/-! The settings file. A file that is missing means the standard settings. -/
namespace SchemaForge

/-- A record in TOML is a table, or an array of the fields in order. All of a table is read, so what else
it holds must be readable; elements of an array beyond the fields are not even read. A date counts as a
table without entries. -/
instance : DocumentFormat TomlItem where
  text?
    | .text value => some value
    | _ => none
  list?
    | .array elements => some elements
    | .tables elements => some (elements.map (.table .header))
    | _ => none
  fields? names
    | .table _ entries =>
        if entries.all fun entry => names.contains entry.1 || entry.2.isReadable then some entries
        else none
    | .array elements => some (names.zip elements)
    | .tables elements => some (names.zip (elements.map (.table .header)))
    | .date => some []
    | _ => none

namespace Settings

variable {m : Type → Type} [Monad m] [FileStore m]

def ofText? (text : String) : Option Settings :=
  (Toml.parse? text).bind Settings.ofDocument?

/-- Reads the settings from a file, from the standard one if none is given. -/
def load (path : Option String) : Job m Settings := do
  let path := path.getD standardFile
  if ← Job.present path then
    let text ← Job.access (.settingsInaccessible path) (FileStore.readText path)
    match ofText? text with
    | some settings => return settings
    | none => throw (.settingsInvalid path)
  else return standard

/-- Writes a settings file that holds the standard settings. One that is there is only replaced when
that is asked for. -/
def writeStandard (path : String) (replace : Bool) : Job m Unit := do
  let taken ← Job.present path
  if taken && !replace then throw (.settingsPresent path)
  else Job.access (.settingsInaccessible path) (FileStore.writeText path standardText)

end Settings

end SchemaForge
