import SchemaForge.Failure
import SchemaForge.Files.PathName
import SchemaForge.Json.Reader
import SchemaForge.Json.Writer
import SchemaForge.Text.Blank

/-! Checking data files. Each type that is served has one file, which holds an array of its documents. -/
namespace SchemaForge

variable {m : Type → Type} [Monad m] [FileStore m]

/-- The document in a text. A blank text holds an empty array. -/
def documentOfText? (text : String) : Option Json :=
  if Text.isBlankText text then some (.array []) else Json.parse? text

def readDocument (path : String) : Job m Json := do
  let text ← Job.access (.documentUnreadable path) (FileStore.readText path)
  match documentOfText? text with
  | some document => return document
  | none => throw (.documentInvalid path)

/-- An element of a data file that is invalid: its place from zero, its identifier if it has one, and
what is wrong with it. -/
structure Finding where
  index : Nat
  id : Option Json
  violations : List Violation

/-- How a finding is announced, its element counted from one. -/
def Finding.label (finding : Finding) : String :=
  "Item #" ++ toString (finding.index + 1) ++ " (id: " ++
    ((finding.id.map Json.compact).getD "unknown") ++ ")"

namespace Violation

/-- The heading of violations of the document itself. -/
def generalLabel : String := "General"

/-- The heading under which a violation is reported. -/
def label (violation : Violation) : String :=
  if violation.field = "" then generalLabel else violation.field

/-- Adds a message to the first group with this heading. If there is none, it gets a group at the end. -/
def addToGroup (heading message : String) : Entries (List String) → Entries (List String)
  | [] => [(heading, [message])]
  | (other, messages) :: rest =>
      if other = heading then (other, messages ++ [message]) :: rest
      else (other, messages) :: addToGroup heading message rest

/-- The messages under each heading, headings in order of their first violation. -/
def byLabel (violations : List Violation) : Entries (List String) :=
  violations.foldl (fun groups violation => addToGroup violation.label violation.message groups) []

end Violation

inductive DataOutcome where
  | missing
  | notAnArray
  | checked (count : Nat) (findings : List Finding)

/-- The outcome is one that the file must be mended for. -/
def DataOutcome.isFailure : DataOutcome → Bool
  | .missing => false
  | .notAnArray => true
  | .checked _ findings => !findings.isEmpty

/-- The outcome for the data file of a type. -/
structure DataReport where
  key : String
  path : String
  outcome : DataOutcome

namespace Artifacts

/-- The findings among elements of which the first has the given place. -/
def findingsFrom (artifacts : Artifacts) (key : String) (index : Nat) :
    List Json → Except UnknownType (List Finding)
  | [] => .ok []
  | element :: rest => do
      let verdict ← artifacts.validate key element
      let further ← findingsFrom artifacts key (index + 1) rest
      match verdict with
      | .valid _ => return further
      | .invalid violations => return ⟨index, element.member? "id", violations⟩ :: further

/-- Checks the document of a data file. An unknown type only shows when there is an element to check. -/
def checkData (artifacts : Artifacts) (key : String) : Json → Except UnknownType DataOutcome
  | .array elements => do
      let findings ← artifacts.findingsFrom key 0 elements
      return .checked elements.length findings
  | _ => .ok .notAnArray

def checkFile (artifacts : Artifacts) (directory key : String) : Job m DataReport := do
  let path := PathName.join directory (key ++ ".json")
  if ← Job.present path then
    let document ← readDocument path
    let outcome ← Job.ofExcept .unknownType (artifacts.checkData key document)
    return ⟨key, path, outcome⟩
  else return ⟨key, path, .missing⟩

def checkFiles (artifacts : Artifacts) (directory : String) : Job m (List DataReport) :=
  artifacts.validators.names.mapM (artifacts.checkFile directory)

end Artifacts

end SchemaForge
