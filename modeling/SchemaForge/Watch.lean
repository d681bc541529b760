import SchemaForge.Files.PathName

/-! Watching a source file for changes. The directory that holds the file is watched, so that a file which
is replaced as a whole is noticed too. -/
namespace SchemaForge

/-- The directory to watch for a file. -/
def watchDirectory (file : String) : String :=
  match PathName.parent? file with
  | none => "."
  | some parent => if parent = "" then "." else parent

/-- What is noticed while watching. -/
inductive WatchEvent where
  | modified (path : String)
  | deleted (path : String)
  | trouble (message : String)
deriving DecidableEq

namespace WatchEvent

/-- The file that an event is about. -/
def path? : WatchEvent → Option String
  | .modified path => some path
  | .deleted path => some path
  | .trouble _ => none

/-- The event tells of trouble with watching. -/
def isTrouble : WatchEvent → Bool
  | .trouble _ => true
  | _ => false

/-- What the trouble is. -/
def message? : WatchEvent → Option String
  | .trouble message => some message
  | _ => none

end WatchEvent

end SchemaForge
