import SchemaForge.Command.Arguments
import SchemaForge.Command.Run
import SchemaForge.Watch

/-! The command line on the files of the machine. -/
namespace SchemaForge

/-- The cause behind a failed access. -/
def FileError.ofError : IO.Error → FileError
  | .noFileOrDirectory _ _ _ => .notFound
  | .noSuchThing _ _ _ => .notFound
  | .alreadyExists _ _ _ => .alreadyExists
  | .inappropriateType _ code _ => if code = 21 then .isDirectory else .notDirectory
  | error => .other error.toString

/-- Turns an exception into an outcome. -/
def attempt {α : Type} (action : IO α) : IO (Except FileError α) := do
  match ← action.toBaseIO with
  | .ok value => return .ok value
  | .error error => return .error (FileError.ofError error)

instance : FileStore IO where
  present path := do
    match ← attempt (IO.FS.realPath path) with
    | .ok _ => return true
    | .error _ => return false
  readText path := attempt (IO.FS.readFile path)
  makeDirectories path := attempt (IO.FS.createDirAll path)
  writeText path text := attempt (IO.FS.writeFile path text)

/-- Prints what a command leaves behind and gives its exit code. -/
def conclude (outcome : Outcome) : IO UInt32 := do
  IO.print outcome.output
  if outcome.complaint ≠ "" then IO.eprintln outcome.complaint
  return UInt32.ofNat outcome.exitCode

/-- Generates once while watching, when a failure does not end the command. -/
def generateWatched (settings : Settings) (preview : Bool) : IO Unit := do
  let session : Session IO Unit := Session.generateWith settings preview
  let (result, printed) ← session.run ""
  IO.print printed
  match result with
  | .ok _ => return ()
  | .error failure => IO.println ("Generation error: " ++ failure.message)

/-- What the next look at a file notices, given what it held at the last one. -/
def noticed (path : String) (before now : Except FileError String) : Option WatchEvent :=
  match before, now with
  | .ok old, .ok new => if old = new then none else some (.modified path)
  | .ok _, .error _ => some (.deleted path)
  | .error _, .ok _ => some (.modified path)
  | .error _, .error _ => none

/-- Looks at the source file twice a second and generates again when it has changed. -/
partial def watchFrom (settings : Settings) (preview : Bool) (before : Except FileError String) :
    IO Unit := do
  IO.sleep 500
  let now ← FileStore.readText settings.source
  if let some event := noticed settings.source before now then
    if let some path := event.path? then IO.println ("\nFile changed: " ++ path)
    generateWatched settings preview
    IO.println "\nWatching for changes..."
  watchFrom settings preview now

/-- Generates, and again whenever the source file changes. -/
def watch (settings : Settings) (preview : Bool) : IO Unit := do
  IO.println "Starting watch mode..."
  IO.println ("  Watching: " ++ settings.source)
  IO.println "  Press Ctrl+C to stop\n"
  let before ← FileStore.readText settings.source
  generateWatched settings preview
  IO.println "\nWatching for changes..."
  watchFrom settings preview before

def Command.execute (command : Command) : IO UInt32 := do
  match command with
  | .generate input output config true preview =>
      let session : Session IO Settings :=
        Session.settingsFor config { source := input, outputDirectory := output }
      match ← session.run "" with
      | (.ok settings, _) =>
          watch settings preview
          return 0
      | (.error failure, printed) => conclude (Outcome.ofSession (.error failure, printed))
  | command => conclude (← command.run)

def usage : String :=
  "Usage: typeshape <generate|init|validate|check|payload> [OPTIONS]"

end SchemaForge

def main (arguments : List String) : IO UInt32 := do
  match SchemaForge.Arguments.command? arguments with
  | some command => command.execute
  | none =>
      IO.eprintln SchemaForge.usage
      return 2
