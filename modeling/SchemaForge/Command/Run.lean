import SchemaForge.Command.Basic
import SchemaForge.DataCheck
import SchemaForge.Generation
import SchemaForge.Settings.File
import SchemaForge.Text.LowerCase

/-! Running commands. What a command prints before it fails stays printed. -/
namespace SchemaForge

/-- A job that prints. -/
abbrev Session (m : Type → Type) := ExceptT Failure (StateT String m)

namespace Session

variable {m : Type → Type} [Monad m] [FileStore m]

/-- Performs a job that prints nothing. -/
def perform {α : Type} (job : Job m α) : Session m α :=
  ExceptT.mk (fun printed => (·, printed) <$> job.run)

def say (line : String) : Session m Unit :=
  modify (· ++ line ++ "\n")

def sayAll : List String → Session m Unit
  | [] => pure ()
  | line :: rest => do
      say line
      sayAll rest

/-- Reads the settings with which a command runs. -/
def settingsFor (config : Option String) (overrides : SettingOverrides) : Session m Settings := do
  let settings ← perform (Settings.load config)
  return settings.override overrides

/-- The line above and below a preview. -/
def rule : String :=
  String.ofList (List.replicate 60 '─')

def deliveryLines : Delivery → List String
  | .written path bytes => ["✓ Written " ++ toString bytes ++ " bytes to " ++ path]
  | .unchanged path => ["✓ " ++ path ++ " is up-to-date"]
  | .previewed path content => ["[dry-run] Would write to " ++ path ++ ":", rule, content, rule]

def generateWith (settings : Settings) (preview : Bool) : Session m Unit := do
  say ("Compiling " ++ settings.source)
  let generation ← perform (SchemaForge.generate settings)
  say ("  Found " ++ toString generation.artifacts.schemas.size ++ " declaration(s), " ++
    toString generation.artifacts.validators.size ++ " exported")
  let delivery ← perform (deliver preview settings.outputPath generation.text)
  sayAll (deliveryLines delivery)

def generate (input output config : Option String) (preview : Bool) : Session m Unit := do
  let settings ← settingsFor config { source := input, outputDirectory := output }
  generateWith settings preview

def init (output : String) (force : Bool) : Session m Unit := do
  perform (Settings.writeStandard output force)
  say ("✓ Created configuration file: " ++ output)

/-- Checks that a module is the one that would be generated, blanks around it aside. -/
def validate (path : String) (input config : Option String) : Session m Unit := do
  say "Validating generated module..."
  if ← perform (Job.present path) then
    let text ← perform (Job.access .moduleUnreadable (FileStore.readText path))
    let settings ← settingsFor config { source := input }
    let generation ← perform (SchemaForge.generate settings)
    if Text.trim text = Text.trim generation.text then say "✓ Module is up-to-date"
    else
      say "✗ Module is out of date"
      say "  Run 'typeshape generate' to update"
      throw (.objected .moduleOutdated)
  else throw (.objected (.moduleMissing path))

def findingLines (finding : Finding) : List String :=
  ("    " ++ finding.label) :: (Violation.byLabel finding.violations).map fun (heading, messages) =>
    "      " ++ heading ++ ": " ++ ", ".intercalate messages

def reportLines (report : DataReport) : List String :=
  match report.outcome with
  | .missing => ["  - " ++ report.path ++ " (no data file)"]
  | .notAnArray => ["  ✗ " ++ report.path ++ ": the data file must contain an array"]
  | .checked count [] => ["  ✓ " ++ report.path ++ ": " ++ toString count ++ " item(s)"]
  | .checked count findings =>
      ("  ✗ " ++ report.path ++ ": " ++ toString findings.length ++ " of " ++ toString count ++
        " item(s) invalid") :: findings.flatMap findingLines

def check (input dataDirectory config : Option String) : Session m Unit := do
  let settings ← settingsFor config { source := input, dataDirectory := dataDirectory }
  say ("Checking data in " ++ settings.dataDirectory)
  let artifacts ← perform (compileSource settings)
  let reports ← perform (artifacts.checkFiles settings.dataDirectory)
  sayAll (reports.flatMap reportLines)
  match reports.countP fun report => report.outcome.isFailure with
  | 0 => say "✓ All data files are valid"
  | failed => throw (.objected (.dataFilesInvalid failed))

/-- The verdict on a payload, which is a document or a patch of one that is there. -/
def payloadVerdict (artifacts : Artifacts) (managed : ManagedFields) (key : String) (payload : Json) :
    Option String → Session m Verdict
  | none => perform (Job.ofExcept .unknownType (artifacts.validate key payload))
  | some path => do
      let document ← perform (readDocument path)
      match artifacts.revise managed key document payload with
      | .ok revised => return .valid revised
      | .error (.unknownType unknown) => throw (.unknownType unknown)
      | .error (.readonly fields) => throw (.objected (.patchRefused (.readonly fields)))
      | .error (.invalid violations) => return .invalid violations

/-- Checks one payload and prints the verdict. -/
def payload (typeName file : String) (update input config : Option String) : Session m Unit := do
  let settings ← settingsFor config { source := input }
  let artifacts ← perform (compileSource settings)
  let document ← perform (readDocument file)
  let verdict ← payloadVerdict artifacts settings.policy.managed (Text.lowerCase typeName) document update
  say verdict.toJson.pretty
  match verdict with
  | .valid _ => return ()
  | .invalid violations => throw (.objected (.payloadInvalid violations.length file))

end Session

/-- What a command leaves behind besides files. -/
structure Outcome where
  exitCode : Nat
  output : String
  complaint : String
deriving DecidableEq

def Outcome.ofSession : Except Failure Unit × String → Outcome
  | (.ok _, printed) => ⟨0, printed, ""⟩
  | (.error failure, printed) => ⟨failure.exitCode, printed, "Error: " ++ failure.message⟩

namespace Command

variable {m : Type → Type} [Monad m] [FileStore m]

/-- What a command does. Watching repeats what is done here. -/
def session : Command → Session m Unit
  | .generate input output config _ preview => Session.generate input output config preview
  | .init output force => Session.init output force
  | .validate path input config => Session.validate path input config
  | .check input dataDirectory config => Session.check input dataDirectory config
  | .payload typeName file update input config => Session.payload typeName file update input config

def run (command : Command) : m Outcome := do
  return Outcome.ofSession (← command.session.run "")

end Command

end SchemaForge
