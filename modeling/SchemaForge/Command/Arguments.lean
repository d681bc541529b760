import SchemaForge.Command.Basic
import SchemaForge.OrderedMap
import SchemaForge.Settings.Basic

/-! Reading the arguments of the command line. The name of a command comes first; its options follow in any
order, each at most once. An option has a long name and perhaps a letter; letters of switches may be
written together, and a value may follow as the next argument, after an equals sign, or right after the
letter. -/
namespace SchemaForge.Arguments

/-- What an option takes. A path must not be empty. -/
inductive OptionKind where
  | switch
  | text
  | path
deriving DecidableEq

structure OptionForm where
  name : String
  letter : Option Char
  kind : OptionKind
deriving DecidableEq

/-- The options that were given, each with its value. A switch has an empty one. -/
abbrev Given := Entries String

/-- Adds an option unless it was given before or its value does not suit it. -/
def give? (form : OptionForm) (value : String) (given : Given) : Option Given :=
  if given.has form.name || (form.kind == .path && value == "") then none
  else some (given.put form.name value)

/-- The argument may stand as the value of the option before it. -/
def isValue (argument : String) : Bool :=
  argument == "-" || argument.toList.head? != some '-'

/-- An option whose value is the next argument waits for it. -/
structure Reading where
  given : Given
  waiting : Option OptionForm

def readLong (forms : List OptionForm) (given : Given) (chars : List Char) : Option Reading := do
  let name := String.ofList (chars.takeWhile (· ≠ '='))
  let form ← forms.find? fun form => form.name = name
  match form.kind, chars.dropWhile (· ≠ '=') with
  | .switch, [] => return ⟨← give? form "" given, none⟩
  | .switch, _ => none
  | _, [] => return ⟨given, some form⟩
  | _, _ :: value => return ⟨← give? form (String.ofList value) given, none⟩

def readLetters (forms : List OptionForm) : Given → List Char → Option Reading
  | given, [] => some ⟨given, none⟩
  | given, c :: rest => do
      let form ← forms.find? fun form => form.letter = some c
      match form.kind, rest with
      | .switch, rest => readLetters forms (← give? form "" given) rest
      | _, [] => return ⟨given, some form⟩
      | _, '=' :: value => return ⟨← give? form (String.ofList value) given, none⟩
      | _, value => return ⟨← give? form (String.ofList value) given, none⟩

/-- Reads the options of a command. No command takes anything but options. -/
def readOptions (forms : List OptionForm) : Reading → List String → Option Given
  | ⟨given, none⟩, [] => some given
  | ⟨_, some _⟩, [] => none
  | ⟨given, some form⟩, argument :: rest => do
      if isValue argument then readOptions forms ⟨← give? form argument given, none⟩ rest else none
  | ⟨given, none⟩, argument :: rest =>
      match argument.toList with
      | ['-', '-'] => if rest.isEmpty then some given else none
      | '-' :: '-' :: chars => do readOptions forms (← readLong forms given chars) rest
      | '-' :: c :: chars => do readOptions forms (← readLetters forms given (c :: chars)) rest
      | _ => none

def inputForm : OptionForm := ⟨"input", some 'i', .path⟩

def configForm : OptionForm := ⟨"config", some 'c', .path⟩

/-- The options of a command by its name. -/
def formsOf : String → List OptionForm
  | "generate" =>
      [inputForm, ⟨"output", some 'o', .path⟩, ⟨"watch", some 'w', .switch⟩,
        ⟨"dry-run", none, .switch⟩, configForm]
  | "init" => [⟨"output", some 'o', .path⟩, ⟨"force", none, .switch⟩]
  | "validate" => [⟨"path", some 'p', .path⟩, inputForm, configForm]
  | "check" => [inputForm, ⟨"data-dir", some 'd', .path⟩, configForm]
  | "payload" =>
      [⟨"type", some 't', .text⟩, ⟨"file", some 'f', .path⟩, ⟨"update", some 'u', .path⟩,
        inputForm, configForm]
  | _ => []

/-- The command with the options that were given, if those it cannot do without are among them. -/
def commandOf (name : String) (given : Given) : Option Command :=
  let input := given.find? "input"
  let config := given.find? "config"
  match name with
  | "generate" =>
      some (.generate input (given.find? "output") config (given.has "watch") (given.has "dry-run"))
  | "init" => some (.init ((given.find? "output").getD Settings.standardFile) (given.has "force"))
  | "validate" => (given.find? "path").map fun path => .validate path input config
  | "check" => some (.check input (given.find? "data-dir") config)
  | "payload" => do
      let typeName ← given.find? "type"
      let file ← given.find? "file"
      return .payload typeName file (given.find? "update") input config
  | _ => none

/-- The command that arguments write, unless they are used wrongly. -/
def command? : List String → Option Command
  | [] => none
  | name :: arguments => do
      let given ← readOptions (formsOf name) ⟨[], none⟩ arguments
      commandOf name given

end SchemaForge.Arguments
