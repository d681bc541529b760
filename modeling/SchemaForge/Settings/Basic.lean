import SchemaForge.Files.PathName
import SchemaForge.Policy

/-! Settings of the command line: where the declarations are, where the generated module goes, where the
data files are, and the rules for exported types. -/
namespace SchemaForge

structure Settings where
  source : String
  outputDirectory : String
  outputFile : String
  dataDirectory : String
  policy : Policy
deriving DecidableEq

/-- Settings given with a command, which win over those of a file. -/
structure SettingOverrides where
  source : Option String := none
  outputDirectory : Option String := none
  outputFile : Option String := none
  dataDirectory : Option String := none
deriving DecidableEq

namespace Settings

/-- The settings that are used unless others are given. -/
def standard : Settings :=
  { source := "types.ts"
    outputDirectory := "."
    outputFile := "schema.js"
    dataDirectory := "database"
    policy := Policy.standard }

/-- The file that settings are read from unless another is given. -/
def standardFile : String := "typeshape.toml"

def outputPath (settings : Settings) : String :=
  PathName.join settings.outputDirectory settings.outputFile

/-- Settings in which those given with a command win. -/
def override (settings : Settings) (overrides : SettingOverrides) : Settings :=
  { settings with
    source := overrides.source.getD settings.source
    outputDirectory := overrides.outputDirectory.getD settings.outputDirectory
    outputFile := overrides.outputFile.getD settings.outputFile
    dataDirectory := overrides.dataDirectory.getD settings.dataDirectory }

/-- The text of a new settings file, which says what the standard settings are. -/
def standardText : String :=
  "\n".intercalate [
    "# typeshape configuration file",
    "",
    "[source]",
    "# File containing the `type` / `export type` declarations",
    "file = \"types.ts\"",
    "",
    "[output]",
    "# Directory for the generated Zod module",
    "dir = \".\"",
    "",
    "# Generated module file name",
    "file = \"schema.js\"",
    "",
    "[data]",
    "# Directory with one <type>.json array per exported type (used by `typeshape check`)",
    "dir = \"database\"",
    "",
    "[compiler.server_fields]",
    "# Fields set by the server; never validated as caller input",
    "id = \"id\"",
    "created_at = \"createdAt\"",
    "updated_at = \"updatedAt\"",
    "",
    "# Fields every exported type must carry as a non-empty string",
    "[[compiler.mandatory_fields]]",
    "name = \"title\"",
    "message = \"Title is required\"",
    "",
    "[[compiler.mandatory_fields]]",
    "name = \"category\"",
    "message = \"Category is required\"",
    ""]

end Settings

end SchemaForge
