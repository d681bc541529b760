import SchemaForge.Artifacts
import SchemaForge.Emission.Expression
import SchemaForge.Emission.Order

/-! The module of validators for a resource server. It defines a constant for each schema, dependencies
first, a function for each exported type, and two maps by key. -/
namespace SchemaForge.Artifacts

/-- The lines before all definitions. -/
def moduleHeader (sourceName : String) : String :=
  "// Auto-generated by typeshape from " ++ sourceName ++ "\n" ++
  "// Do not edit manually\n\n" ++
  "import \x7b z \x7d from 'zod';\n"

def isExported (artifacts : Artifacts) (name : String) : Bool :=
  match artifacts.catalog.find? name with
  | some declaration => declaration.exported
  | none => false

/-- The definition of the constant of a schema, when the given names are defined. -/
def constantDefinition (artifacts : Artifacts) (defined : List String) (name : String) : String :=
  match artifacts.schemas.find? name with
  | none => ""
  | some schema =>
      "\n" ++ (if artifacts.isExported name then "export " else "") ++
        "const " ++ constantName name ++ " = " ++ schema.expression defined 0 ++ ";\n"

/-- The definitions of constants in order, after those of the names given first. -/
def constantDefinitions (artifacts : Artifacts) (defined : List String) : List String → String
  | [] => ""
  | name :: rest =>
      artifacts.constantDefinition defined name ++
        constantDefinitions artifacts (name :: defined) rest

def functionDefinition (name : String) : String :=
  "\nexport function validate" ++ name ++ "(data) \x7b\n" ++
  "  const result = " ++ constantName name ++ ".safeParse(data);\n" ++
  "  if (result.success) \x7b\n" ++
  "    return \x7b valid: true, data: result.data \x7d;\n" ++
  "  \x7d\n" ++
  "  return \x7b\n" ++
  "    valid: false,\n" ++
  "    errors: result.error.errors.map((err) => (\x7b\n" ++
  "      field: err.path.join('.'),\n" ++
  "      message: err.message,\n" ++
  "    \x7d)),\n" ++
  "  \x7d;\n" ++
  "\x7d\n"

/-- An exported map with the given lines between its braces. -/
def mapDefinition (name : String) (lines : List String) : String :=
  "\nexport const " ++ name ++ " = \x7b\n" ++ "".intercalate lines ++ "\x7d;\n"

def validatorLine (entry : String × String) : String :=
  indent 1 ++ Text.quoted entry.1 ++ ": validate" ++ entry.2 ++ ",\n"

def readonlyLine (entry : String × List String) : String :=
  indent 1 ++ Text.quoted entry.1 ++ ": [" ++ commaList (entry.2.map Text.quoted) ++ "],\n"

/-- The text of the module, which names the source it was made from. -/
def moduleText (artifacts : Artifacts) (sourceName : String) : String :=
  moduleHeader sourceName ++
  artifacts.constantDefinitions [] artifacts.schemas.dependencyOrder ++
  "".intercalate (artifacts.catalog.exported.map fun declaration =>
    functionDefinition declaration.name) ++
  mapDefinition "validators" (artifacts.validators.entries.map validatorLine) ++
  mapDefinition "readonlyProperties" (artifacts.readonly.entries.map readonlyLine)

end SchemaForge.Artifacts
