import SchemaForge.Schema.Basic
import SchemaForge.Text.DateTime
import SchemaForge.Violation

/-! Checking a document against a schema. The check is a fold over the document: every part of it becomes
its checker, a function from the place of the part and a schema to the violations found there. At one
place references are followed a bounded number of times; a chain of references that is longer never
reaches a part of the document and demands nothing. -/
namespace SchemaForge

/-- The names and indices that lead to a part of a document. -/
abbrev Path := List String

/-- The violations of a schema at a place. -/
abbrev Checker := Path → Schema → List Violation

/-- What can stand at a place of a document, with something in place of each of its parts. -/
inductive Site (α : Type) where
  | absent
  | null
  | bool (value : Bool)
  | number (value : JsonNumber)
  | string (value : String)
  | array (elements : List α)
  | object (members : List (String × α))

namespace Site

def kindName {α : Type} : Site α → String
  | .absent => "undefined"
  | .null => "null"
  | .bool _ => "boolean"
  | .number _ => "number"
  | .string _ => "string"
  | .array _ => "array"
  | .object _ => "object"

def isAbsent {α : Type} : Site α → Bool
  | .absent => true
  | _ => false

end Site

def violationAt (path : Path) (message : String) (kind : ViolationKind) : List Violation :=
  [⟨".".intercalate path, message, kind⟩]

def missingAt (path : Path) : List Violation :=
  violationAt path "Required" .required

def wrongTypeAt {α : Type} (expected : String) (site : Site α) (path : Path) : List Violation :=
  if site.isAbsent then missingAt path
  else violationAt path ("Expected " ++ expected ++ ", received " ++ site.kindName) .wrongType

/-- The literal is what stands at the place. Numbers are compared as doubles. -/
def Literal.matchesSite {α : Type} : Literal → Site α → Bool
  | .text expected, .string actual => expected == actual
  | .number expected, .number actual => actual.toBinary64.sameValue expected
  | .bool expected, .bool actual => expected == actual
  | .null, .null => true
  | _, _ => false

/-- The violation of an object that has members it does not declare. -/
def unknownKeysAt {α : Type} (fields : Entries Schema) (members : Entries α) (path : Path) :
    List Violation :=
  let unknown := members.names.filter fun name => !fields.has name
  if unknown.isEmpty then []
  else
    violationAt path
      ("Unrecognized key(s) in object: " ++ ", ".intercalate (unknown.map fun name => "'" ++ name ++ "'"))
      .unknownKeys

/-- The violations of the elements of an array, whose schemas are given by their indices. -/
def elementViolations (path : Path) (schemaAt : Nat → Option Schema) (elements : List Checker) :
    List Violation :=
  elements.zipIdx.flatMap fun (checker, index) =>
    match schemaAt index with
    | some schema => checker (path ++ [toString index]) schema
    | none => []

def fieldViolations (missing : Checker) (path : Path) (fields : Entries Schema)
    (members : Entries Checker) : List Violation :=
  fields.flatMap fun (name, schema) =>
    ((members.find? name).getD missing) (path ++ [name]) schema

mutual

/-- The violations of a schema at a place. References are left to `follow`, and members that are missing
to `missing`. -/
def violationsAt (follow : Path → String → List Violation) (missing : Checker)
    (site : Site Checker) (path : Path) : Schema → List Violation
  | .any => []
  | .optional inner => if site.isAbsent then [] else violationsAt follow missing site path inner
  | .text required =>
      match site, required with
      | .string value, some message => if value = "" then violationAt path message .tooSmall else []
      | .string _, none => []
      | .absent, some message => violationAt path message .required
      | _, _ => wrongTypeAt "string" site path
  | .number =>
      match site with
      | .number _ => []
      | _ => wrongTypeAt "number" site path
  | .boolean =>
      match site with
      | .bool _ => []
      | _ => wrongTypeAt "boolean" site path
  | .dateTime =>
      match site with
      | .string value =>
          if Text.isDateTime value.toList then []
          else violationAt path "Invalid date format" .malformedText
      | _ => wrongTypeAt "string" site path
  | .literal value =>
      if site.isAbsent then missingAt path
      else if value.matchesSite site then []
      else violationAt path ("Invalid literal value, expected " ++ value.code) .wrongLiteral
  | .enumeration values message =>
      match site with
      | .string value => if value ∈ values then [] else violationAt path message .notEnumerated
      | _ => violationAt path message .notEnumerated
  | .union options message =>
      if site.isAbsent then missingAt path
      else if acceptedByAny follow missing site options then []
      else violationAt path message .noAlternative
  | .array element =>
      match site with
      | .array elements => elementViolations path (fun _ => some element) elements
      | _ => wrongTypeAt "array" site path
  | .tuple items rest =>
      match site with
      | .array elements =>
          if elements.length < items.length then
            violationAt path
              ("Array must contain at least " ++ toString items.length ++ " element(s)") .tooSmall
          else if rest.isNone && decide (items.length < elements.length) then
            violationAt path
              ("Array must contain at most " ++ toString items.length ++ " element(s)") .tooBig
          else elementViolations path (fun index => items[index]?.or rest) elements
      | _ => wrongTypeAt "array" site path
  | .object fields strict =>
      match site with
      | .object members =>
          fieldViolations missing path fields members ++
            (if strict then unknownKeysAt fields members path else [])
      | _ => wrongTypeAt "object" site path
  | .record =>
      match site with
      | .object _ => []
      | _ => wrongTypeAt "object" site path
  | .reference name => follow path name

/-- One of the schemas has no violation at the place. -/
def acceptedByAny (follow : Path → String → List Violation) (missing : Checker)
    (site : Site Checker) : List Schema → Bool
  | [] => false
  | option :: rest =>
      (violationsAt follow missing site [] option).isEmpty || acceptedByAny follow missing site rest

end

/-- The violations at a place where references are followed at most the given number of times. -/
def violationsWithin (table : SchemaTable) (missing : Checker) (site : Site Checker) : Nat → Checker
  | 0 => violationsAt (fun _ _ => []) missing site
  | hops + 1 =>
      violationsAt
        (fun path name =>
          match table.find? name with
          | none => []
          | some schema => violationsWithin table missing site hops path schema)
        missing site

/-- The checker of a missing part, where more than `limit` references in a row are not followed. -/
def absentChecker (table : SchemaTable) (limit : Nat) : Checker :=
  violationsWithin table (fun _ _ => []) .absent (limit + 1)

mutual

/-- The checker of a document, where more than `limit` references in a row are not followed. -/
def Json.checker (table : SchemaTable) (limit : Nat) : Json → Checker
  | .null => violationsWithin table (absentChecker table limit) .null (limit + 1)
  | .bool value => violationsWithin table (absentChecker table limit) (.bool value) (limit + 1)
  | .number value => violationsWithin table (absentChecker table limit) (.number value) (limit + 1)
  | .string value => violationsWithin table (absentChecker table limit) (.string value) (limit + 1)
  | .array elements =>
      violationsWithin table (absentChecker table limit)
        (.array (elementCheckers table limit elements)) (limit + 1)
  | .object members =>
      violationsWithin table (absentChecker table limit)
        (.object (memberCheckers table limit members)) (limit + 1)

def elementCheckers (table : SchemaTable) (limit : Nat) : List Json → List Checker
  | [] => []
  | element :: rest => element.checker table limit :: elementCheckers table limit rest

def memberCheckers (table : SchemaTable) (limit : Nat) : List (String × Json) → List (String × Checker)
  | [] => []
  | (name, value) :: rest => (name, value.checker table limit) :: memberCheckers table limit rest

end

/-- The checker of a document or of its absence, with a limit on references in a row. -/
def checkerOf (table : SchemaTable) (limit : Nat) : Option Json → Checker
  | none => absentChecker table limit
  | some document => document.checker table limit

/-- The violations of a schema by a document or its absence. As many references in a row are followed as
there are names, and one more. -/
def check (table : SchemaTable) (schema : Schema) (candidate : Option Json) : List Violation :=
  checkerOf table table.size candidate [] schema

end SchemaForge
