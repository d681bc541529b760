import SchemaForge.Schema.Basic

/-! The order in which schemas are defined: each after the ones it refers to, as far as references do not
run in circles. -/
namespace SchemaForge.SchemaTable

/-- Adds a name to those that are done, after the names its schema refers to. Names above it in the
search are left to their own turn. The first argument bounds the depth of the search. -/
def visit (table : SchemaTable) : Nat → List String → List String → String → List String
  | 0, _, done, _ => done
  | depth + 1, above, done, name =>
      if name ∈ done ∨ name ∈ above then done
      else
        match table.find? name with
        | none => done
        | some schema => schema.references.foldl (visit table depth (name :: above)) done ++ [name]

/-- The names of a table, dependencies first. No search is deeper than there are names. -/
def dependencyOrder (table : SchemaTable) : List String :=
  table.names.foldl (visit table (table.size + 1) []) []

end SchemaForge.SchemaTable
