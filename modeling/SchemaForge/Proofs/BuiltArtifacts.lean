import SchemaForge.Artifacts
import SchemaForge.Proofs.OrderedMap

/-! What compiling the declarations of a source yields, by name and by key. Every declaration of the
catalog has its schema in the table, and every key leads to an exported declaration, whose schema is a
closed object. -/
namespace SchemaForge

/-- The type of the elements that a rest element stands for. -/
def TypeTerm.restElement : TypeTerm → TypeTerm
  | .array element => element
  | term => term

namespace Catalog

section Types

variable (catalog : Catalog) (subject : String)

theorem schemasOf_eq_map (terms : List TypeTerm) :
    catalog.schemasOf subject terms = terms.map (catalog.schemaOf subject) := by
  induction terms with
  | nil => rfl
  | cons term terms ih => rw [schemasOf, ih, List.map_cons]

/-- Only a type that is written as an array has a schema of arrays. A name for one has not. -/
theorem schemaOf_ne_array {term : TypeTerm} (hTerm : ∀ inner, term ≠ .array inner) (element : Schema) :
    catalog.schemaOf subject term ≠ .array element := by
  intro hSame
  cases term with
  | array inner => exact hTerm inner rfl
  | primitive kind => cases kind <;> cases hSame
  | union members =>
      rw [schemaOf] at hSame
      split at hSame <;> cases hSame
  | reference name =>
      rw [schemaOf, schemaOfReference] at hSame
      split at hSame
      · cases hSame
      · split at hSame
        · cases hSame
        · split at hSame <;> cases hSame
  | _ =>
      unfold schemaOf at hSame
      cases hSame

/-- The rest of a tuple gives the schema of its elements if it is written as an array, and its own schema otherwise.
That of an array is never met in the second case. -/
theorem schemaOf_tuple (elements : List TypeTerm) (rest : Option TypeTerm) :
    catalog.schemaOf subject (.tuple elements rest) =
      .tuple (elements.map (catalog.schemaOf subject))
        (rest.map fun term => catalog.schemaOf subject term.restElement) := by
  have hOther {term : TypeTerm} (hTerm : ∀ inner, term ≠ .array inner) :
      (catalog.schemaOf subject term).elementOrSelf = catalog.schemaOf subject term := by
    unfold Schema.elementOrSelf
    split
    · exact absurd ‹_› (schemaOf_ne_array catalog subject hTerm _)
    · rfl
  rw [← schemasOf_eq_map]
  cases rest with
  | none => rw [schemaOf, Option.map_none]
  | some term =>
      cases term with
      | array element => rw [schemaOf, Option.map_some, TypeTerm.restElement]
      | _ =>
          rw [schemaOf, hOther (by simp), Option.map_some, TypeTerm.restElement]
          -- Both rules are left with the condition that the rest is not written as an array.
          all_goals simp

end Types

/-- Declarations are put under their names, so a later one replaces an earlier one. -/
theorem entries_ofDeclarations (declarations : List Declaration) :
    (ofDeclarations declarations).entries =
      Entries.ofList (declarations.map fun declaration => (declaration.name, declaration)) := by
  have hFold (catalog : Catalog) :
      (catalog.registerAll declarations).entries =
        catalog.entries.putAll (declarations.map fun declaration => (declaration.name, declaration)) := by
    induction declarations generalizing catalog with
    | nil => rfl
    | cons declaration rest ih => exact ih (catalog.register declaration)
  exact hFold OrderedMap.empty

/-- Every declaration stands under its own name. -/
theorem name_of_mem_entries {declarations : List Declaration} {name : String} {declaration : Declaration}
    (hMem : (name, declaration) ∈ (ofDeclarations declarations).entries) : declaration.name = name := by
  rw [entries_ofDeclarations] at hMem
  have hGiven := (Entries.mem_putAll hMem).resolve_left (by simp)
  obtain ⟨given, _, hEntry⟩ := List.mem_map.mp hGiven
  cases hEntry
  rfl

theorem map_name_declarations (declarations : List Declaration) :
    (ofDeclarations declarations).declarations.map Declaration.name =
      (ofDeclarations declarations).names := by
  simp only [Catalog.declarations, OrderedMap.values, OrderedMap.names, Entries.names, List.map_map]
  apply List.map_congr_left
  intro entry hMem
  exact name_of_mem_entries hMem

end Catalog

namespace Artifacts

/-- The table of a build has the schema of each declaration under its name, and nothing else. -/
theorem entries_schemas_build (policy : Policy) (declarations : List Declaration) :
    let catalog := Catalog.ofDeclarations declarations
    (build policy catalog).schemas.entries = catalog.declarations.map fun declaration =>
      (declaration.name, catalog.schemaOfDeclaration policy declaration) := by
  intro catalog
  apply OrderedMap.entries_ofList_of_nodup
  have hNames := Catalog.map_name_declarations declarations
  simp only [Entries.names, List.map_map, Function.comp_def]
  rw [hNames]
  exact catalog.nodup

/-- The table has the names of the declarations, in the same order. -/
theorem names_schemas_build (policy : Policy) (declarations : List Declaration) :
    (build policy (Catalog.ofDeclarations declarations)).schemas.names =
      (Catalog.ofDeclarations declarations).names := by
  rw [OrderedMap.names, entries_schemas_build, ← Catalog.map_name_declarations, Entries.names, List.map_map]
  rfl

/-- The table holds the schema of every declaration that is kept, under its name. -/
theorem find?_schemas_build {policy : Policy} {declarations : List Declaration} {declaration : Declaration}
    (hMem : declaration ∈ (Catalog.ofDeclarations declarations).declarations) :
    (build policy (Catalog.ofDeclarations declarations)).schemas.find? declaration.name =
      some ((Catalog.ofDeclarations declarations).schemaOfDeclaration policy declaration) := by
  rw [← OrderedMap.mem_entries_iff_find?, entries_schemas_build]
  exact List.mem_map_of_mem hMem

/-- Under every key stands the name of an exported declaration with that key. -/
theorem exported_of_find?_validators {policy : Policy} {catalog : Catalog} {key typeName : String}
    (hFind : (build policy catalog).validators.find? key = some typeName) :
    ∃ declaration ∈ catalog.exported, declaration.key = key ∧ declaration.name = typeName := by
  obtain ⟨declaration, hMem, hEntry⟩ := List.mem_map.mp (OrderedMap.mem_of_find?_ofList hFind)
  cases hEntry
  exact ⟨declaration, hMem, rfl, rfl⟩

/-- The schema of an exported declaration is a closed object, also where the declaration is none. -/
theorem schemaOfDeclaration_of_exported (catalog : Catalog) (policy : Policy) {declaration : Declaration}
    (hExported : declaration.exported = true) :
    catalog.schemaOfDeclaration policy declaration =
      .object (catalog.fieldsOf policy true declaration.properties) true := by
  simp only [Catalog.schemaOfDeclaration, Declaration.properties, hExported]
  cases declaration.body <;> rfl

/-- The validator of an exported declaration checks its fields. -/
theorem violations_build_of_exported {policy : Policy} {declarations : List Declaration}
    {declaration : Declaration} (hMem : declaration ∈ (Catalog.ofDeclarations declarations).exported)
    (document : Json) :
    let catalog := Catalog.ofDeclarations declarations
    (build policy catalog).violations declaration.name document =
      check (build policy catalog).schemas
        (.object (catalog.fieldsOf policy true declaration.properties) true) (some document) := by
  intro catalog
  obtain ⟨hDeclared, hExported⟩ := List.mem_filter.mp hMem
  rw [violations, find?_schemas_build hDeclared, schemaOfDeclaration_of_exported _ _ hExported]

end Artifacts

end SchemaForge
