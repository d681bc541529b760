import SchemaForge.Proofs.ReferenceLimit
import SchemaForge.Proofs.SchemaParts

/-! Types that lead back to themselves. A schema judges a document by its alternatives, by the schemas of elements and
by the targets of references. If this never goes round in a circle, arrays that are nested deeply enough are refused,
so the schema does not accept everything. The circles that matter do not pass through the members of objects. Some of them
do accept everything: those that stay at one place, and unions with an alternative for each kind of document. -/
namespace SchemaForge

namespace SchemaTable

/-- The schemas that decide together with this one, about the same document or about the elements of an array. The
schemas of members are not among them. -/
def onward (table : SchemaTable) : Schema → List Schema
  | .reference name => (table.find? name).toList
  | .object _ _ => []
  | schema => schema.parts

/-- The decision about the first schema involves the second one at once. -/
def Involves (table : SchemaTable) (schema next : Schema) : Prop :=
  next ∈ table.onward schema

/-- The decision leads to a name, and from there back to it. -/
def Circles (table : SchemaTable) (schema : Schema) : Prop :=
  ∃ name, Relation.ReflTransGen table.Involves schema (.reference name) ∧
    Relation.TransGen table.Involves (.reference name) (.reference name)

variable {table : SchemaTable} {schema next : Schema}

/-- Names that were passed on the way to a schema. They are declared and different. -/
structure Passed (table : SchemaTable) (names : List String) (schema : Schema) : Prop where
  nodup : names.Nodup
  declared : names ⊆ table.names
  onward : ∀ name ∈ names, Relation.TransGen table.Involves (.reference name) schema

theorem Passed.nil (table : SchemaTable) (schema : Schema) : table.Passed [] schema where
  nodup := List.nodup_nil
  declared := List.nil_subset _
  onward := by simp

/-- Names that were passed on the way to a schema were passed on the way to what it involves. -/
theorem Passed.step {names : List String} (hPassed : table.Passed names schema)
    (hInvolves : table.Involves schema next) : table.Passed names next where
  nodup := hPassed.nodup
  declared := hPassed.declared
  onward := fun name hName => (hPassed.onward name hName).tail hInvolves

/-- Outside of circles a name that is followed is a new one. -/
theorem Passed.follow {names : List String} {name : String} {target : Schema}
    (hPassed : table.Passed names (.reference name)) (hOpen : ¬ table.Circles (.reference name))
    (hFind : table.find? name = some target) : table.Passed (name :: names) target where
  nodup := List.nodup_cons.mpr ⟨fun hMem => hOpen ⟨name, .refl, hPassed.onward name hMem⟩, hPassed.nodup⟩
  declared := by
    have hDeclared : name ∈ table.names :=
      (Entries.find?_isSome_iff name table.entries).mp (Option.isSome_iff_exists.mpr ⟨target, hFind⟩)
    exact List.cons_subset.mpr ⟨hDeclared, hPassed.declared⟩
  onward := by
    have hStep : table.Involves (.reference name) target := Option.mem_toList.mpr hFind
    intro earlier hEarlier
    rcases List.mem_cons.mp hEarlier with rfl | hBefore
    · exact .single hStep
    · exact (hPassed.onward earlier hBefore).tail hStep

end SchemaTable

namespace SchemaTable

/-- Nothing in the schema accepts anything by itself, and all names in it stand for something. -/
structure Definite (table : SchemaTable) (schema : Schema) : Prop where
  asks : Schema.any ∉ schema.nodes
  declared : schema.RefersOnlyTo (· ∈ table.names)

variable {table : SchemaTable} {schema : Schema}

/-- What holds of all nodes of a schema holds of those of its parts. -/
theorem Definite.of_mem_parts (hDefinite : table.Definite schema) {part : Schema} (hPart : part ∈ schema.parts) :
    table.Definite part where
  asks hAny := hDefinite.asks (Schema.nodes_subset_of_mem (Schema.mem_nodes_of_mem_parts hPart) hAny)
  declared := hDefinite.declared.of_mem_parts hPart

end SchemaTable

end SchemaForge
