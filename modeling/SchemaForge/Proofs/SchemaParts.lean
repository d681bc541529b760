import SchemaForge.Proofs.ReportedViolations

/-! The schemas in a schema: those that stand in it directly, and all of them at any depth. -/
namespace SchemaForge.Schema

mutual

/-- A schema and all schemas in it. -/
def nodes : Schema → List Schema
  | .array element => .array element :: element.nodes
  | .optional inner => .optional inner :: inner.nodes
  | .union options message => .union options message :: nodesOfAll options
  | .tuple items rest =>
      .tuple items rest :: (nodesOfAll items ++ (match rest with
        | none => []
        | some schema => schema.nodes))
  | .object fields strict => .object fields strict :: nodesOfFields fields
  | .text required => [.text required]
  | .number => [.number]
  | .boolean => [.boolean]
  | .dateTime => [.dateTime]
  | .literal value => [.literal value]
  | .enumeration values message => [.enumeration values message]
  | .record => [.record]
  | .reference name => [.reference name]
  | .any => [.any]

def nodesOfAll : List Schema → List Schema
  | [] => []
  | schema :: rest => schema.nodes ++ nodesOfAll rest

def nodesOfFields : List (String × Schema) → List Schema
  | [] => []
  | (_, schema) :: rest => schema.nodes ++ nodesOfFields rest

end

/-- The recursion over lists of schemas is the one of the library. -/
theorem nodesOfAll_eq_flatMap (schemas : List Schema) : nodesOfAll schemas = schemas.flatMap nodes := by
  induction schemas with
  | nil => rfl
  | cons schema schemas ih => rw [nodesOfAll, ih, List.flatMap_cons]

theorem nodesOfFields_eq_flatMap (fields : Entries Schema) :
    nodesOfFields fields = (fields.map Prod.snd).flatMap nodes := by
  induction fields with
  | nil => rfl
  | cons field fields ih => rw [nodesOfFields, ih, List.map_cons, List.flatMap_cons]

/-- The schemas that stand directly in a schema. -/
def parts : Schema → List Schema
  | .array element => [element]
  | .optional inner => [inner]
  | .union options _ => options
  | .tuple items rest => items ++ rest.toList
  | .object fields _ => fields.map Prod.snd
  | _ => []

/-- Induction over schemas in which all parts of a schema are treated alike. -/
theorem induction_all_parts {motive : Schema → Prop}
    (step : ∀ schema, (∀ part ∈ schema.parts, motive part) → motive schema) (schema : Schema) : motive schema := by
  induction schema using induction_parts with
  | array element ih => exact step _ (List.forall_mem_singleton.mpr ih)
  | optional inner ih => exact step _ (List.forall_mem_singleton.mpr ih)
  | union options message ih => exact step _ ih
  | tuple items rest ihItems ihRest =>
      apply step
      intro part hPart
      rcases List.mem_append.mp hPart with hItem | hRest
      · exact ihItems part hItem
      · exact ihRest part (Option.mem_toList.mp hRest)
  | object fields strict ih => exact step _ (List.forall_mem_map.mpr ih)
  | _ => exact step _ fun part hPart => absurd hPart List.not_mem_nil

/-- All schemas in a schema are itself and those in its parts. -/
theorem nodes_eq_cons (schema : Schema) : schema.nodes = schema :: schema.parts.flatMap nodes := by
  cases schema with
  | array element => rw [nodes, parts, List.flatMap_singleton]
  | optional inner => rw [nodes, parts, List.flatMap_singleton]
  | union options message => rw [nodes, parts, nodesOfAll_eq_flatMap]
  | tuple items rest =>
      rw [parts, List.flatMap_append]
      cases rest with
      | none => rw [nodes, nodesOfAll_eq_flatMap, Option.toList_none, List.flatMap_nil]
      | some schema => rw [nodes, nodesOfAll_eq_flatMap, Option.toList_some, List.flatMap_singleton]
  | object fields strict => rw [nodes, parts, nodesOfFields_eq_flatMap]
  | _ => rfl

/-- What is in a part of a schema is in the schema. -/
theorem nodes_subset_of_mem {schema node : Schema} (hNode : node ∈ schema.nodes) : node.nodes ⊆ schema.nodes := by
  induction schema using induction_all_parts with
  | step schema ih =>
      rw [nodes_eq_cons] at hNode
      rcases List.mem_cons.mp hNode with rfl | hInner
      · exact List.Subset.refl _
      · obtain ⟨part, hPart, hAmong⟩ := List.mem_flatMap.mp hInner
        rw [nodes_eq_cons schema]
        intro inner hMem
        exact List.mem_cons_of_mem _ (List.mem_flatMap.mpr ⟨part, hPart, ih part hPart hAmong hMem⟩)

theorem mem_nodes_self (schema : Schema) : schema ∈ schema.nodes := by
  rw [nodes_eq_cons]
  exact List.mem_cons_self

theorem mem_nodes_of_mem_parts {schema part : Schema} (hPart : part ∈ schema.parts) : part ∈ schema.nodes := by
  rw [nodes_eq_cons]
  exact List.mem_cons_of_mem _ (List.mem_flatMap.mpr ⟨part, hPart, part.mem_nodes_self⟩)

/-- The parts of a schema refer to no other names. -/
theorem RefersOnlyTo.of_mem_parts {names : String → Prop} {schema part : Schema}
    (hNames : schema.RefersOnlyTo names) (hPart : part ∈ schema.parts) : part.RefersOnlyTo names := by
  cases schema with
  | array element => exact List.mem_singleton.mp hPart ▸ hNames
  | optional inner => exact List.mem_singleton.mp hPart ▸ hNames
  | union options message => exact refersOnlyTo_union.mp hNames part hPart
  | tuple items rest =>
      obtain ⟨hItems, hRest⟩ := refersOnlyTo_tuple.mp hNames
      rcases List.mem_append.mp hPart with hItem | hAmong
      · exact hItems part hItem
      · exact hRest part (Option.mem_toList.mp hAmong)
  | object fields strict =>
      obtain ⟨field, hField, rfl⟩ := List.mem_map.mp hPart
      exact refersOnlyTo_object.mp hNames field hField
  | _ => exact absurd hPart List.not_mem_nil

def number? : Schema → Option Binary64
  | .literal (.number value) => some value
  | _ => none

def numbers (schema : Schema) : List Binary64 :=
  schema.nodes.filterMap number?

theorem numbers_subset_of_mem_parts {schema part : Schema} (hPart : part ∈ schema.parts) :
    part.numbers ⊆ schema.numbers :=
  List.filterMap_subset _ (nodes_subset_of_mem (mem_nodes_of_mem_parts hPart))

end SchemaForge.Schema
