import Mathlib.Logic.Relation
import SchemaForge.Proofs.DependencyOrder

/-! The order in which schemas are defined puts what a schema refers to before it, unless that refers back to the
schema. The searches that are going on are the names above: each of them refers on to the name that is searched
for, so a name that is left out because it stands above closes a circle. -/
namespace SchemaForge.SchemaTable

open Relation

variable {table : SchemaTable} {above order done : List String} {name : String}

def RefersTo (table : SchemaTable) (name next : String) : Prop :=
  ∃ schema, table.find? name = some schema ∧ next ∈ schema.references

/-- Every other name of the table that a name refers to is among those before it, or refers back to it. -/
def Prepared (table : SchemaTable) (before : List String) (name : String) : Prop :=
  ∀ next, table.RefersTo name next → next ∈ table.names → next ≠ name →
    next ∈ before ∨ TransGen table.RefersTo next name

/-- Every name of an order is prepared by the names before it. -/
def DependenciesFirst (table : SchemaTable) (order : List String) : Prop :=
  ∀ before name behind, order = before ++ name :: behind → table.Prepared before name

theorem DependenciesFirst.nil (table : SchemaTable) : table.DependenciesFirst [] := by
  intro before name behind hOrder
  cases before <;> cases hOrder

/-- A name may come last if it is prepared by those before it. -/
theorem DependenciesFirst.concat (hOrder : table.DependenciesFirst order) (hName : table.Prepared order name) :
    table.DependenciesFirst (order ++ [name]) := by
  intro before other behind hSplit
  rcases List.eq_nil_or_concat behind with rfl | ⟨inner, last, rfl⟩
  · obtain ⟨rfl, hLast⟩ := List.append_inj' hSplit rfl
    cases hLast
    exact hName
  · have hShorter : order ++ [name] = (before ++ other :: inner) ++ [last] := by simpa using hSplit
    exact hOrder before other inner (List.append_inj' hShorter rfl).1

/-- The searches that lead to the search for a name. They are for different names of the table, each of which
refers to the next. -/
structure Ancestors (table : SchemaTable) (above : List String) (name : String) : Prop where
  nodup : above.Nodup
  declared : above ⊆ table.names
  reach : ∀ ancestor ∈ above, TransGen table.RefersTo ancestor name

theorem Ancestors.nil (table : SchemaTable) (name : String) : table.Ancestors [] name where
  nodup := List.nodup_nil
  declared := List.nil_subset _
  reach := by simp

/-- Searching on from a name that stands neither above nor outside the table. -/
theorem Ancestors.descend {next : String} (hAncestors : table.Ancestors above name) (hNew : name ∉ above)
    (hDeclared : name ∈ table.names) (hRefers : table.RefersTo name next) :
    table.Ancestors (name :: above) next where
  nodup := List.nodup_cons.mpr ⟨hNew, hAncestors.nodup⟩
  declared := List.cons_subset.mpr ⟨hDeclared, hAncestors.declared⟩
  reach ancestor hMem := by
    rcases List.mem_cons.mp hMem with rfl | hAbove
    · exact .single hRefers
    · exact (hAncestors.reach ancestor hAbove).tail hRefers

/-- A search that may go deep enough adds its name, unless that is done or stands above. -/
theorem Ancestors.mem_visit (hAncestors : table.Ancestors above name) {depth : Nat}
    (hEnough : table.size < above.length + depth) (hName : name ∈ table.names) (done : List String) :
    name ∈ table.visit depth above done name ∨ name ∈ above := by
  obtain ⟨depth, rfl⟩ : ∃ less, depth = less + 1 := by
    have hLength := table.length_le_size hAncestors.nodup hAncestors.declared
    exact ⟨depth - 1, by omega⟩
  obtain ⟨schema, hFind⟩ := (table.mem_names_iff_find? name).mp hName
  unfold visit
  split
  case isTrue hSeen => exact hSeen
  case isFalse => simp [hFind]

/-- Searching for all names of a list leaves none out that is not above. -/
theorem mem_foldl_visit_of_ancestors {depth : Nat} (hEnough : table.size < above.length + depth)
    {names : List String} (hAncestors : ∀ next ∈ names, table.Ancestors above next) (done : List String)
    {next : String} (hNext : next ∈ names) (hDeclared : next ∈ table.names) :
    next ∈ names.foldl (table.visit depth above) done ∨ next ∈ above := by
  induction names generalizing done with
  | nil => cases hNext
  | cons first names ih =>
      obtain ⟨hFirst, hFurther⟩ := List.forall_mem_cons.mp hAncestors
      rcases List.mem_cons.mp hNext with rfl | hLater
      · have hRest := Continues.foldl (visit_continues table depth above) names (table.visit depth above done next)
        exact (hFirst.mem_visit hEnough hDeclared done).imp_left fun hMem => hRest.keeps.subset hMem
      · exact ih hFurther _ hLater

/-- What every single search keeps is kept by searches one after the other. -/
theorem DependenciesFirst.foldl {search : List String → String → List String} {names : List String}
    (hSearch : ∀ next ∈ names, ∀ done, table.DependenciesFirst done → table.DependenciesFirst (search done next))
    (hDone : table.DependenciesFirst done) : table.DependenciesFirst (names.foldl search done) :=
  List.foldlRecOn names search hDone fun done hDone next hNext => hSearch next hNext done hDone

/-- A search keeps dependencies first. The induction is on the depth that is left: the searches for what a name
refers to come before the name is added, and what they leave out stands above it or is the name itself. -/
theorem Ancestors.dependenciesFirst_visit (hAncestors : table.Ancestors above name) {depth : Nat}
    (hEnough : table.size < above.length + depth) (hDone : table.DependenciesFirst done) :
    table.DependenciesFirst (table.visit depth above done name) := by
  induction depth generalizing above done name with
  | zero => exact hDone
  | succ depth ih =>
      unfold visit
      split
      case isTrue => exact hDone
      case isFalse hNew =>
        cases hFind : table.find? name with
        | none => exact hDone
        | some schema =>
            have hAbove : name ∉ above := fun hMem => hNew (.inr hMem)
            have hDeclared := (table.mem_names_iff_find? name).mpr ⟨schema, hFind⟩
            have hDeeper (next : String) (hNext : next ∈ schema.references) :
                table.Ancestors (name :: above) next :=
              hAncestors.descend hAbove hDeclared ⟨schema, hFind, hNext⟩
            have hLeft : table.size < (name :: above).length + depth := by
              rw [List.length_cons]
              omega
            refine DependenciesFirst.concat (.foldl (fun next hNext done hDone => ?_) hDone) ?_
            · exact ih (hDeeper next hNext) hLeft hDone
            · rintro next ⟨_, hSame, hNext⟩ hNextDeclared hOther
              obtain rfl := Option.some.inj (hFind.symm.trans hSame)
              rcases mem_foldl_visit_of_ancestors hLeft hDeeper done hNext hNextDeclared with hMem | hMem
              · exact .inl hMem
              · exact .inr (hAncestors.reach next ((List.mem_cons.mp hMem).resolve_left hOther))

/-- The searches start without ancestors and with nothing done. -/
theorem dependenciesFirst_dependencyOrder (table : SchemaTable) :
    table.DependenciesFirst table.dependencyOrder := by
  refine .foldl (fun name _ done hDone => ?_) (.nil table)
  exact (Ancestors.nil table name).dependenciesFirst_visit (by simp) hDone

/-- Whatever refers to what, the order has every name of the table exactly once and no other names. A name to which
a schema refers comes before that schema unless it refers back to it, directly or through other schemas. -/
theorem dependencyOrder_lists_dependencies_first (table : SchemaTable) :
    (table.dependencyOrder.Nodup ∧ ∀ name, name ∈ table.dependencyOrder ↔ table.has name = true) ∧
    ∀ name next, table.RefersTo name next → table.has next = true → next ≠ name →
      ¬ TransGen table.RefersTo next name →
        table.dependencyOrder.idxOf next < table.dependencyOrder.idxOf name := by
  have hNames (name : String) : name ∈ table.dependencyOrder ↔ name ∈ table.names :=
    table.dependencyOrder_perm_names.mem_iff
  have hNodup : table.dependencyOrder.Nodup := table.dependencyOrder_perm_names.nodup_iff.mpr table.nodup
  refine ⟨⟨hNodup, fun name => (hNames name).trans (Entries.has_iff name table.entries).symm⟩, ?_⟩
  intro name next hRefers hNext hOther hOnward
  obtain ⟨schema, hFind, -⟩ := id hRefers
  have hMem : name ∈ table.dependencyOrder :=
    (hNames name).mpr ((table.mem_names_iff_find? name).mpr ⟨schema, hFind⟩)
  obtain ⟨before, behind, hSplit⟩ := List.append_of_mem hMem
  have hBefore : next ∈ before :=
    (dependenciesFirst_dependencyOrder table before name behind hSplit next hRefers
      ((Entries.has_iff next table.entries).mp hNext) hOther).resolve_right hOnward
  have hFresh : name ∉ before := by
    rw [hSplit] at hNodup
    exact fun hName => (List.nodup_append.mp hNodup).2.2 name hName name List.mem_cons_self rfl
  calc table.dependencyOrder.idxOf next = before.idxOf next := by
        rw [hSplit, List.idxOf_append_of_mem hBefore]
    _ < before.length := List.idxOf_lt_length_of_mem hBefore
    _ ≤ table.dependencyOrder.idxOf name := by
        rw [hSplit, List.idxOf_append_of_notMem hFresh]
        omega

/-- Names that refer only to one another lead to no other name. -/
theorem mem_of_transGen {names : List String}
    (hClosed : ∀ entry ∈ table.entries, entry.1 ∈ names → ∀ next ∈ entry.2.references, next ∈ names)
    {first last : String} (hFirst : first ∈ names) (hPath : TransGen table.RefersTo first last) : last ∈ names := by
  have hStep {name next : String} (hName : name ∈ names) (hRefers : table.RefersTo name next) : next ∈ names := by
    obtain ⟨schema, hFind, hNext⟩ := hRefers
    exact hClosed (name, schema) ((table.mem_entries_iff_find? name schema).mpr hFind) hName next hNext
  induction hPath with
  | single hRefers => exact hStep hFirst hRefers
  | tail _ hRefers ih => exact hStep ih hRefers

/-- A page refers to itself, to a name that is not declared, and twice to a circle of two other names. -/
theorem dependencyOrder_lists_dependencies_first_circle :
    let table : SchemaTable := OrderedMap.ofList
      [("Page", .tuple [.reference "Page", .reference "Row", .reference "Gone"] (some (.reference "Row"))),
        ("Row", .array (.reference "Cell")), ("Cell", .optional (.reference "Row"))]
    table.RefersTo "Page" "Row" ∧ table.has "Row" = true ∧ ¬ TransGen table.RefersTo "Row" "Page" ∧
      table.dependencyOrder.Nodup ∧ table.dependencyOrder.idxOf "Row" < table.dependencyOrder.idxOf "Page" := by
  intro table
  have hRefers : table.RefersTo "Page" "Row" := ⟨_, rfl, by decide⟩
  have hOnward : ¬ TransGen table.RefersTo "Row" "Page" := by
    intro hPath
    have hMem : "Page" ∈ ["Row", "Cell"] := mem_of_transGen (by decide) (by decide) hPath
    simp at hMem
  obtain ⟨⟨hNodup, -⟩, hFirst⟩ := dependencyOrder_lists_dependencies_first table
  exact ⟨hRefers, rfl, hOnward, hNodup, hFirst _ _ hRefers rfl (by decide) hOnward⟩

end SchemaForge.SchemaTable
