import Mathlib.Data.List.Nodup
import SchemaForge.Emission.Order
import SchemaForge.Proofs.OrderedMap

/-! The order in which schemas are defined names every schema of the table exactly once, whatever refers to
what. A search adds declared names behind those that are done, each of them once, and none that stands above
it. -/
namespace SchemaForge.SchemaTable

variable {table : SchemaTable} {above done result : List String}

/-- What a search may do to the names that are done: it adds further names of the table behind them, which
were not done before and do not stand above the search. -/
structure Continues (table : SchemaTable) (above done result : List String) : Prop where
  keeps : done <+: result
  nodup : done.Nodup → result.Nodup
  declared : ∀ name ∈ result, name ∈ done ∨ name ∈ table.names
  below : ∀ name ∈ above, name ∈ result → name ∈ done

theorem Continues.refl (table : SchemaTable) (above done : List String) : Continues table above done done where
  keeps := List.prefix_rfl
  nodup := id
  declared _ hMem := Or.inl hMem
  below _ _ hMem := hMem

/-- Two searches one after the other continue the list as one search does. -/
theorem Continues.trans {later : List String} (first : Continues table above done result)
    (second : Continues table above result later) : Continues table above done later where
  keeps := first.keeps.trans second.keeps
  nodup hNodup := second.nodup (first.nodup hNodup)
  declared name hMem := by
    rcases second.declared name hMem with hBefore | hNew
    · exact first.declared name hBefore
    · exact Or.inr hNew
  below name hAbove hMem := first.below name hAbove (second.below name hAbove hMem)

/-- Searching for one name after the other. -/
theorem Continues.foldl {search : List String → String → List String}
    (hSearch : ∀ done name, Continues table above done (search done name)) (names done : List String) :
    Continues table above done (names.foldl search done) := by
  induction names generalizing done with
  | nil => exact .refl table above done
  | cons name names ih => exact (hSearch done name).trans (ih (search done name))

/-- The name of a search is added last. It stands above the searches for the names it refers to, so none of
them adds it. -/
theorem Continues.add {name : String} (inner : Continues table (name :: above) done result)
    (hNew : ¬ (name ∈ done ∨ name ∈ above)) (hDeclared : name ∈ table.names) :
    Continues table above done (result ++ [name]) where
  keeps := inner.keeps.trans (List.prefix_append result [name])
  nodup hNodup := by
    have hFresh : name ∉ result := fun hMem => hNew (Or.inl (inner.below name List.mem_cons_self hMem))
    rw [← List.concat_eq_append]
    exact List.Nodup.concat hFresh (inner.nodup hNodup)
  declared other hMem := by
    rcases List.mem_append.mp hMem with hInner | hLast
    · exact inner.declared other hInner
    · exact Or.inr (List.mem_singleton.mp hLast ▸ hDeclared)
  below other hAbove hMem := by
    rcases List.mem_append.mp hMem with hInner | hLast
    · exact inner.below other (List.mem_cons_of_mem _ hAbove) hInner
    · exact absurd (Or.inr (List.mem_singleton.mp hLast ▸ hAbove)) hNew

/-- The induction is on the depth: the searches for references come before the name itself is added. -/
theorem visit_continues (table : SchemaTable) (depth : Nat) (above done : List String) (name : String) :
    Continues table above done (table.visit depth above done name) := by
  induction depth generalizing above done name with
  | zero => exact .refl table above done
  | succ depth ih =>
      unfold visit
      split
      · exact .refl table above done
      · rename_i hNew
        cases hFind : table.find? name with
        | none => exact .refl table above done
        | some schema =>
            exact (Continues.foldl (ih (name :: above)) schema.references done).add hNew
              ((table.mem_names_iff_find? name).mpr ⟨schema, hFind⟩)

/-- A search at the top adds the name it is for. -/
theorem mem_visit_of_mem_names (depth : Nat) (done : List String) {name : String} (hName : name ∈ table.names) :
    name ∈ table.visit (depth + 1) [] done name := by
  obtain ⟨schema, hFind⟩ := (table.mem_names_iff_find? name).mp hName
  unfold visit
  split
  · rename_i hDone
    simpa using hDone
  · simp [hFind]

/-- Every name is searched for at some time, and what was added stays. -/
theorem mem_foldl_visit (depth : Nat) {names : List String} (hNames : names ⊆ table.names) (done : List String)
    {name : String} (hName : name ∈ names) : name ∈ names.foldl (table.visit (depth + 1) []) done := by
  induction names generalizing done with
  | nil => cases hName
  | cons first names ih =>
      obtain ⟨hFirst, hFurther⟩ := List.cons_subset.mp hNames
      rcases List.mem_cons.mp hName with rfl | hLater
      · have hRest := Continues.foldl (visit_continues table (depth + 1) []) names
          (table.visit (depth + 1) [] done name)
        exact hRest.keeps.subset (mem_visit_of_mem_names depth done hFirst)
      · exact ih hFurther _ hLater

/-- The order has every name of the table exactly once and no other names. -/
theorem dependencyOrder_perm_names (table : SchemaTable) : table.dependencyOrder.Perm table.names := by
  have hOrder : Continues table [] [] table.dependencyOrder :=
    .foldl (visit_continues table (table.size + 1) []) table.names []
  refine (List.perm_ext_iff_of_nodup (hOrder.nodup List.nodup_nil) table.nodup).mpr fun name => ?_
  constructor
  · intro hMem
    exact (hOrder.declared name hMem).resolve_left List.not_mem_nil
  · intro hName
    exact mem_foldl_visit table.size (List.Subset.refl _) [] hName

theorem dependencyOrder_subset_names (table : SchemaTable) : table.dependencyOrder ⊆ table.names :=
  table.dependencyOrder_perm_names.subset

end SchemaForge.SchemaTable
