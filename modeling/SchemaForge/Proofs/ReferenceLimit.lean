import Mathlib.Logic.Relation
import SchemaForge.Proofs.ReportedViolations

/-! The limit on references in a row leaves no trace in what is reported. Any limit that is at least the
number of names gives the same violations in the same order. Where no cycle of declarations stays at one
place, the limit is not even met: a checker that gives up as soon as a reference is one too many never gives
up. -/
namespace SchemaForge

namespace Schema

mutual

/-- The names that a schema refers to at its own place: by itself, or as an alternative or an optional
schema. -/
def directReferences : Schema → List String
  | .reference name => [name]
  | .optional inner => directReferences inner
  | .union options _ => directReferencesOfAll options
  | _ => []

def directReferencesOfAll : List Schema → List String
  | [] => []
  | schema :: rest => directReferences schema ++ directReferencesOfAll rest

end

end Schema

namespace SchemaTable

/-- The schema of the first name refers to the second one at its own place. -/
def LeadsTo (table : SchemaTable) (name next : String) : Prop :=
  ∃ schema, table.find? name = some schema ∧ next ∈ schema.directReferences

/-- No cycle of references consists of references, alternatives and optional schemas only. -/
def NoDirectCycle (table : SchemaTable) : Prop :=
  ∀ name, ¬ Relation.TransGen table.LeadsTo name name

/-- A rank that every reference at the same place lowers excludes cycles. -/
theorem NoDirectCycle.of_rank {table : SchemaTable} (rank : String → Nat)
    (hLower : ∀ entry ∈ table.entries, ∀ next ∈ entry.2.directReferences, rank next < rank entry.1) :
    table.NoDirectCycle := by
  have hStep {name next : String} (hLeads : table.LeadsTo name next) : rank next < rank name := by
    obtain ⟨schema, hFind, hNext⟩ := hLeads
    exact hLower (name, schema) ((table.mem_entries_iff_find? name schema).mpr hFind) next hNext
  have hRank {name next : String} (hPath : Relation.TransGen table.LeadsTo name next) : rank next < rank name := by
    induction hPath with
    | single hLeads => exact hStep hLeads
    | tail _ hLeads ih => exact Nat.lt_trans (hStep hLeads) ih
  exact fun name hCycle => Nat.lt_irrefl _ (hRank hCycle)

end SchemaTable

mutual

/-- The violations of a schema at a place, found in the same order as by `violationsAt`, where following a
reference may fail. Alternatives after the first that is accepted are not tried. -/
def attemptAt (follow : Path → String → Option (List Violation)) (missing : Checker) (site : Site Checker)
    (path : Path) : Schema → Option (List Violation)
  | .reference name => follow path name
  | .optional inner =>
      if site.isAbsent then some [] else attemptAt follow missing site path inner
  | .union options message =>
      if site.isAbsent then some (missingAt path)
      else (attemptAny follow missing site options).map fun accepted =>
        if accepted then [] else violationAt path message .noAlternative
  | schema => some (violationsAt (fun _ _ => []) missing site path schema)

/-- One of the schemas has no violation at the place, unless following a reference fails before. -/
def attemptAny (follow : Path → String → Option (List Violation)) (missing : Checker) (site : Site Checker) :
    List Schema → Option Bool
  | [] => some false
  | option :: rest =>
      (attemptAt follow missing site [] option).bind fun violations =>
        if violations.isEmpty then some true else attemptAny follow missing site rest

end

/-- The violations at a place where references are followed at most the given number of times, and nothing
if a declared name is met after that. -/
def attemptWithin (table : SchemaTable) (missing : Checker) (site : Site Checker) :
    Nat → Path → Schema → Option (List Violation)
  | 0 => attemptAt (fun _ name => if table.has name then none else some []) missing site
  | hops + 1 =>
      attemptAt
        (fun path name => (table.find? name).elim (some []) (attemptWithin table missing site hops path))
        missing site

/-- The checker of a candidate that gives up where its own limit cuts a reference off. -/
def placeAttempt (table : SchemaTable) (limit : Nat) (candidate : Option Json) :
    Path → Schema → Option (List Violation) :=
  attemptWithin table (missingFor table limit candidate) (siteOf (checkerOf table limit) candidate) (limit + 1)

section Place

variable {follow : Path → String → Option (List Violation)} {follow' : Path → String → List Violation}
  {missing : Checker} {site : Site Checker}

mutual

/-- An attempt finds what the checker finds, if that is so for the references at the place. -/
theorem attemptAt_eq_some (path : Path) :
    ∀ schema : Schema, (∀ path, ∀ name ∈ schema.directReferences, follow path name = some (follow' path name)) →
      attemptAt follow missing site path schema = some (violationsAt follow' missing site path schema)
  | .reference name, hFollow => by
      rw [attemptAt, violationsAt]
      exact hFollow path name (by simp [Schema.directReferences])
  | .optional inner, hFollow => by
      rw [attemptAt, violationsAt, attemptAt_eq_some path inner hFollow]
      split <;> rfl
  | .union options message, hFollow => by
      rw [attemptAt, violationsAt, attemptAny_eq_some options hFollow]
      split <;> rfl
  | .any, _ | .text _, _ | .number, _ | .boolean, _ | .dateTime, _ | .literal _, _ | .enumeration _ _, _
  | .array _, _ | .tuple _ _, _ | .object _ _, _ | .record, _ => by
      simp only [attemptAt, violationsAt]

/-- The alternatives are tried one by one, and following fails for none of the names they refer to. -/
theorem attemptAny_eq_some :
    ∀ options : List Schema, (∀ path, ∀ name ∈ Schema.directReferencesOfAll options,
      follow path name = some (follow' path name)) →
      attemptAny follow missing site options = some (acceptedByAny follow' missing site options)
  | [], _ => rfl
  | option :: rest, hFollow => by
      have hOption := attemptAt_eq_some [] option fun path name hName =>
        hFollow path name (List.mem_append_left _ hName)
      have hRest := attemptAny_eq_some rest fun path name hName =>
        hFollow path name (List.mem_append_right _ hName)
      rw [attemptAny, acceptedByAny, hOption, hRest, Option.bind_some]
      cases (violationsAt follow' missing site [] option).isEmpty <;> rfl

end

end Place

section Trail

variable {table : SchemaTable} {missing : Checker} {site : Site Checker}

/-- The names that were followed on the way to a schema. They are declared and different, and lead on to
every name that the schema refers to. -/
structure Trail (table : SchemaTable) (names : List String) (schema : Schema) : Prop where
  nodup : names.Nodup
  declared : names ⊆ table.names
  onward : ∀ name ∈ names, ∀ next ∈ schema.directReferences, Relation.TransGen table.LeadsTo name next

theorem Trail.nil (table : SchemaTable) (schema : Schema) : Trail table [] schema where
  nodup := List.nodup_nil
  declared := List.nil_subset _
  onward := by simp

/-- Without a cycle a name that is followed is a new one. -/
theorem Trail.follow {names : List String} {schema target : Schema} (trail : Trail table names schema)
    (hAcyclic : table.NoDirectCycle) {name : String} (hName : name ∈ schema.directReferences)
    (hFind : table.find? name = some target) : Trail table (name :: names) target where
  nodup := List.nodup_cons.mpr ⟨fun hMem => hAcyclic name (trail.onward name hMem name hName), trail.nodup⟩
  declared := by
    have hDeclared : name ∈ table.names :=
      (Entries.find?_isSome_iff name table.entries).mp (Option.isSome_iff_exists.mpr ⟨target, hFind⟩)
    exact List.cons_subset.mpr ⟨hDeclared, trail.declared⟩
  onward := by
    intro earlier hEarlier next hNext
    have hStep : table.LeadsTo name next := ⟨target, hFind, hNext⟩
    rcases List.mem_cons.mp hEarlier with rfl | hBefore
    · exact .single hStep
    · exact (trail.onward earlier hBefore name hName).tail hStep

/-- With more references left than names that are not yet on the trail, no attempt fails. The induction is
on the references that may still be followed. -/
theorem Trail.attemptWithin_eq_some (hAcyclic : table.NoDirectCycle) {hops : Nat} {names : List String}
    {schema : Schema} (trail : Trail table names schema) (hEnough : table.size < names.length + hops)
    (path : Path) :
    attemptWithin table missing site hops path schema =
      some (violationsWithin table missing site hops path schema) := by
  induction hops generalizing names schema path with
  | zero =>
      have hLength := table.length_le_size trail.nodup trail.declared
      omega
  | succ hops ih =>
      rw [attemptWithin, violationsWithin]
      apply attemptAt_eq_some
      intro path name hName
      cases hFind : table.find? name with
      | none => rfl
      | some target =>
          have hFurther : table.size < (name :: names).length + hops := by
            rw [List.length_cons]
            omega
          exact ih (trail.follow hAcyclic hName hFind) hFurther path

end Trail

/-- Every limit that is at least the number of names gives the same report as the number of names itself, for
every table, schema and candidate. If no cycle stays at one place, no part of a candidate meets the limit. -/
theorem checkerOf_eq_check_of_size_le (table : SchemaTable) :
    (∀ limit, table.size ≤ limit → ∀ schema candidate,
      checkerOf table limit candidate [] schema = check table schema candidate) ∧
    (table.NoDirectCycle → ∀ candidate path schema,
      placeAttempt table table.size candidate path schema =
        some (checkerOf table table.size candidate path schema)) := by
  constructor
  · intro limit hLimit schema candidate
    exact checkerOf_eq_of_agreeOn (SchemaTable.AgreeOn.refl table) (Nat.le_refl _) hLimit
      (fun _ _ => trivial) candidate []
  · intro hAcyclic candidate path schema
    rw [checkerOf_eq_placeChecker]
    exact (Trail.nil table schema).attemptWithin_eq_some hAcyclic (by simp) path

/-- Three declarations in a circle that passes through the elements of an array. -/
theorem checkerOf_eq_check_of_size_le_lists :
    let table : SchemaTable := OrderedMap.ofList
      [("Lists", .array (.reference "Cell")), ("Cell", .optional (.reference "Item")),
        ("Item", .union [.reference "Lists", .number] "neither")]
    let document : Json := .array [.array [.bool true, .number (.integer 1)], .array []]
    table.NoDirectCycle ∧
      checkerOf table 7 (some document) [] (.reference "Lists") = check table (.reference "Lists") (some document) ∧
      placeAttempt table table.size (some document) [] (.reference "Lists") =
        some (checkerOf table table.size (some document) [] (.reference "Lists")) := by
  intro table document
  have hAcyclic : table.NoDirectCycle := by
    refine .of_rank (fun name => if name = "Cell" then 2 else if name = "Item" then 1 else 0) ?_
    decide
  obtain ⟨hLimit, hAttempt⟩ := checkerOf_eq_check_of_size_le table
  exact ⟨hAcyclic, hLimit 7 (by decide) _ _, hAttempt hAcyclic (some document) [] _⟩

example :
    let table : SchemaTable := OrderedMap.ofList [("Self", .optional (.reference "Self"))]
    placeAttempt table table.size (some .null) [] (.reference "Self") = none := rfl

end SchemaForge
