import SchemaForge.Proofs.Conformance

/-! What is reported depends on the table only through the names that can be reached, and not on how many
references may be followed, as long as these are at least as many as there are names. Once a violation is
found, following more references finds the same ones; that nothing is found is settled after as many
references as there are names. -/
namespace SchemaForge

namespace Schema

/-- Induction over schemas in which the parts of a schema may be used as they stand in their list. -/
@[elab_as_elim]
theorem induction_parts {motive : Schema → Prop}
    (text : ∀ required, motive (.text required)) (number : motive .number) (boolean : motive .boolean)
    (dateTime : motive .dateTime) (literal : ∀ value, motive (.literal value))
    (enumeration : ∀ values message, motive (.enumeration values message))
    (union : ∀ options message, (∀ option ∈ options, motive option) → motive (.union options message))
    (array : ∀ element, motive element → motive (.array element))
    (tuple : ∀ items rest, (∀ item ∈ items, motive item) → (∀ schema ∈ rest, motive schema) →
      motive (.tuple items rest))
    (object : ∀ fields strict, (∀ field ∈ fields, motive field.2) → motive (.object fields strict))
    (record : motive .record) (optional : ∀ inner, motive inner → motive (.optional inner))
    (reference : ∀ name, motive (.reference name)) (any : motive .any) (schema : Schema) : motive schema :=
  @Schema.rec motive (fun schemas => ∀ schema ∈ schemas, motive schema)
    (fun rest => ∀ schema ∈ rest, motive schema) (fun fields => ∀ field ∈ fields, motive field.2)
    (fun field => motive field.2)
    text number boolean dateTime literal enumeration union array tuple object record optional reference any
    (by simp) (fun _ _ hHead hTail => List.forall_mem_cons.mpr ⟨hHead, hTail⟩)
    (by simp) (fun _ hSchema => by simpa using hSchema)
    (by simp) (fun _ _ hHead hTail => List.forall_mem_cons.mpr ⟨hHead, hTail⟩) (fun _ _ hField => hField)
    schema

/-- The recursion over lists of schemas is the one of the library. -/
theorem referencesOfAll_eq_flatMap (schemas : List Schema) :
    referencesOfAll schemas = schemas.flatMap references := by
  induction schemas with
  | nil => rfl
  | cons schema schemas ih => rw [referencesOfAll, ih, List.flatMap_cons]

theorem referencesOfFields_eq_flatMap (fields : Entries Schema) :
    referencesOfFields fields = fields.flatMap fun field => field.2.references := by
  induction fields with
  | nil => rfl
  | cons field fields ih => rw [referencesOfFields, ih, List.flatMap_cons]

theorem references_tuple (items : List Schema) (rest : Option Schema) :
    (tuple items rest).references = items.flatMap references ++ rest.elim [] references := by
  cases rest <;> simp [references, referencesOfAll_eq_flatMap]

/-- Every reference in the schema is to one of the names. -/
def RefersOnlyTo (names : String → Prop) (schema : Schema) : Prop :=
  ∀ name ∈ schema.references, names name

variable {names : String → Prop}

theorem refersOnlyTo_union {options : List Schema} {message : String} :
    (union options message).RefersOnlyTo names ↔ ∀ option ∈ options, option.RefersOnlyTo names := by
  simp only [RefersOnlyTo, references, referencesOfAll_eq_flatMap, List.mem_flatMap]
  exact ⟨fun h option hMem name hName => h name ⟨option, hMem, hName⟩,
    fun h name ⟨option, hMem, hName⟩ => h option hMem name hName⟩

theorem refersOnlyTo_object {fields : Entries Schema} {strict : Bool} :
    (object fields strict).RefersOnlyTo names ↔ ∀ field ∈ fields, field.2.RefersOnlyTo names := by
  simp only [RefersOnlyTo, references, referencesOfFields_eq_flatMap, List.mem_flatMap]
  exact ⟨fun h field hMem name hName => h name ⟨field, hMem, hName⟩,
    fun h name ⟨field, hMem, hName⟩ => h field hMem name hName⟩

theorem refersOnlyTo_tuple {items : List Schema} {rest : Option Schema} :
    (tuple items rest).RefersOnlyTo names ↔
      (∀ item ∈ items, item.RefersOnlyTo names) ∧ ∀ schema ∈ rest, schema.RefersOnlyTo names := by
  simp only [RefersOnlyTo, references_tuple, List.mem_append, List.mem_flatMap]
  constructor
  · refine fun h => ⟨fun item hMem name hName => h name (Or.inl ⟨item, hMem, hName⟩), ?_⟩
    rintro schema ⟨⟩ name hName
    exact h name (Or.inr hName)
  · rintro ⟨hItems, hRest⟩ name (⟨item, hMem, hName⟩ | hName)
    · exact hItems item hMem name hName
    · cases rest with
      | none => cases hName
      | some schema => exact hRest schema rfl name hName

end Schema

section Place

variable {names : String → Prop} {follow follow' : Path → String → List Violation} {missing missing' : Checker}
  {checkers checkers' : Option Json → Checker} {candidate : Option Json}

/-- The loop over elements as a list of their indices, which the rules for parts are about. -/
theorem elementViolations_eq_flatMap (path : Path) (schemaAt : Nat → Option Schema) (elements : List Json) :
    elementViolations path schemaAt (elements.map fun document => checkers (some document)) =
      elements.zipIdx.flatMap fun element =>
        (schemaAt element.2).elim [] (checkers (some element.1) (path ++ [toString element.2])) := by
  rw [elementViolations, List.zipIdx_map, List.flatMap_map]
  apply List.flatMap_congr
  rintro ⟨document, index⟩ -
  cases hSchema : schemaAt index <;> simp [hSchema]

theorem elementViolations_congr {elements : List Json} {path : Path} {schemaAt : Nat → Option Schema}
    (hElements : ∀ document ∈ elements, ∀ index schema, schemaAt index = some schema →
      ∀ path, checkers' (some document) path schema = checkers (some document) path schema) :
    elementViolations path schemaAt (elements.map fun document => checkers' (some document)) =
      elementViolations path schemaAt (elements.map fun document => checkers (some document)) := by
  rw [elementViolations_eq_flatMap, elementViolations_eq_flatMap]
  apply List.flatMap_congr
  rintro ⟨document, index⟩ hMem
  cases hSchema : schemaAt index with
  | none => rfl
  | some schema => exact hElements document (List.fst_mem_of_mem_zipIdx hMem) index schema hSchema _

section Parts

variable (hParts : ∀ part, candidateSize part < candidateSize candidate → ∀ path schema,
  schema.RefersOnlyTo names → checkers' part path schema = checkers part path schema)

include hParts

theorem violationsAt_array_congr {element : Schema} (hNames : element.RefersOnlyTo names) (path : Path) :
    violationsAt follow' missing' (siteOf checkers' candidate) path (.array element) =
      violationsAt follow missing (siteOf checkers candidate) path (.array element) := by
  rcases candidate with _ | document
  · simp only [violationsAt, siteOf]
  cases document with
  | array elements =>
      simp only [violationsAt, siteOf]
      apply elementViolations_congr
      rintro document hMem index schema ⟨⟩ path
      exact hParts _ (candidateSize_element_lt hMem) path _ hNames
  | _ => simp [violationsAt, siteOf, wrongTypeAt, Site.isAbsent, Site.kindName]

theorem violationsAt_tuple_congr {items : List Schema} {rest : Option Schema}
    (hNames : (Schema.tuple items rest).RefersOnlyTo names) (path : Path) :
    violationsAt follow' missing' (siteOf checkers' candidate) path (.tuple items rest) =
      violationsAt follow missing (siteOf checkers candidate) path (.tuple items rest) := by
  rcases candidate with _ | document
  · simp only [violationsAt, siteOf]
  cases document with
  | array elements =>
      obtain ⟨hItems, hRest⟩ := Schema.refersOnlyTo_tuple.mp hNames
      have hSchemas (index : Nat) (schema : Schema) (hSchema : items[index]?.or rest = some schema) :
          schema.RefersOnlyTo names := by
        rcases Option.or_eq_some_iff.mp hSchema with hItem | ⟨-, hLast⟩
        · exact hItems schema (List.mem_of_getElem? hItem)
        · exact hRest schema hLast
      have hElements : ∀ document ∈ elements, ∀ index schema, items[index]?.or rest = some schema →
          ∀ path, checkers' (some document) path schema = checkers (some document) path schema :=
        fun document hMem index schema hSchema path =>
          hParts _ (candidateSize_element_lt hMem) path schema (hSchemas index schema hSchema)
      simp only [violationsAt, siteOf, List.length_map, elementViolations_congr hElements]
  | _ => simp [violationsAt, siteOf, wrongTypeAt, Site.isAbsent, Site.kindName]

/-- An object is checked alike if its members are, missing ones included. -/
theorem violationsAt_object_congr
    (hMissing : candidate ≠ none → missing = checkers none ∧ missing' = checkers' none)
    {fields : Entries Schema} {strict : Bool} (hNames : (Schema.object fields strict).RefersOnlyTo names)
    (path : Path) :
    violationsAt follow' missing' (siteOf checkers' candidate) path (.object fields strict) =
      violationsAt follow missing (siteOf checkers candidate) path (.object fields strict) := by
  rcases candidate with _ | document
  · simp only [violationsAt, siteOf]
  cases document with
  | object members =>
      obtain ⟨hAbsent, hAbsent'⟩ := hMissing (by simp)
      have hFields : fieldViolations missing' path fields
            (members.map fun member => (member.1, checkers' (some member.2))) =
          fieldViolations missing path fields
            (members.map fun member => (member.1, checkers (some member.2))) := by
        rw [fieldViolations_eq_flatMap hAbsent, fieldViolations_eq_flatMap hAbsent']
        apply List.flatMap_congr
        intro field hMem
        exact hParts _ (candidateSize_member_lt field.1 members) _ _
          (Schema.refersOnlyTo_object.mp hNames field hMem)
      have hKeys := Entries.names_mapValues (fun document => checkers (some document)) members
      have hKeys' := Entries.names_mapValues (fun document => checkers' (some document)) members
      simp only [violationsAt, siteOf, hFields, unknownKeysAt, hKeys, hKeys']
  | _ => simp [violationsAt, siteOf, wrongTypeAt, Site.isAbsent, Site.kindName]

end Parts

/-- Violations that are found at a place are found again when more references are followed there. The
hypotheses say the same of the references and that the parts are checked alike; all of them are needed only
for the names that occur. -/
theorem violationsAt_eq_of_ne_nil
    (hFollow : ∀ path name, names name → follow path name ≠ [] → follow' path name = follow path name)
    (hMissing : candidate ≠ none → missing = checkers none ∧ missing' = checkers' none)
    (hParts : ∀ part, candidateSize part < candidateSize candidate → ∀ path schema,
      schema.RefersOnlyTo names → checkers' part path schema = checkers part path schema)
    {schema : Schema} (hNames : schema.RefersOnlyTo names) {path : Path}
    (hSome : violationsAt follow missing (siteOf checkers candidate) path schema ≠ []) :
    violationsAt follow' missing' (siteOf checkers' candidate) path schema =
      violationsAt follow missing (siteOf checkers candidate) path schema := by
  induction hSize : sizeOf schema using Nat.strong_induction_on generalizing schema path with
  | _ size ih =>
      subst hSize
      cases schema with
      | any => simp only [violationsAt]
      | optional inner =>
          cases candidate with
          | none => simp only [violationsAt, siteOf, Site.isAbsent, if_true]
          | some document =>
              have hSmaller : sizeOf inner < sizeOf inner.optional := by
                simp only [Schema.optional.sizeOf_spec]
                omega
              simp only [violationsAt, isAbsent_siteOf_some, Bool.false_eq_true, if_false] at hSome ⊢
              have hInner : inner.RefersOnlyTo names := hNames
              exact ih _ hSmaller hInner hSome rfl
      | literal value =>
          cases candidate with
          | none => simp [violationsAt, siteOf, Site.isAbsent]
          | some document =>
              have hSame : value.matchesSite (siteOf checkers' (some document)) =
                  value.matchesSite (siteOf checkers (some document)) :=
                Bool.eq_iff_iff.mpr ((value.matchesSite_siteOf checkers' document).trans
                  (value.matchesSite_siteOf checkers document).symm)
              simp [violationsAt, hSame]
      | union options message =>
          cases candidate with
          | none => simp only [violationsAt, siteOf, Site.isAbsent, if_true]
          | some document =>
              -- All options have violations, so they have the same ones when more references are followed.
              have hNone : acceptedByAny follow missing (siteOf checkers (some document)) options = false := by
                by_contra hAny
                simp [violationsAt, hAny] at hSome
              have hNone' : acceptedByAny follow' missing' (siteOf checkers' (some document)) options = false := by
                rw [← Bool.not_eq_true, acceptedByAny_iff] at hNone ⊢
                rintro ⟨option, hMem, hNil⟩
                have hOption : violationsAt follow missing (siteOf checkers (some document)) [] option ≠ [] :=
                  fun h => hNone ⟨option, hMem, h⟩
                have hSmaller : sizeOf option < sizeOf (Schema.union options message) := by
                  have hMemSize := List.sizeOf_lt_of_mem hMem
                  simp only [Schema.union.sizeOf_spec]
                  omega
                have hSame := ih _ hSmaller (Schema.refersOnlyTo_union.mp hNames option hMem) hOption rfl
                exact hOption (hSame.symm.trans hNil)
              simp [violationsAt, hNone, hNone']
      | array element =>
          have hElement : element.RefersOnlyTo names := hNames
          exact violationsAt_array_congr hParts hElement path
      | tuple items rest => exact violationsAt_tuple_congr hParts hNames path
      | object fields strict => exact violationsAt_object_congr hParts hMissing hNames path
      | reference name =>
          simp only [violationsAt] at hSome ⊢
          exact hFollow path name (hNames name (by simp [Schema.references])) hSome
      | _ =>
          rcases candidate with _ | document
          · simp only [violationsAt, siteOf]
          · cases document <;>
              simp [violationsAt, siteOf, wrongTypeAt, Site.isAbsent, Site.kindName]

end Place

/-- The tables have the same schemas under the names, and these schemas refer to no other names. -/
structure SchemaTable.AgreeOn (names : String → Prop) (table table' : SchemaTable) : Prop where
  same : ∀ name, names name → table'.find? name = table.find? name
  closed : ∀ name target, names name → table.find? name = some target → target.RefersOnlyTo names

theorem SchemaTable.AgreeOn.symm {names : String → Prop} {table table' : SchemaTable}
    (hAgree : AgreeOn names table table') : AgreeOn names table' table where
  same name hName := (hAgree.same name hName).symm
  closed name target hName hFind := hAgree.closed name target hName ((hAgree.same name hName).symm.trans hFind)

theorem SchemaTable.AgreeOn.refl (table : SchemaTable) : AgreeOn (fun _ => True) table table where
  same _ _ := rfl
  closed _ _ _ _ := fun _ _ => trivial

section Limit

variable {names : String → Prop} {table table' : SchemaTable} {limit limit' : Nat} {candidate : Option Json}

/-- When no reference may be followed any more, a reference asks for nothing. -/
theorem placeChecker_zero (candidate : Option Json) :
    placeChecker table limit 0 candidate =
      violationsAt (fun _ _ => []) (missingFor table limit candidate) (siteOf (checkerOf table limit) candidate) := by
  rw [placeChecker, violationsWithin]

/-- The parts of the candidate are checked alike with both tables and limits. -/
def PartsAgree (names : String → Prop) (table table' : SchemaTable) (limit limit' : Nat)
    (candidate : Option Json) : Prop :=
  ∀ part, candidateSize part < candidateSize candidate → ∀ path schema, schema.RefersOnlyTo names →
    checkerOf table' limit' part path schema = checkerOf table limit part path schema

/-- Following more references finds the same violations if any were found before. The induction is on the
number of references followed at the place. -/
theorem placeChecker_eq_of_ne_nil (hAgree : SchemaTable.AgreeOn names table table')
    (hParts : PartsAgree names table table' limit limit' candidate) {hops hops' : Nat} (hLe : hops ≤ hops')
    {schema : Schema} (hNames : schema.RefersOnlyTo names) {path : Path}
    (hSome : placeChecker table limit hops candidate path schema ≠ []) :
    placeChecker table' limit' hops' candidate path schema =
      placeChecker table limit hops candidate path schema := by
  have hMissing (hPresent : candidate ≠ none) : missingFor table limit candidate = checkerOf table limit none ∧
      missingFor table' limit' candidate = checkerOf table' limit' none :=
    ⟨missingFor_of_ne_none _ _ hPresent, missingFor_of_ne_none _ _ hPresent⟩
  induction hops generalizing hops' schema path with
  | zero =>
      have hNothing (follow' : Path → String → List Violation) (path : Path) (name : String) (_ : names name)
          (hNil : ([] : List Violation) ≠ []) : follow' path name = [] := absurd rfl hNil
      rw [placeChecker_zero] at hSome ⊢
      cases hops' with
      | zero =>
          rw [placeChecker_zero]
          exact violationsAt_eq_of_ne_nil (hNothing _) hMissing hParts hNames hSome
      | succ hops' =>
          rw [placeChecker_succ]
          exact violationsAt_eq_of_ne_nil (hNothing _) hMissing hParts hNames hSome
  | succ hops ih =>
      obtain ⟨hops', rfl⟩ : ∃ fewer, hops' = fewer + 1 := ⟨hops' - 1, by omega⟩
      rw [placeChecker_succ] at hSome ⊢
      rw [placeChecker_succ]
      refine violationsAt_eq_of_ne_nil (fun path name hName hFound => ?_) hMissing hParts hNames hSome
      rw [hAgree.same name hName]
      cases hFind : table.find? name with
      | none => rw [Option.elim_none, Option.elim_none]
      | some target =>
          rw [hFind, Option.elim_some] at hFound
          rw [Option.elim_some, Option.elim_some]
          exact ih (Nat.le_of_succ_le_succ hLe) (hAgree.closed name target hName hFind) hFound

/-- With more references than names, one more makes no difference. -/
theorem AcceptedWithin.succ_of_size_lt {hops : Nat} (hSize : table.size < hops) {schema : Schema}
    (hAccepted : AcceptedWithin table limit hops schema candidate) :
    AcceptedWithin table limit (hops + 1) schema candidate := by
  apply hAccepted.of_targets
  intro name target hFind hTarget
  obtain ⟨hops, rfl⟩ : ∃ fewer, hops = fewer + 1 := ⟨hops - 1, by omega⟩
  exact (settledAt_size candidate).of_le (Nat.le_of_lt_succ hSize) name target hFind hTarget

/-- Beyond the size of the table, following more references refuses nothing more. The induction is on their number. -/
theorem AcceptedWithin.of_size_lt {hops hops' : Nat} (hSize : table.size < hops) (hLe : hops ≤ hops')
    {schema : Schema} (hAccepted : AcceptedWithin table limit hops schema candidate) :
    AcceptedWithin table limit hops' schema candidate := by
  induction hLe with
  | refl => exact hAccepted
  | step hLe ih => exact ih.succ_of_size_lt (Nat.lt_of_lt_of_le hSize hLe)

/-- All numbers of references beyond the number of names give the same report. -/
theorem placeChecker_eq_of_size_lt {hops hops' : Nat} (hSize : table.size < hops) (hLe : hops ≤ hops')
    (path : Path) (schema : Schema) :
    placeChecker table limit hops' candidate path schema = placeChecker table limit hops candidate path schema := by
  have hAccepted (hops : Nat) : placeChecker table limit hops candidate path schema = [] ↔
      AcceptedWithin table limit hops schema candidate :=
    (placeChecker_eq_nil_iff table limit candidate hops path schema).trans
      (acceptedWithin_iff_demands table limit hops schema candidate).symm
  by_cases hNil : placeChecker table limit hops candidate path schema = []
  · rw [hNil, hAccepted]
    exact ((hAccepted hops).mp hNil).of_size_lt hSize hLe
  · have hParts : PartsAgree (fun _ => True) table table limit limit candidate := fun _ _ _ _ _ => rfl
    exact placeChecker_eq_of_ne_nil (SchemaTable.AgreeOn.refl table) hParts hLe (fun _ _ => trivial) hNil

/-- Two tables that agree on the names in reach, with any two limits that are large enough, give the same
report. The induction is on the candidate. -/
theorem checkerOf_eq_of_agreeOn (hAgree : SchemaTable.AgreeOn names table table') (hLimit : table.size ≤ limit)
    (hLimit' : table'.size ≤ limit') {schema : Schema} (hNames : schema.RefersOnlyTo names)
    (candidate : Option Json) (path : Path) :
    checkerOf table' limit' candidate path schema = checkerOf table limit candidate path schema := by
  induction hSize : candidateSize candidate using Nat.strong_induction_on generalizing candidate path schema with
  | _ size ih =>
      subst hSize
      have hParts : PartsAgree names table table' limit limit' candidate :=
        fun part hSmaller path schema hNames => ih _ hSmaller hNames part path rfl
      have hParts' : PartsAgree names table' table limit' limit candidate :=
        fun part hSmaller path schema hNames => (ih _ hSmaller hNames part path rfl).symm
      -- Both reports are those that follow the larger number of references.
      have hFirst : placeChecker table limit (max limit limit' + 1) candidate path schema =
          placeChecker table limit (limit + 1) candidate path schema :=
        placeChecker_eq_of_size_lt (Nat.lt_succ_of_le hLimit)
          (Nat.succ_le_succ (Nat.le_max_left limit limit')) path schema
      have hSecond : placeChecker table' limit' (max limit limit' + 1) candidate path schema =
          placeChecker table' limit' (limit' + 1) candidate path schema :=
        placeChecker_eq_of_size_lt (Nat.lt_succ_of_le hLimit')
          (Nat.succ_le_succ (Nat.le_max_right limit limit')) path schema
      rw [checkerOf_eq_placeChecker, checkerOf_eq_placeChecker, ← hFirst, ← hSecond]
      by_cases hNil : placeChecker table limit (max limit limit' + 1) candidate path schema = []
      · by_contra hOther
        rw [hNil] at hOther
        exact hOther ((placeChecker_eq_of_ne_nil hAgree.symm hParts' (Nat.le_refl _) hNames hOther).symm.trans hNil)
      · exact placeChecker_eq_of_ne_nil hAgree hParts (Nat.le_refl _) hNames hNil

/-- Two tables that agree on the names in reach of a schema give the same report, whatever else they hold. -/
theorem check_eq_of_agreeOn (hAgree : SchemaTable.AgreeOn names table table') {schema : Schema}
    (hNames : schema.RefersOnlyTo names) (candidate : Option Json) :
    check table' schema candidate = check table schema candidate :=
  checkerOf_eq_of_agreeOn hAgree (Nat.le_refl _) (Nat.le_refl _) hNames candidate []

end Limit

end SchemaForge
