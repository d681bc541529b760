import SchemaForge.Proofs.OrderedMap
import SchemaForge.Schema.Check

/-! What a schema asks of a candidate, stated clause by clause without places, messages or bounds. Three
relations stand for the schemas that a clause refers to: those at the same place, those of the parts of a
document, and the targets of references. The main lemma says that checking at one place finds no violation
exactly when these clauses hold. -/
namespace SchemaForge

/-- A relation between schemas and the documents, or the absence, that satisfy them. -/
abbrev Acceptance := Schema → Option Json → Prop

/-- The literal writes the document. Numbers are compared as doubles. -/
def Literal.Denotes : Literal → Json → Prop
  | .text expected, .string actual => expected = actual
  | .number expected, .number actual => actual.toBinary64.sameValue expected = true
  | .bool expected, .bool actual => expected = actual
  | .null, .null => True
  | _, _ => False

/-- The clause of each schema. Schemas that stand at the same place are judged by `here`, those of elements
and members by `parts`, and the target of a reference by `targets`. A reference without a target asks for
nothing. -/
def Demands (table : SchemaTable) (here parts targets : Acceptance) :
    Schema → Option Json → Prop
  | .any, _ => True
  | .optional inner, candidate => candidate = none ∨ here inner candidate
  | .text none, candidate => ∃ value, candidate = some (.string value)
  | .text (some _), candidate => ∃ value, candidate = some (.string value) ∧ value ≠ ""
  | .number, candidate => ∃ value, candidate = some (.number value)
  | .boolean, candidate => ∃ value, candidate = some (.bool value)
  | .dateTime, candidate =>
      ∃ value, candidate = some (.string value) ∧ Text.isDateTime value.toList = true
  | .literal literal, candidate => ∃ document, candidate = some document ∧ literal.Denotes document
  | .enumeration values _, candidate => ∃ value ∈ values, candidate = some (.string value)
  | .record, candidate => ∃ members, candidate = some (.object members)
  | .union options _, candidate => candidate ≠ none ∧ ∃ option ∈ options, here option candidate
  | .array element, candidate =>
      ∃ elements, candidate = some (.array elements) ∧
        ∀ document ∈ elements, parts element (some document)
  | .tuple items rest, candidate =>
      ∃ elements, candidate = some (.array elements) ∧ items.length ≤ elements.length ∧
        (rest = none → elements.length = items.length) ∧
        ∀ (index : Nat) (document : Json) (schema : Schema), elements[index]? = some document →
          items[index]?.or rest = some schema → parts schema (some document)
  | .object fields strict, candidate =>
      ∃ members, candidate = some (.object members) ∧
        (∀ field ∈ fields, parts field.2 (Entries.find? field.1 members)) ∧
        (strict = true → ∀ name ∈ Entries.names members, name ∈ Entries.names fields)
  | .reference name, candidate => ∀ target, table.find? name = some target → targets target candidate

noncomputable def candidateSize : Option Json → Nat
  | none => 0
  | some document => sizeOf document

/-- Absence comes before every document, so missing members are smaller than what they are missing in. -/
theorem candidateSize_none_lt (document : Json) : candidateSize none < candidateSize (some document) := by
  apply Nat.pos_of_ne_zero
  cases document <;> simp [candidateSize]

/-- Elements are smaller than their array, which is what recursion over documents goes by. -/
theorem candidateSize_element_lt {document : Json} {elements : List Json} (hMem : document ∈ elements) :
    candidateSize (some document) < candidateSize (some (.array elements)) := by
  have hSize := List.sizeOf_lt_of_mem hMem
  simp only [candidateSize, Json.array.sizeOf_spec]
  omega

/-- Every member of an object, and the absence of a member, is smaller than the object. -/
theorem candidateSize_member_lt (name : String) (members : Entries Json) :
    candidateSize (members.find? name) < candidateSize (some (.object members)) := by
  cases hFind : members.find? name with
  | none => exact candidateSize_none_lt _
  | some value =>
      have hSize := List.sizeOf_lt_of_mem (Entries.mem_of_find? hFind)
      simp only [candidateSize, Json.object.sizeOf_spec, Prod.mk.sizeOf_spec] at hSize ⊢
      omega

/-- A clause uses the three relations only positively, and only at smaller schemas, at smaller candidates,
and at targets of the table. -/
theorem Demands.mono {table : SchemaTable} {here here' parts parts' targets targets' : Acceptance}
    {schema : Schema} {candidate : Option Json}
    (hHere : ∀ inner, sizeOf inner < sizeOf schema → here inner candidate → here' inner candidate)
    (hParts : ∀ inner part, candidateSize part < candidateSize candidate →
      parts inner part → parts' inner part)
    (hTargets : ∀ name target, table.find? name = some target →
      targets target candidate → targets' target candidate)
    (hDemands : Demands table here parts targets schema candidate) :
    Demands table here' parts' targets' schema candidate := by
  cases schema with
  | any => trivial
  | optional inner =>
      rcases hDemands with hAbsent | hInner
      · exact Or.inl hAbsent
      · refine Or.inr (hHere inner ?_ hInner)
        simp only [Schema.optional.sizeOf_spec]
        omega
  | text required => cases required <;> exact hDemands
  | number => exact hDemands
  | boolean => exact hDemands
  | dateTime => exact hDemands
  | literal value => exact hDemands
  | enumeration values message => exact hDemands
  | record => exact hDemands
  | union options message =>
      obtain ⟨hPresent, option, hMem, hOption⟩ := hDemands
      refine ⟨hPresent, option, hMem, hHere option ?_ hOption⟩
      have hSize := List.sizeOf_lt_of_mem hMem
      simp only [Schema.union.sizeOf_spec]
      omega
  | array element =>
      obtain ⟨elements, rfl, hElements⟩ := hDemands
      refine ⟨elements, rfl, fun document hMem => ?_⟩
      exact hParts element _ (candidateSize_element_lt hMem) (hElements document hMem)
  | tuple items rest =>
      obtain ⟨elements, rfl, hLong, hExact, hElements⟩ := hDemands
      refine ⟨elements, rfl, hLong, hExact, fun index document schema hGet hSchema => ?_⟩
      have hMem := List.mem_of_getElem? hGet
      exact hParts schema _ (candidateSize_element_lt hMem) (hElements index document schema hGet hSchema)
  | object fields strict =>
      obtain ⟨members, rfl, hFields, hStrict⟩ := hDemands
      refine ⟨members, rfl, fun field hMem => ?_, hStrict⟩
      exact hParts field.2 _ (candidateSize_member_lt field.1 members) (hFields field hMem)
  | reference name => exact fun target hFind => hTargets name target hFind (hDemands target hFind)

theorem violationAt_ne_nil (path : Path) (message : String) (kind : ViolationKind) :
    violationAt path message kind ≠ [] := by
  simp [violationAt]

theorem missingAt_ne_nil (path : Path) : missingAt path ≠ [] :=
  violationAt_ne_nil _ _ _

theorem wrongTypeAt_ne_nil {α : Type} (expected : String) (site : Site α) (path : Path) :
    wrongTypeAt expected site path ≠ [] := by
  unfold wrongTypeAt
  split
  · exact missingAt_ne_nil _
  · exact violationAt_ne_nil _ _ _

/-- What stands at the place of a candidate, with the given checkers in place of its parts. -/
def siteOf (checkers : Option Json → Checker) : Option Json → Site Checker
  | none => .absent
  | some .null => .null
  | some (.bool value) => .bool value
  | some (.number value) => .number value
  | some (.string value) => .string value
  | some (.array elements) => .array (elements.map fun document => checkers (some document))
  | some (.object members) => .object (members.map fun member => (member.1, checkers (some member.2)))

@[simp]
theorem isAbsent_siteOf_some (checkers : Option Json → Checker) (document : Json) :
    (siteOf checkers (some document)).isAbsent = false := by
  cases document <;> rfl

/-- A literal matches what stands at a place exactly if it denotes the document there. -/
theorem Literal.matchesSite_siteOf (literal : Literal) (checkers : Option Json → Checker)
    (document : Json) :
    literal.matchesSite (siteOf checkers (some document)) = true ↔ literal.Denotes document := by
  cases literal <;> cases document <;> simp [Literal.matchesSite, siteOf, Literal.Denotes]

theorem acceptedByAny_iff (follow : Path → String → List Violation) (missing : Checker)
    (site : Site Checker) (options : List Schema) :
    acceptedByAny follow missing site options = true ↔
      ∃ option ∈ options, violationsAt follow missing site [] option = [] := by
  induction options with
  | nil => simp [acceptedByAny]
  | cons option rest ih => simp [acceptedByAny, ih]

theorem elementViolations_eq_nil_iff (path : Path) (schemaAt : Nat → Option Schema)
    (elements : List Checker) :
    elementViolations path schemaAt elements = [] ↔
      ∀ (index : Nat) (checker : Checker) (schema : Schema), elements[index]? = some checker →
        schemaAt index = some schema → checker (path ++ [toString index]) schema = [] := by
  simp only [elementViolations, List.flatMap_eq_nil_iff, Prod.forall, List.mem_zipIdx_iff_getElem?]
  constructor
  · intro hAll index checker schema hGet hSchema
    have hNone := hAll checker index hGet
    rw [hSchema] at hNone
    exact hNone
  · intro hAll checker index hGet
    cases hSchema : schemaAt index with
    | none => rfl
    | some schema => exact hAll index checker schema hGet hSchema

/-- All members are known exactly if each has a field. -/
theorem unknownKeysAt_eq_nil_iff {α : Type} (fields : Entries Schema) (members : Entries α)
    (path : Path) :
    unknownKeysAt fields members path = [] ↔ ∀ name ∈ members.names, name ∈ fields.names := by
  have hFilter : members.names.filter (fun name => !fields.has name) = [] ↔
      ∀ name ∈ members.names, name ∈ fields.names := by
    simp [List.filter_eq_nil_iff, Entries.has_iff]
  rw [← hFilter, unknownKeysAt]
  by_cases hUnknown : members.names.filter (fun name => !fields.has name) = []
  · simp [hUnknown]
  · simp [hUnknown, violationAt_ne_nil]

/-- The violations of the declared fields, each found by the checker of its member or of the absence of
its member. -/
theorem fieldViolations_eq_flatMap {missing : Checker} {checkers : Option Json → Checker}
    (hMissing : missing = checkers none) (path : Path) (fields : Entries Schema) (members : Entries Json) :
    fieldViolations missing path fields
        (members.map fun member => (member.1, checkers (some member.2))) =
      fields.flatMap fun field => checkers (members.find? field.1) (path ++ [field.1]) field.2 := by
  have hChecker (name : String) :
      (Entries.find? name (members.map fun member => (member.1, checkers (some member.2)))).getD missing =
        checkers (members.find? name) := by
    rw [Entries.find?_mapValues (fun document => checkers (some document)), hMissing]
    cases members.find? name <;> rfl
  simp only [fieldViolations, hChecker]

section Place

variable {table : SchemaTable} {follow : Path → String → List Violation} {missing : Checker}
  {checkers : Option Json → Checker} {parts targets : Acceptance} {candidate : Option Json}

/-- The schemas without a violation at the start of a path. -/
def AcceptedHere (follow : Path → String → List Violation) (missing : Checker)
    (checkers : Option Json → Checker) : Acceptance :=
  fun schema candidate => violationsAt follow missing (siteOf checkers candidate) [] schema = []

/-- The elements of an array have no violation exactly when their schemas accept them. -/
theorem elementViolations_iff_parts {elements : List Json}
    (hParts : ∀ part, candidateSize part < candidateSize (some (.array elements)) →
      ∀ path schema, checkers part path schema = [] ↔ parts schema part)
    (path : Path) (schemaAt : Nat → Option Schema) :
    elementViolations path schemaAt (elements.map fun document => checkers (some document)) = [] ↔
      ∀ (index : Nat) (document : Json) (schema : Schema), elements[index]? = some document →
        schemaAt index = some schema → parts schema (some document) := by
  have hPart {index : Nat} {document : Json} (hGet : elements[index]? = some document) :=
    hParts (some document) (candidateSize_element_lt (List.mem_of_getElem? hGet))
  rw [elementViolations_eq_nil_iff]
  constructor
  · intro hAll index document schema hGet hSchema
    refine (hPart hGet _ schema).mp (hAll index _ schema ?_ hSchema)
    rw [List.getElem?_map, hGet]
    rfl
  · intro hAll index checker schema hGet hSchema
    rw [List.getElem?_map, Option.map_eq_some_iff] at hGet
    obtain ⟨document, hGet, rfl⟩ := hGet
    exact (hPart hGet _ schema).mpr (hAll index document schema hGet hSchema)

section Parts

variable (hParts : ∀ part, candidateSize part < candidateSize candidate →
  ∀ path schema, checkers part path schema = [] ↔ parts schema part)

include hParts

/-- A candidate is asked to be an array whose elements satisfy the schema of elements. -/
theorem violationsAt_array_iff (element : Schema) (path : Path) :
    violationsAt follow missing (siteOf checkers candidate) path (.array element) = [] ↔
      Demands table (AcceptedHere follow missing checkers) parts targets (.array element) candidate := by
  rcases candidate with _ | document
  · simp [violationsAt, Demands, siteOf, wrongTypeAt_ne_nil]
  cases document with
  | array elements =>
      have hElements := elementViolations_iff_parts hParts path fun _ => some element
      simp only [violationsAt, siteOf, hElements, Demands]
      constructor
      · intro hAll
        refine ⟨elements, rfl, fun document hMem => ?_⟩
        obtain ⟨index, hGet⟩ := List.mem_iff_getElem?.mp hMem
        exact hAll index document element hGet rfl
      · rintro ⟨_, ⟨⟩, hAll⟩ index document schema hGet ⟨⟩
        exact hAll document (List.mem_of_getElem? hGet)
  | _ => simp [violationsAt, Demands, siteOf, wrongTypeAt_ne_nil]

/-- The length is checked before the elements, so a wrong length is the only violation found. -/
theorem violationsAt_tuple_iff (items : List Schema) (rest : Option Schema) (path : Path) :
    violationsAt follow missing (siteOf checkers candidate) path (.tuple items rest) = [] ↔
      Demands table (AcceptedHere follow missing checkers) parts targets (.tuple items rest) candidate := by
  rcases candidate with _ | document
  · simp [violationsAt, Demands, siteOf, wrongTypeAt_ne_nil]
  cases document with
  | array elements =>
      have hElements := elementViolations_iff_parts hParts path fun index => items[index]?.or rest
      simp only [violationsAt, siteOf, List.length_map, Demands]
      by_cases hShort : elements.length < items.length
      · rw [if_pos hShort]
        refine ⟨fun hNil => absurd hNil (violationAt_ne_nil _ _ _), ?_⟩
        rintro ⟨_, ⟨⟩, hEnough, -⟩
        omega
      rw [if_neg hShort]
      by_cases hLong : rest = none ∧ items.length < elements.length
      · obtain ⟨rfl, hLong⟩ := hLong
        rw [if_pos (by simpa using hLong)]
        refine ⟨fun hNil => absurd hNil (violationAt_ne_nil _ _ _), ?_⟩
        rintro ⟨_, ⟨⟩, -, hExact, -⟩
        have hSame := hExact rfl
        omega
      · have hExact : rest = none → elements.length = items.length := fun hRest => by
          have hNotLong : ¬ items.length < elements.length := fun h => hLong ⟨hRest, h⟩
          omega
        rw [if_neg (by simpa using hLong), hElements]
        constructor
        · exact fun hAll => ⟨elements, rfl, Nat.le_of_not_lt hShort, hExact, hAll⟩
        · rintro ⟨_, ⟨⟩, -, -, hAll⟩
          exact hAll
  | _ => simp [violationsAt, Demands, siteOf, wrongTypeAt_ne_nil]

/-- A candidate is asked to be an object with its fields, and without others if it is strict. -/
theorem violationsAt_object_iff (hMissing : candidate ≠ none → missing = checkers none)
    (fields : Entries Schema) (strict : Bool) (path : Path) :
    violationsAt follow missing (siteOf checkers candidate) path (.object fields strict) = [] ↔
      Demands table (AcceptedHere follow missing checkers) parts targets (.object fields strict) candidate := by
  rcases candidate with _ | document
  · simp [violationsAt, Demands, siteOf, wrongTypeAt_ne_nil]
  cases document with
  | object members =>
      have hFields := fieldViolations_eq_flatMap (hMissing (by simp)) path fields members
      have hMembers (field : String × Schema) :
          checkers (Entries.find? field.1 members) (path ++ [field.1]) field.2 = [] ↔
            parts field.2 (Entries.find? field.1 members) :=
        hParts _ (candidateSize_member_lt field.1 members) _ _
      have hKeys := Entries.names_mapValues (fun document => checkers (some document)) members
      cases strict <;>
        simp [violationsAt, siteOf, Demands, hFields, hMembers, unknownKeysAt_eq_nil_iff, hKeys]
  | _ => simp [violationsAt, Demands, siteOf, wrongTypeAt_ne_nil]

end Parts

/-- Checking at one place finds nothing exactly when the clause of the schema holds, whatever path leads
to the place. The hypotheses say the same of the references followed and of the checkers of the parts. -/
theorem violationsAt_eq_nil_iff
    (hFollow : ∀ path name, follow path name = [] ↔
      ∀ target, table.find? name = some target → targets target candidate)
    (hMissing : candidate ≠ none → missing = checkers none)
    (hParts : ∀ part, candidateSize part < candidateSize candidate →
      ∀ path schema, checkers part path schema = [] ↔ parts schema part) :
    ∀ (schema : Schema) (path : Path),
      violationsAt follow missing (siteOf checkers candidate) path schema = [] ↔
        Demands table (AcceptedHere follow missing checkers) parts targets schema candidate
  | .any, path => by simp [violationsAt, Demands]
  | .optional inner, path => by
      -- The only clause that keeps the path, so it is the only one that needs the statement for another path.
      have hPath := violationsAt_eq_nil_iff hFollow hMissing hParts inner path
      have hRoot := violationsAt_eq_nil_iff hFollow hMissing hParts inner []
      cases candidate with
      | none => simp [violationsAt, Demands, siteOf, Site.isAbsent]
      | some document =>
          have hSame := hPath.trans hRoot.symm
          simp [violationsAt, Demands, AcceptedHere, hSame]
  | .text required, path => by
      rcases candidate with _ | document
      · cases required <;>
          simp [violationsAt, Demands, siteOf, violationAt_ne_nil, wrongTypeAt_ne_nil]
      · cases required <;> cases document <;>
          simp [violationsAt, Demands, siteOf, violationAt_ne_nil, wrongTypeAt_ne_nil]
  | .number, path => by
      rcases candidate with _ | document
      · simp [violationsAt, Demands, siteOf, wrongTypeAt_ne_nil]
      · cases document <;> simp [violationsAt, Demands, siteOf, wrongTypeAt_ne_nil]
  | .boolean, path => by
      rcases candidate with _ | document
      · simp [violationsAt, Demands, siteOf, wrongTypeAt_ne_nil]
      · cases document <;> simp [violationsAt, Demands, siteOf, wrongTypeAt_ne_nil]
  | .dateTime, path => by
      rcases candidate with _ | document
      · simp [violationsAt, Demands, siteOf, wrongTypeAt_ne_nil]
      · cases document <;>
          simp [violationsAt, Demands, siteOf, wrongTypeAt_ne_nil, violationAt_ne_nil]
  | .literal value, path => by
      cases candidate with
      | none => simp [violationsAt, Demands, siteOf, Site.isAbsent, missingAt_ne_nil]
      | some document =>
          have hMatch := value.matchesSite_siteOf checkers document
          simp [violationsAt, Demands, hMatch, violationAt_ne_nil]
  | .enumeration values message, path => by
      rcases candidate with _ | document
      · simp [violationsAt, Demands, siteOf, violationAt_ne_nil]
      · cases document <;> simp [violationsAt, Demands, siteOf, violationAt_ne_nil]
  | .union options message, path => by
      have hAny := acceptedByAny_iff follow missing (siteOf checkers candidate) options
      cases candidate with
      | none => simp [violationsAt, Demands, siteOf, Site.isAbsent, missingAt_ne_nil]
      | some document =>
          simp [violationsAt, Demands, AcceptedHere, hAny, violationAt_ne_nil]
  | .array element, path => violationsAt_array_iff hParts element path
  | .tuple items rest, path => violationsAt_tuple_iff hParts items rest path
  | .object fields strict, path => violationsAt_object_iff hParts hMissing fields strict path
  | .record, path => by
      rcases candidate with _ | document
      · simp [violationsAt, Demands, siteOf, wrongTypeAt_ne_nil]
      · cases document <;> simp [violationsAt, Demands, siteOf, wrongTypeAt_ne_nil]
  | .reference name, path => by
      simp [violationsAt, Demands, hFollow]

end Place

end SchemaForge
