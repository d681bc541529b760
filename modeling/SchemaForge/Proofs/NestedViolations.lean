import SchemaForge.Artifacts
import SchemaForge.Proofs.CheckingWalk
import SchemaForge.Proofs.ViolationPlaces

/-! What is found in a part of a document is what is found in the part alone, with the path to the part in front of
each field. A field is a text, so the empty name would be lost in it: it is asked of no field to have it. A reference
finds what its target finds, although one reference less can be followed from there. -/
namespace SchemaForge

namespace Schema

/-- No object in the schema has a field with the empty name. -/
def FieldsNamed (schema : Schema) : Prop :=
  ∀ names ∈ schema.fieldNames, "" ∉ names

instance (schema : Schema) : Decidable schema.FieldsNamed :=
  inferInstanceAs (Decidable (∀ names ∈ schema.fieldNames, "" ∉ names))

theorem FieldsNamed.of_subset {schema part : Schema} (hNamed : schema.FieldsNamed)
    (hSubset : part.fieldNames ⊆ schema.fieldNames) : part.FieldsNamed :=
  fun names hMem => hNamed names (hSubset hMem)

theorem FieldsNamed.ne_empty {fields : Entries Schema} {strict : Bool} (hNamed : (object fields strict).FieldsNamed)
    {field : String × Schema} (hMem : field ∈ fields) : field.1 ≠ "" := by
  have hNames : fields.map Prod.fst ∈ (object fields strict).fieldNames := by
    rw [fieldNames]
    exact List.mem_cons_self
  intro hEmpty
  exact hNamed _ hNames (hEmpty ▸ List.mem_map_of_mem hMem)

end Schema

def SchemaTable.FieldsNamed (table : SchemaTable) : Prop :=
  ∀ entry ∈ table.entries, entry.2.FieldsNamed

theorem SchemaTable.FieldsNamed.of_find? {table : SchemaTable} (hTable : table.FieldsNamed) {name : String}
    {target : Schema} (hFind : table.find? name = some target) : target.FieldsNamed :=
  hTable (name, target) ((table.mem_entries_iff_find? name target).mpr hFind)

/-- The violation of a part as one of the whole: the path to the part stands before its field, or alone if it is the
part itself. -/
def Violation.below (path : Path) (violation : Violation) : Violation :=
  { violation with
    field :=
      if violation.field = "" then ".".intercalate path else ".".intercalate path ++ "." ++ violation.field }

/-- Going down in two steps. The name must not be empty, since a part whose field is empty is taken for the whole. -/
theorem Violation.below_below {path : Path} (hPath : path ≠ []) {name : String} (hName : name ≠ "")
    (violation : Violation) : (violation.below [name]).below path = violation.below (path ++ [name]) := by
  have hJoin : ".".intercalate (path ++ [name]) = ".".intercalate path ++ "." ++ name := by
    rw [String.intercalate_append_of_ne_nil hPath (by simp), String.intercalate_singleton]
  by_cases hField : violation.field = ""
  · simp [below, hField, hName, hJoin]
  · simp [below, hField, hName, hJoin, String.append_assoc]

/-- Below every path the same violations are found as at its start, with the path in front of them. -/
def Relocates (report : Path → List Violation) : Prop :=
  ∀ path, path ≠ [] → report path = (report []).map (Violation.below path)

namespace Relocates

theorem nil : Relocates fun _ => [] :=
  fun _ _ => rfl

/-- A violation at the end of a path is one at the start with the path in front. -/
theorem violationAt (message : String) (kind : ViolationKind) :
    Relocates fun path => SchemaForge.violationAt path message kind := by
  intro path _
  simp [SchemaForge.violationAt, Violation.below]

theorem ite {condition : Prop} [Decidable condition] {report report' : Path → List Violation}
    (hReport : Relocates report) (hReport' : Relocates report') :
    Relocates fun path => if condition then report path else report' path := by
  split
  · exact hReport
  · exact hReport'

/-- Reports that can be moved can be moved one after the other. -/
theorem append {report report' : Path → List Violation} (hReport : Relocates report) (hReport' : Relocates report') :
    Relocates fun path => report path ++ report' path := by
  intro path hPath
  show report path ++ report' path = (report [] ++ report' []).map (Violation.below path)
  rw [List.map_append, hReport path hPath, hReport' path hPath]

theorem flatMap {β : Type} {items : List β} {report : β → Path → List Violation}
    (hReports : ∀ item ∈ items, Relocates (report item)) :
    Relocates fun path => items.flatMap fun item => report item path := by
  intro path hPath
  rw [List.map_flatMap]
  exact List.flatMap_congr fun item hMem => hReports item hMem path hPath

/-- What is found in a part with a name is found below the path to the whole. -/
theorem part {report : Path → List Violation} (hReport : Relocates report) {name : String} (hName : name ≠ "") :
    Relocates fun path => report (path ++ [name]) := by
  intro path hPath
  calc report (path ++ [name])
      = (report []).map (Violation.below (path ++ [name])) := hReport _ (by simp)
    _ = ((report []).map (Violation.below [name])).map (Violation.below path) := by
        rw [List.map_map]
        exact List.map_congr_left fun violation _ => (violation.below_below hPath hName).symm
    _ = (report ([] ++ [name])).map (Violation.below path) := by rw [List.nil_append, hReport [name] (by simp)]

theorem wrongTypeAt {α : Type} (expected : String) (site : Site α) :
    Relocates fun path => SchemaForge.wrongTypeAt expected site path :=
  ite (violationAt _ _) (violationAt _ _)

end Relocates

section Place

variable {follow : Path → String → List Violation} {missing : Checker} {checkers : Option Json → Checker}
  {candidate : Option Json}

section Parts

variable (hParts : ∀ part, candidateSize part < candidateSize candidate → ∀ schema, schema.FieldsNamed →
  Relocates fun path => checkers part path schema)

include hParts

/-- The elements are parts with indices as names, which are not empty. -/
theorem relocates_elementViolations {elements : List Json} (hCandidate : candidate = some (.array elements))
    {schemaAt : Nat → Option Schema} (hNamed : ∀ index schema, schemaAt index = some schema → schema.FieldsNamed) :
    Relocates fun path =>
      elementViolations path schemaAt (elements.map fun document => checkers (some document)) := by
  subst hCandidate
  simp only [elementViolations_eq_flatMap]
  refine Relocates.flatMap fun element hMem => ?_
  cases hSchema : schemaAt element.2 with
  | none => exact .nil
  | some schema =>
      have hSmaller := candidateSize_element_lt (List.fst_mem_of_mem_zipIdx hMem)
      exact (hParts _ hSmaller schema (hNamed _ schema hSchema)).part (isPlainName_toString element.2).1

/-- What is no array is reported at the place itself, and the elements below it. -/
theorem relocates_array {element : Schema} (hNamed : element.FieldsNamed) :
    Relocates fun path => violationsAt follow missing (siteOf checkers candidate) path (.array element) := by
  rcases candidate with _ | document
  · exact .wrongTypeAt "array" _
  cases document with
  | array elements =>
      simp only [violationsAt, siteOf]
      refine relocates_elementViolations hParts rfl ?_
      rintro index schema ⟨⟩
      exact hNamed
  | _ => exact .wrongTypeAt "array" _

/-- A wrong length is reported at the place itself, and the elements below it. -/
theorem relocates_tuple {items : List Schema} {rest : Option Schema}
    (hNamed : (Schema.tuple items rest).FieldsNamed) :
    Relocates fun path => violationsAt follow missing (siteOf checkers candidate) path (.tuple items rest) := by
  rcases candidate with _ | document
  · exact .wrongTypeAt "array" _
  cases document with
  | array elements =>
      simp only [violationsAt, siteOf]
      refine .ite (.violationAt _ _) (.ite (.violationAt _ _) (relocates_elementViolations hParts rfl ?_))
      exact fun index schema hSchema => hNamed.of_subset (Schema.fieldNames_subset_tuple hSchema)
  | _ => exact .wrongTypeAt "array" _

/-- The fields are parts with names that are not empty; unknown keys are reported at the place itself. -/
theorem relocates_object (hMissing : candidate ≠ none → missing = checkers none) {fields : Entries Schema}
    {strict : Bool} (hNamed : (Schema.object fields strict).FieldsNamed) :
    Relocates fun path => violationsAt follow missing (siteOf checkers candidate) path (.object fields strict) := by
  rcases candidate with _ | document
  · exact .wrongTypeAt "object" _
  cases document with
  | object members =>
      simp only [violationsAt, siteOf, fieldViolations_eq_flatMap (hMissing (by simp)), unknownKeysAt]
      refine .append (.flatMap fun field hMem => ?_) (.ite (.ite .nil (.violationAt _ _)) .nil)
      have hField := hParts _ (candidateSize_member_lt field.1 members) field.2
        (hNamed.of_subset (Schema.fieldNames_subset_object hMem strict))
      exact hField.part (hNamed.ne_empty hMem)
  | _ => exact .wrongTypeAt "object" _

end Parts

/-- At one place the path only comes before what is found, if that is so of the references followed and of the
parts. -/
theorem relocates_violationsAt (hFollow : ∀ name, Relocates fun path => follow path name)
    (hMissing : candidate ≠ none → missing = checkers none)
    (hParts : ∀ part, candidateSize part < candidateSize candidate → ∀ schema, schema.FieldsNamed →
      Relocates fun path => checkers part path schema)
    {schema : Schema} (hNamed : schema.FieldsNamed) :
    Relocates fun path => violationsAt follow missing (siteOf checkers candidate) path schema := by
  induction schema using Schema.induction_parts with
  | any => exact .nil
  | array element => exact relocates_array hParts hNamed
  | tuple items rest => exact relocates_tuple hParts hNamed
  | object fields strict => exact relocates_object hParts hMissing hNamed
  | reference name => exact hFollow name
  | optional inner ih => exact .ite .nil (ih hNamed)
  | union options message =>
      simp only [violationsAt]
      exact .ite (.violationAt _ _) (.ite .nil (.violationAt _ _))
  | literal value =>
      simp only [violationsAt]
      exact .ite (.violationAt _ _) (.ite .nil (.violationAt _ _))
  | text required =>
      cases required with
      | none =>
        cases siteOf checkers candidate with
        | string value => exact .nil
        | _ => exact .wrongTypeAt "string" _
      | some message =>
        cases siteOf checkers candidate with
        | string value =>
            simp only [violationsAt]
            exact .ite (.violationAt _ _) .nil
        | absent => exact .violationAt _ _
        | _ => exact .wrongTypeAt "string" _
  | number =>
      cases siteOf checkers candidate with
      | number value => exact .nil
      | _ => exact .wrongTypeAt "number" _
  | boolean =>
      cases siteOf checkers candidate with
      | bool value => exact .nil
      | _ => exact .wrongTypeAt "boolean" _
  | dateTime =>
      cases siteOf checkers candidate with
      | string value => exact .ite .nil (.violationAt _ _)
      | _ => exact .wrongTypeAt "string" _
  | enumeration values message =>
      cases siteOf checkers candidate with
      | string value => exact .ite .nil (.violationAt _ _)
      | _ => exact .violationAt _ _
  | record =>
      cases siteOf checkers candidate with
      | object members => exact .nil
      | _ => exact .wrongTypeAt "object" _

end Place

section Checkers

variable {table : SchemaTable}

/-- The outer induction is on the candidate, the inner one on the number of references that are followed at its own
place. -/
theorem relocates_placeChecker (hTable : table.FieldsNamed) (limit hops : Nat) (candidate : Option Json)
    {schema : Schema} (hNamed : schema.FieldsNamed) :
    Relocates fun path => placeChecker table limit hops candidate path schema := by
  induction hSize : candidateSize candidate using Nat.strong_induction_on generalizing candidate hops schema with
  | _ size ih =>
      subst hSize
      have hParts : ∀ part, candidateSize part < candidateSize candidate → ∀ schema, schema.FieldsNamed →
          Relocates fun path => checkerOf table limit part path schema := by
        intro part hSmaller schema hNamed
        rw [checkerOf_eq_placeChecker]
        exact ih _ hSmaller (limit + 1) part hNamed rfl
      induction hops generalizing schema with
      | zero =>
          rw [placeChecker_zero]
          exact relocates_violationsAt (fun _ => .nil) (missingFor_of_ne_none table limit) hParts hNamed
      | succ hops ihHops =>
          rw [placeChecker_succ]
          refine relocates_violationsAt (fun name => ?_) (missingFor_of_ne_none table limit) hParts hNamed
          cases hFind : table.find? name with
          | none => exact .nil
          | some target => exact ihHops (hTable.of_find? hFind)

/-- A reference reports what its target reports. One reference less can be followed from there, which makes no
difference: if nothing is found, nothing is found with one more, and what is found stays. -/
theorem check_reference {name : String} {target : Schema} (hFind : table.find? name = some target)
    (candidate : Option Json) : check table (.reference name) candidate = check table target candidate := by
  have hFollowed : check table (.reference name) candidate =
      placeChecker table table.size table.size candidate [] target := by
    rw [check, checkerOf_eq_placeChecker, placeChecker_succ, violationsAt, hFind, Option.elim_some]
  rw [hFollowed, check, checkerOf_eq_placeChecker]
  by_cases hNil : placeChecker table table.size table.size candidate [] target = []
  · rw [hNil]
    exact (settledAt_size candidate name target hFind hNil).symm
  · have hParts : PartsAgree (fun _ => True) table table table.size table.size candidate := fun _ _ _ _ _ => rfl
    exact (placeChecker_eq_of_ne_nil (SchemaTable.AgreeOn.refl table) hParts (Nat.le_succ _) (fun _ _ => trivial)
      hNil).symm

/-- For every table, schema and candidate: a walk that comes to a part with nothing followed yet records what the check
of the part alone reports, in the same order and with the path to the part in front of each field, behind what was
recorded before, and ends where it began. A reference reports what the schema of its type reports, hence what the type
itself is told to have violated. -/
theorem visit_records_check_below (hTable : table.FieldsNamed) {schema : Schema} (hSchema : schema.FieldsNamed)
    (candidate : Option Json) :
    (∀ (path : Path) (earlier : List Violation), path ≠ [] →
      Walk.visit table schema candidate ⟨path, earlier, 0⟩ =
        ⟨path, earlier ++ (check table schema candidate).map (Violation.below path), 0⟩) ∧
    (∀ earlier : List Violation,
      Walk.visit table schema candidate ⟨[], earlier, 0⟩ = ⟨[], earlier ++ check table schema candidate, 0⟩) ∧
    (∀ path : Path, path ≠ [] →
      checkerOf table table.size candidate path schema =
        (check table schema candidate).map (Violation.below path)) ∧
    (∀ (name : String) (target : Schema), table.find? name = some target →
      check table (.reference name) candidate = check table target candidate) ∧
    ∀ (artifacts : Artifacts) (name : String) (target : Schema) (document : Json),
      artifacts.schemas = table → table.find? name = some target →
        check table (.reference name) (some document) = artifacts.violations name document := by
  have hVisit (path : Path) (earlier : List Violation) : Walk.visit table schema candidate ⟨path, earlier, 0⟩ =
      ⟨path, earlier ++ checkerOf table table.size candidate path schema, 0⟩ := by
    rw [Walk.visit_eq_record_placeChecker, checkerOf_eq_placeChecker]
    rfl
  have hBelow (path : Path) (hPath : path ≠ []) : checkerOf table table.size candidate path schema =
      (check table schema candidate).map (Violation.below path) := by
    rw [check, checkerOf_eq_placeChecker]
    exact relocates_placeChecker hTable _ _ candidate hSchema path hPath
  refine ⟨fun path earlier hPath => ?_, hVisit [], hBelow, fun name target hFind => ?_, ?_⟩
  · rw [hVisit, hBelow path hPath]
  · exact check_reference hFind candidate
  · rintro artifacts name target document rfl hFind
    rw [check_reference hFind, Artifacts.violations, hFind]

/-- A folder in the second place of a list: its missing kind, an element that is no folder and an unknown member are
recorded below the path to it, behind what was recorded before. -/
theorem visit_records_check_below_folders :
    let folder : Schema := .object [("kind", .enumeration ["open", "closed"] "Unknown kind"),
      ("folders", .array (.reference "Folder"))] true
    let table : SchemaTable := OrderedMap.ofList [("Folder", folder)]
    let document : Json := .object [("size", .null), ("folders", .array [.bool true])]
    let earlier : List Violation := [⟨"title", "Required", .required⟩]
    table.FieldsNamed ∧ (Schema.reference "Folder").FieldsNamed ∧ table.find? "Folder" = some folder ∧
      check table folder (some document) =
        [⟨"kind", "Unknown kind", .notEnumerated⟩, ⟨"folders.0", "Expected object, received boolean", .wrongType⟩,
          ⟨"", "Unrecognized key(s) in object: 'size'", .unknownKeys⟩] ∧
      Walk.visit table (.reference "Folder") (some document) ⟨["folders", "1"], earlier, 0⟩ =
        ⟨["folders", "1"],
          [⟨"title", "Required", .required⟩, ⟨"folders.1.kind", "Unknown kind", .notEnumerated⟩,
            ⟨"folders.1.folders.0", "Expected object, received boolean", .wrongType⟩,
            ⟨"folders.1", "Unrecognized key(s) in object: 'size'", .unknownKeys⟩], 0⟩ := by
  intro folder table document earlier
  have hTable : table.FieldsNamed := by
    intro entry hMem
    obtain rfl := List.mem_singleton.mp hMem
    decide
  have hReference : (Schema.reference "Folder").FieldsNamed := by decide
  have hFind : table.find? "Folder" = some folder := rfl
  have hFolder : check table folder (some document) =
      [⟨"kind", "Unknown kind", .notEnumerated⟩, ⟨"folders.0", "Expected object, received boolean", .wrongType⟩,
        ⟨"", "Unrecognized key(s) in object: 'size'", .unknownKeys⟩] := by decide +kernel
  obtain ⟨hVisit, -, -, hTarget, -⟩ := visit_records_check_below hTable hReference (some document)
  refine ⟨hTable, hReference, hFind, hFolder, ?_⟩
  rw [hVisit ["folders", "1"] earlier (by simp), hTarget "Folder" folder hFind, hFolder]
  rfl

end Checkers

end SchemaForge
