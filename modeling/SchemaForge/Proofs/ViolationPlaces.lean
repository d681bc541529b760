import Mathlib.Data.List.Forall2
import SchemaForge.Proofs.DocumentPaths
import SchemaForge.Proofs.ReportedViolations

/-! Every violation has a place of its own in the document. The places of the violations that a checker finds are
paths from the part that it checks, and no two of them are the same: parts have different names, and what is found at
a part itself is found alone or, for unknown members, in addition to what is found below it. -/
namespace SchemaForge

namespace Schema

mutual

def fieldNames : Schema → List (List String)
  | .object fields _ => fields.map Prod.fst :: fieldNamesOfFields fields
  | .array element => element.fieldNames
  | .optional inner => inner.fieldNames
  | .union options _ => fieldNamesOfAll options
  | .tuple items rest =>
      fieldNamesOfAll items ++ (match rest with
        | none => []
        | some schema => schema.fieldNames)
  | .text _ => []
  | .number => []
  | .boolean => []
  | .dateTime => []
  | .literal _ => []
  | .enumeration _ _ => []
  | .record => []
  | .reference _ => []
  | .any => []

def fieldNamesOfAll : List Schema → List (List String)
  | [] => []
  | schema :: rest => schema.fieldNames ++ fieldNamesOfAll rest

def fieldNamesOfFields : List (String × Schema) → List (List String)
  | [] => []
  | (_, schema) :: rest => schema.fieldNames ++ fieldNamesOfFields rest

end

/-- No object in the schema has two fields with the same name, as it is where fields are kept in a map. -/
def FieldsDistinct (schema : Schema) : Prop :=
  ∀ names ∈ schema.fieldNames, names.Nodup

/-- No object in the schema has a field whose name is empty or contains a dot. -/
def FieldsPlain (schema : Schema) : Prop :=
  ∀ names ∈ schema.fieldNames, ∀ name ∈ names, IsPlainName name

/-- The names of the fields of every object in the schema are different and plain. -/
def WellNamed (schema : Schema) : Prop :=
  schema.FieldsDistinct ∧ schema.FieldsPlain

instance (schema : Schema) : Decidable schema.WellNamed :=
  inferInstanceAs (Decidable
    ((∀ names ∈ schema.fieldNames, names.Nodup) ∧ ∀ names ∈ schema.fieldNames, ∀ name ∈ names, IsPlainName name))

theorem fieldNames_subset_ofAll {schema : Schema} {schemas : List Schema} (hMem : schema ∈ schemas) :
    schema.fieldNames ⊆ fieldNamesOfAll schemas := by
  induction schemas with
  | nil => cases hMem
  | cons first rest ih =>
      rw [fieldNamesOfAll]
      rcases List.mem_cons.mp hMem with rfl | hRest
      · exact List.subset_append_left _ _
      · exact List.subset_append_of_subset_right _ (ih hRest)

theorem fieldNames_subset_ofFields {field : String × Schema} {fields : List (String × Schema)}
    (hMem : field ∈ fields) : field.2.fieldNames ⊆ fieldNamesOfFields fields := by
  induction fields with
  | nil => cases hMem
  | cons first rest ih =>
      rw [fieldNamesOfFields]
      rcases List.mem_cons.mp hMem with rfl | hRest
      · exact List.subset_append_left _ _
      · exact List.subset_append_of_subset_right _ (ih hRest)

theorem fieldNames_subset_object {field : String × Schema} {fields : Entries Schema} (hMem : field ∈ fields)
    (strict : Bool) : field.2.fieldNames ⊆ (object fields strict).fieldNames := by
  rw [fieldNames]
  exact List.subset_cons_of_subset _ (fieldNames_subset_ofFields hMem)

/-- The schema of an element is one of the items or the rest. -/
theorem fieldNames_subset_tuple {items : List Schema} {rest : Option Schema} {index : Nat} {schema : Schema}
    (hSchema : items[index]?.or rest = some schema) : schema.fieldNames ⊆ (tuple items rest).fieldNames := by
  rcases Option.or_eq_some_iff.mp hSchema with hItem | ⟨-, rfl⟩
  · rw [fieldNames.eq_def (tuple items rest)]
    exact List.subset_append_of_subset_left _ (fieldNames_subset_ofAll (List.mem_of_getElem? hItem))
  · rw [fieldNames.eq_def (tuple items (some schema))]
    exact List.subset_append_right _ _

/-- Parts of a schema have no other objects than the schema. -/
theorem WellNamed.of_subset {schema part : Schema} (hNamed : schema.WellNamed)
    (hSubset : part.fieldNames ⊆ schema.fieldNames) : part.WellNamed :=
  ⟨fun names hMem => hNamed.1 names (hSubset hMem), fun names hMem => hNamed.2 names (hSubset hMem)⟩

theorem WellNamed.field {fields : Entries Schema} {strict : Bool} (hNamed : (object fields strict).WellNamed)
    {field : String × Schema} (hMem : field ∈ fields) : field.2.WellNamed :=
  hNamed.of_subset (fieldNames_subset_object hMem strict)

theorem WellNamed.element {items : List Schema} {rest : Option Schema} (hNamed : (tuple items rest).WellNamed)
    {index : Nat} {schema : Schema} (hSchema : items[index]?.or rest = some schema) : schema.WellNamed :=
  hNamed.of_subset (fieldNames_subset_tuple hSchema)

end Schema

/-- A violation stands at a place, which is given by the path from a part of the document to it. The path to the part
comes before it in the field. All names but the last lead on, and nothing is there exactly if something is missing,
except that a missing alternative is reported like a wrong one. -/
structure Violation.StandsAt (candidate : Option Json) (path place : Path) (violation : Violation) : Prop where
  field : violation.field = ".".intercalate (path ++ place)
  plain : ∀ name ∈ place, IsPlainName name
  held : place ≠ [] → (candidate.bind (Json.walk? place.dropLast)).isSome = true
  missing : violation.kind = .required → candidate.bind (Json.walk? place) = none
  required : candidate.bind (Json.walk? place) = none →
    violation.kind = .required ∨ violation.kind = .notEnumerated

def Spread (candidate : Option Json) (path : Path) (violations : List Violation) : Prop :=
  ∃ places : List Path, List.Forall₂ (Violation.StandsAt candidate path) places violations ∧ places.Nodup

section Rules

variable {candidate : Option Json} {path : Path} {document : Json}

/-- What stands somewhere in a part stands in the whole, with the name of the part in front. -/
theorem Violation.StandsAt.of_part {name : String} (hName : IsPlainName name) {place : Path} {violation : Violation}
    (hStands : violation.StandsAt (document.part? name) (path ++ [name]) place) :
    violation.StandsAt (some document) path (name :: place) where
  field := by rw [hStands.field, List.append_assoc, List.singleton_append]
  plain := List.forall_mem_cons.mpr ⟨hName, hStands.plain⟩
  held _ := by
    cases place with
    | nil => rfl
    | cons next rest => exact hStands.held (List.cons_ne_nil next rest)
  missing := hStands.missing
  required := hStands.required

theorem Spread.nil : Spread candidate path [] :=
  ⟨[], .nil, List.nodup_nil⟩

/-- A violation of the candidate itself stands at the end of its path. -/
theorem Violation.standsAt_nil {message : String} {kind : ViolationKind}
    (hMissing : kind = .required → candidate = none)
    (hRequired : candidate = none → kind = .required ∨ kind = .notEnumerated) :
    Violation.StandsAt candidate path [] ⟨".".intercalate path, message, kind⟩ where
  field := by rw [List.append_nil]
  plain := by simp
  held := by simp
  missing hKind := by rw [hMissing hKind, Option.bind_none]
  required hNone := by
    cases candidate with
    | none => exact hRequired rfl
    | some document => cases hNone

theorem spread_violationAt {message : String} {kind : ViolationKind} (hMissing : kind = .required → candidate = none)
    (hRequired : candidate = none → kind = .required ∨ kind = .notEnumerated) :
    Spread candidate path (violationAt path message kind) :=
  ⟨[[]], .cons (Violation.standsAt_nil hMissing hRequired) .nil, List.nodup_singleton _⟩

theorem spread_violationAt_some {message : String} {kind : ViolationKind} (hKind : kind ≠ .required) :
    Spread (some document) path (violationAt path message kind) :=
  spread_violationAt (fun hRequired => absurd hRequired hKind) nofun

theorem spread_missingAt : Spread none path (missingAt path) :=
  spread_violationAt (fun _ => rfl) (fun _ => .inl rfl)

/-- Of a missing alternative it is not said that it is required. -/
theorem spread_notEnumerated {message : String} : Spread candidate path (violationAt path message .notEnumerated) := by
  refine spread_violationAt (fun hKind => ?_) fun _ => .inr rfl
  cases hKind

theorem spread_unless {isFine : Prop} [Decidable isFine] {violations : List Violation}
    (hSpread : Spread candidate path violations) : Spread candidate path (if isFine then [] else violations) := by
  split
  · exact .nil
  · exact hSpread

/-- Where something is required, only a document that is there has to be looked at. -/
theorem spread_unless_absent {checkers : Option Json → Checker} {violations : List Violation}
    (hSpread : ∀ document, Spread (some document) path violations) :
    Spread candidate path (if (siteOf checkers candidate).isAbsent then missingAt path else violations) := by
  cases candidate with
  | none => exact spread_missingAt
  | some document =>
      rw [isAbsent_siteOf_some, if_neg Bool.false_ne_true]
      exact hSpread document

/-- A wrong type is one violation, which tells a missing candidate from one of another type. -/
theorem spread_wrongTypeAt (expected : String) (checkers : Option Json → Checker) :
    Spread candidate path (wrongTypeAt expected (siteOf checkers candidate) path) :=
  spread_unless_absent fun _ => spread_violationAt_some (by decide)

/-- Violations in parts with different names are spread, and none of them stands at the document itself. -/
theorem exists_places_of_parts {β : Type} {items : List β} {name : β → String} {found : β → List Violation}
    (hDistinct : (items.map name).Nodup) (hPlain : ∀ item ∈ items, IsPlainName (name item))
    (hParts : ∀ item ∈ items, Spread (document.part? (name item)) (path ++ [name item]) (found item)) :
    ∃ places : List Path,
      List.Forall₂ (Violation.StandsAt (some document) path) places (items.flatMap found) ∧ places.Nodup ∧
        ∀ place ∈ places, ∃ item ∈ items, ∃ rest, place = name item :: rest := by
  induction items with
  | nil => exact ⟨[], .nil, List.nodup_nil, by simp⟩
  | cons item items ih =>
      rw [List.map_cons, List.nodup_cons] at hDistinct
      obtain ⟨hItemPlain, hPlain⟩ := List.forall_mem_cons.mp hPlain
      obtain ⟨⟨inner, hInner, hInnerNodup⟩, hParts⟩ := List.forall_mem_cons.mp hParts
      obtain ⟨others, hOthers, hNodup, hHeads⟩ := ih hDistinct.2 hPlain hParts
      refine ⟨inner.map (name item :: ·) ++ others, ?_, ?_, ?_⟩
      · rw [List.flatMap_cons]
        refine List.rel_append (List.forall₂_map_left_iff.mpr ?_) hOthers
        exact hInner.imp fun place violation hStands => hStands.of_part hItemPlain
      · refine List.nodup_append.mpr ⟨hInnerNodup.map fun _ _ hSame => (List.cons.inj hSame).2, hNodup, ?_⟩
        rintro place hPlace _ hOther rfl
        obtain ⟨rest, -, rfl⟩ := List.mem_map.mp hPlace
        obtain ⟨other, hMem, _, hSame⟩ := hHeads _ hOther
        exact hDistinct.1 (List.mem_map.mpr ⟨other, hMem, ((List.cons.inj hSame).1).symm⟩)
      · intro place hPlace
        rcases List.mem_append.mp hPlace with hFirst | hLater
        · obtain ⟨rest, -, rfl⟩ := List.mem_map.mp hFirst
          exact ⟨item, List.mem_cons_self, rest, rfl⟩
        · obtain ⟨other, hMem, hPlace⟩ := hHeads place hLater
          exact ⟨other, List.mem_cons_of_mem _ hMem, hPlace⟩

/-- Parts with different names have different places, so their violations are spread together. -/
theorem spread_of_parts {β : Type} {items : List β} {name : β → String} {found : β → List Violation}
    (hDistinct : (items.map name).Nodup) (hPlain : ∀ item ∈ items, IsPlainName (name item))
    (hParts : ∀ item ∈ items, Spread (document.part? (name item)) (path ++ [name item]) (found item)) :
    Spread (some document) path (items.flatMap found) := by
  obtain ⟨places, hPlaces, hNodup, -⟩ := exists_places_of_parts hDistinct hPlain hParts
  exact ⟨places, hPlaces, hNodup⟩

/-- What is found in parts leaves room for a violation of the document itself. -/
theorem spread_of_parts_append {β : Type} {items : List β} {name : β → String} {found : β → List Violation}
    (hDistinct : (items.map name).Nodup) (hPlain : ∀ item ∈ items, IsPlainName (name item))
    (hParts : ∀ item ∈ items, Spread (document.part? (name item)) (path ++ [name item]) (found item))
    {message : String} {kind : ViolationKind} (hKind : kind ≠ .required) :
    Spread (some document) path (items.flatMap found ++ violationAt path message kind) := by
  obtain ⟨places, hPlaces, hNodup, hHeads⟩ := exists_places_of_parts hDistinct hPlain hParts
  refine ⟨places ++ [[]], List.rel_append hPlaces (.cons (Violation.standsAt_nil ?_ nofun) .nil), ?_⟩
  · exact fun hRequired => absurd hRequired hKind
  · refine List.nodup_append.mpr ⟨hNodup, List.nodup_singleton _, ?_⟩
    rintro place hPlace _ hOwn rfl
    rw [List.mem_singleton.mp hOwn] at hPlace
    obtain ⟨_, _, _, hSame⟩ := hHeads [] hPlace
    cases hSame

end Rules

section Place

variable {follow : Path → String → List Violation} {missing : Checker} {checkers : Option Json → Checker}
  {candidate : Option Json} {path : Path}

section Parts

variable (hParts : ∀ part, candidateSize part < candidateSize candidate → ∀ path schema, schema.WellNamed →
  Spread part path (checkers part path schema))

include hParts

/-- Elements are named by their indices, which are different and without dots. -/
theorem spread_elementViolations {elements : List Json} (hCandidate : candidate = some (.array elements))
    {schemaAt : Nat → Option Schema} (hNamed : ∀ index schema, schemaAt index = some schema → schema.WellNamed) :
    Spread candidate path
      (elementViolations path schemaAt (elements.map fun document => checkers (some document))) := by
  subst hCandidate
  rw [elementViolations_eq_flatMap]
  refine spread_of_parts (Json.nodup_indexNames elements) (fun _ _ => isPlainName_toString _) fun element hMem => ?_
  rw [Json.part?_array hMem]
  cases hSchema : schemaAt element.2 with
  | none => exact .nil
  | some schema =>
      exact hParts _ (candidateSize_element_lt (List.fst_mem_of_mem_zipIdx hMem)) _ schema (hNamed _ schema hSchema)

/-- What is no array is one violation; otherwise the elements are checked, each at its own place. -/
theorem spread_array {element : Schema} (hNamed : element.WellNamed) :
    Spread candidate path (violationsAt follow missing (siteOf checkers candidate) path (.array element)) := by
  rcases candidate with _ | document
  · exact spread_wrongTypeAt "array" checkers
  cases document with
  | array elements =>
      simp only [violationsAt, siteOf]
      refine spread_elementViolations hParts rfl ?_
      rintro index schema ⟨⟩
      exact hNamed
  | _ => exact spread_wrongTypeAt "array" checkers

/-- A tuple of the wrong length is one violation; otherwise its elements are checked, each at its own place. -/
theorem spread_tuple {items : List Schema} {rest : Option Schema} (hNamed : (Schema.tuple items rest).WellNamed) :
    Spread candidate path (violationsAt follow missing (siteOf checkers candidate) path (.tuple items rest)) := by
  rcases candidate with _ | document
  · exact spread_wrongTypeAt "array" checkers
  cases document with
  | array elements =>
      simp only [violationsAt, siteOf]
      split
      · exact spread_violationAt_some (by decide)
      split
      · exact spread_violationAt_some (by decide)
      · exact spread_elementViolations hParts rfl fun index schema => hNamed.element
  | _ => exact spread_wrongTypeAt "array" checkers

/-- Fields have different plain names. Unknown keys are reported at the object itself, where no field is. -/
theorem spread_object (hMissing : candidate ≠ none → missing = checkers none) {fields : Entries Schema} {strict : Bool}
    (hNamed : (Schema.object fields strict).WellNamed) :
    Spread candidate path (violationsAt follow missing (siteOf checkers candidate) path (.object fields strict)) := by
  rcases candidate with _ | document
  · exact spread_wrongTypeAt "object" checkers
  cases document with
  | object members =>
      have hNames : fields.map Prod.fst ∈ (Schema.object fields strict).fieldNames := by
        rw [Schema.fieldNames]
        exact List.mem_cons_self
      have hDistinct := hNamed.1 _ hNames
      have hPlain : ∀ field ∈ fields, IsPlainName field.1 := fun field hMem =>
        hNamed.2 _ hNames field.1 (List.mem_map_of_mem hMem)
      have hFields : ∀ field ∈ fields, Spread ((Json.object members).part? field.1) (path ++ [field.1])
          (checkers (Entries.find? field.1 members) (path ++ [field.1]) field.2) := fun field hMem =>
        hParts _ (candidateSize_member_lt field.1 members) _ field.2 (hNamed.field hMem)
      simp only [violationsAt, siteOf, fieldViolations_eq_flatMap (hMissing (by simp)), unknownKeysAt]
      split
      · split
        · rw [List.append_nil]
          exact spread_of_parts hDistinct hPlain hFields
        · refine spread_of_parts_append hDistinct hPlain hFields ?_
          decide
      · rw [List.append_nil]
        exact spread_of_parts hDistinct hPlain hFields
  | _ => exact spread_wrongTypeAt "object" checkers

end Parts

/-- What is found at one place is spread, if that is so of the references followed and of the parts. -/
theorem spread_violationsAt (hFollow : ∀ path name, Spread candidate path (follow path name))
    (hMissing : candidate ≠ none → missing = checkers none)
    (hParts : ∀ part, candidateSize part < candidateSize candidate → ∀ path schema, schema.WellNamed →
      Spread part path (checkers part path schema)) :
    ∀ (schema : Schema) (path : Path), schema.WellNamed →
      Spread candidate path (violationsAt follow missing (siteOf checkers candidate) path schema)
  | .any, path, _ => .nil
  | .optional inner, path, hNamed => by
      rw [violationsAt]
      exact spread_unless (spread_violationsAt hFollow hMissing hParts inner path hNamed)
  | .text required, path, _ => by
      rcases candidate with _ | document
      · cases required with
        | none => exact spread_missingAt
        | some message => exact spread_violationAt (fun _ => rfl) (fun _ => .inl rfl)
      · cases document with
        | string value =>
            cases required with
            | none => exact .nil
            | some message =>
                simp only [violationsAt, siteOf]
                split
                · exact spread_violationAt_some (by decide)
                · exact .nil
        | _ => cases required <;> exact spread_wrongTypeAt "string" checkers
  | .number, path, _ => by
      rcases candidate with _ | document
      · exact spread_missingAt
      · cases document with
        | number value => exact .nil
        | _ => exact spread_wrongTypeAt "number" checkers
  | .boolean, path, _ => by
      rcases candidate with _ | document
      · exact spread_missingAt
      · cases document with
        | bool value => exact .nil
        | _ => exact spread_wrongTypeAt "boolean" checkers
  | .dateTime, path, _ => by
      rcases candidate with _ | document
      · exact spread_missingAt
      · cases document with
        | string value => exact spread_unless (spread_violationAt_some (by decide))
        | _ => exact spread_wrongTypeAt "string" checkers
  | .literal value, path, _ => by
      rw [violationsAt]
      exact spread_unless_absent fun _ => spread_unless (spread_violationAt_some (by decide))
  | .enumeration values message, path, _ => by
      rcases candidate with _ | document
      · exact spread_notEnumerated
      · cases document with
        | string value => exact spread_unless spread_notEnumerated
        | _ => exact spread_notEnumerated
  | .union options message, path, _ => by
      rw [violationsAt]
      exact spread_unless_absent fun _ => spread_unless (spread_violationAt_some (by decide))
  | .array element, path, hNamed => spread_array hParts hNamed
  | .tuple items rest, path, hNamed => spread_tuple hParts hNamed
  | .object fields strict, path, hNamed => spread_object hParts hMissing hNamed
  | .record, path, _ => by
      rcases candidate with _ | document
      · exact spread_missingAt
      · cases document with
        | object members => exact .nil
        | _ => exact spread_wrongTypeAt "object" checkers
  | .reference name, path, _ => hFollow path name

end Place

def SchemaTable.WellNamed (table : SchemaTable) : Prop :=
  ∀ entry ∈ table.entries, entry.2.WellNamed

theorem SchemaTable.WellNamed.of_find? {table : SchemaTable} (hTable : table.WellNamed) {name : String}
    {target : Schema} (hFind : table.find? name = some target) : target.WellNamed :=
  hTable (name, target) ((table.mem_entries_iff_find? name target).mpr hFind)

section Checkers

variable {table : SchemaTable}

/-- The outer induction is on the candidate, since its parts are checked with the full limit; the inner one is on the
number of references that are followed at its own place. -/
theorem spread_placeChecker (hTable : table.WellNamed) (limit hops : Nat) (candidate : Option Json) (path : Path)
    {schema : Schema} (hNamed : schema.WellNamed) :
    Spread candidate path (placeChecker table limit hops candidate path schema) := by
  induction hSize : candidateSize candidate using Nat.strong_induction_on
    generalizing candidate hops path schema with
  | _ size ih =>
      subst hSize
      have hParts : ∀ part, candidateSize part < candidateSize candidate → ∀ path schema, schema.WellNamed →
          Spread part path (checkerOf table limit part path schema) := by
        intro part hSmaller path schema hNamed
        rw [checkerOf_eq_placeChecker]
        exact ih _ hSmaller (limit + 1) part path hNamed rfl
      induction hops generalizing path schema with
      | zero =>
          rw [placeChecker_zero]
          exact spread_violationsAt (fun _ _ => .nil) (missingFor_of_ne_none table limit) hParts schema path hNamed
      | succ hops ihHops =>
          rw [placeChecker_succ]
          refine spread_violationsAt (fun path name => ?_) (missingFor_of_ne_none table limit) hParts schema path hNamed
          cases hFind : table.find? name with
          | none => exact .nil
          | some target => exact ihHops path (hTable.of_find? hFind)

/-- The violation points to a place in the document: all names of its field but the last lead on, something that is
required is not there, and where nothing is there, something is required or an alternative is missing. -/
structure Violation.PointsInto (document : Json) (violation : Violation) : Prop where
  held : (document.walk? (segmentsOf violation.field).dropLast).isSome = true
  missing : violation.kind = .required → document.walk? (segmentsOf violation.field) = none
  required : document.walk? (segmentsOf violation.field) = none →
    violation.kind = .required ∨ violation.kind = .notEnumerated

/-- From the document itself the field of a violation is the whole path. -/
theorem Violation.StandsAt.pointsInto {document : Json} {place : Path} {violation : Violation}
    (hStands : violation.StandsAt (some document) [] place) : violation.PointsInto document := by
  have hSegments : segmentsOf violation.field = place := by
    rw [hStands.field, List.nil_append, segmentsOf_intercalate hStands.plain]
  refine ⟨?_, ?_, ?_⟩
  · rw [hSegments]
    by_cases hRoot : place = []
    · rw [hRoot]
      rfl
    · exact hStands.held hRoot
  · rw [hSegments]
    exact hStands.missing
  · rw [hSegments]
    exact hStands.required

/-- Different places have different fields, as no name in a path has a dot. -/
theorem Spread.nodup_fields {document : Json} {violations : List Violation}
    (hSpread : Spread (some document) [] violations) : (violations.map Violation.field).Nodup := by
  obtain ⟨places, hPlaces, hNodup⟩ := hSpread
  have hSegments : (violations.map Violation.field).map segmentsOf = places := by
    induction hPlaces with
    | nil => rfl
    | cons hFirst _ ih =>
        rw [List.map_cons, List.map_cons, ih (List.nodup_cons.mp hNodup).2, hFirst.field, List.nil_append,
          segmentsOf_intercalate hFirst.plain]
  exact List.Nodup.of_map segmentsOf (hSegments ▸ hNodup)

theorem Spread.pointsInto {document : Json} {violations : List Violation}
    (hSpread : Spread (some document) [] violations) : ∀ violation ∈ violations, violation.PointsInto document := by
  obtain ⟨places, hPlaces, -⟩ := hSpread
  induction hPlaces with
  | nil => simp
  | cons hFirst _ ih => exact List.forall_mem_cons.mpr ⟨hFirst.pointsInto, ih⟩

/-- For every table, schema and document, the violations that are reported have different fields, and each of them
points to a place in the document. -/
theorem check_fields_nodup_pointsInto (hTable : table.WellNamed) {schema : Schema} (hSchema : schema.WellNamed)
    (document : Json) :
    ((check table schema (some document)).map Violation.field).Nodup ∧
      ∀ violation ∈ check table schema (some document), violation.PointsInto document := by
  have hSpread : Spread (some document) [] (check table schema (some document)) := by
    rw [check, checkerOf_eq_placeChecker]
    exact spread_placeChecker hTable _ _ _ _ hSchema
  exact ⟨hSpread.nodup_fields, hSpread.pointsInto⟩

/-- Folders in folders: a missing title, a missing kind, an unknown member and an element that is no folder are
reported at four places. -/
theorem check_fields_nodup_pointsInto_folders :
    let folder : Schema := .object [("title", .text (some "Title is required")),
      ("kind", .enumeration ["open", "closed"] "Unknown kind"), ("folders", .array (.reference "Folder"))] true
    let table : SchemaTable := OrderedMap.ofList [("Folder", folder)]
    let document : Json := .object [("title", .string "Top"), ("size", .null),
      ("folders", .array [.object [("kind", .string "open"), ("folders", .array [])], .bool true])]
    table.WellNamed ∧ folder.WellNamed ∧
      (check table folder (some document)).map Violation.field = ["kind", "folders.0.title", "folders.1", ""] ∧
      ((check table folder (some document)).map Violation.field).Nodup ∧
        ∀ violation ∈ check table folder (some document), violation.PointsInto document := by
  intro folder table document
  have hFolder : folder.WellNamed := by decide +kernel
  have hTable : table.WellNamed := by
    intro entry hMem
    obtain rfl := List.mem_singleton.mp hMem
    exact hFolder
  exact ⟨hTable, hFolder, by decide +kernel, check_fields_nodup_pointsInto hTable hFolder document⟩

end Checkers

end SchemaForge
