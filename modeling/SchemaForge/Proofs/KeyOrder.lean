import SchemaForge.Proofs.ComparedReports

/-! The order of keys does not matter. Documents that differ in the order of their members get the same report, except
that the message about unknown members lists them as the document does. Schemas that differ in the order of their fields
report the same violations in another order. -/
namespace SchemaForge

namespace Entries

variable {α : Type}

/-- Entries with the same names whose values belong together in their order. -/
theorem matched_of_names_eq {values : α → α → Prop} {entries entries' : Entries α}
    (hNames : entries.names = entries'.names)
    (hValues : List.Forall₂ values (entries.map Prod.snd) (entries'.map Prod.snd)) :
    Matched values entries entries' := by
  induction entries generalizing entries' with
  | nil =>
      cases entries' with
      | nil => exact .nil
      | cons entry' rest' => cases hNames
  | cons entry rest ih =>
      cases entries' with
      | nil => cases hNames
      | cons entry' rest' =>
          obtain ⟨hName, hNames⟩ := List.cons.inj hNames
          obtain ⟨hValue, hValues⟩ := List.forall₂_cons.mp hValues
          exact .cons ⟨hName, hValue⟩ (ih hNames hValues)

theorem matched_refl {values : α → α → Prop} (hRefl : ∀ value, values value value) (entries : Entries α) :
    Matched values entries entries :=
  List.forall₂_same.mpr fun entry _ => ⟨rfl, hRefl entry.2⟩

theorem names_perm {entries entries' : Entries α} (hPerm : entries.Perm entries') : entries.names.Perm entries'.names :=
  hPerm.map Prod.fst

/-- Where no name occurs twice, the order of the entries does not matter for what is found. -/
theorem find?_perm {entries entries' : Entries α} (hNodup : entries.names.Nodup) (hPerm : entries.Perm entries')
    (name : String) : entries.find? name = entries'.find? name := by
  apply Option.ext
  intro value
  rw [← mem_iff_find? hNodup, ← mem_iff_find? ((names_perm hPerm).nodup_iff.mp hNodup), hPerm.mem_iff]

end Entries

theorem optionRel_refl {α : Type} {related : α → α → Prop} (hRefl : ∀ value, related value value) :
    ∀ value? : Option α, Option.Rel related value? value?
  | none => .none
  | some value => .some (hRefl value)

/-- The documents differ only in the order of the members of objects, at any depth. -/
inductive Json.Reordered : Json → Json → Prop
  | refl (document : Json) : Reordered document document
  | array {elements elements' : List Json} :
      List.Forall₂ Reordered elements elements' → Reordered (.array elements) (.array elements')
  | object {members between members' : Entries Json} :
      members.names.Nodup → members.names = between.names →
        List.Forall₂ Reordered (members.map Prod.snd) (between.map Prod.snd) → between.Perm members' →
          Reordered (.object members) (.object members')

/-- The schemas differ only in the order of the fields of objects, at any depth. -/
inductive Schema.Reordered : Schema → Schema → Prop
  | refl (schema : Schema) : Reordered schema schema
  | optional {inner inner' : Schema} : Reordered inner inner' → Reordered (.optional inner) (.optional inner')
  | union {options options' : List Schema} {message : String} :
      List.Forall₂ Reordered options options' → Reordered (.union options message) (.union options' message)
  | array {element element' : Schema} : Reordered element element' → Reordered (.array element) (.array element')
  | tuple {items items' : List Schema} {rest rest' : Option Schema} :
      List.Forall₂ Reordered items items' → Option.Rel Reordered rest rest' →
        Reordered (.tuple items rest) (.tuple items' rest')
  | object {fields between fields' : Entries Schema} {strict : Bool} :
      fields.names = between.names → List.Forall₂ Reordered (fields.map Prod.snd) (between.map Prod.snd) →
        between.Perm fields' → Reordered (.object fields strict) (.object fields' strict)

def SchemaTable.Reordered (table table' : SchemaTable) : Prop :=
  Entries.Matched Schema.Reordered table.entries table'.entries

/-- A document belongs together with itself if all its parts do. -/
theorem Json.matched_refl {parts : Json → Json → Prop} (hRefl : ∀ part, parts part part) (document : Json) :
    Matched parts document document := by
  cases document with
  | null => exact .null
  | bool value => exact .bool value
  | number value => exact .number value
  | string value => exact .string value
  | array elements => exact .array (List.forall₂_same.mpr fun element _ => hRefl element)
  | object members => exact .object fun name => optionRel_refl hRefl _

/-- Reordering at any depth is reordering at the top with parts that are reordered. -/
theorem Json.Reordered.matched {document document' : Json} (hReordered : document.Reordered document') :
    Matched Reordered document document' := by
  cases hReordered with
  | refl => exact matched_refl .refl document
  | array hElements => exact .array hElements
  | object hNodup hNames hValues hPerm =>
      refine .object fun name => ?_
      rw [← Entries.find?_perm (hNames ▸ hNodup) hPerm]
      exact (Entries.matched_of_names_eq hNames hValues).find? name

theorem Json.Reordered.names_perm {members members' : Entries Json}
    (hReordered : (Json.object members).Reordered (.object members')) : members.names.Perm members'.names := by
  cases hReordered with
  | refl => exact .refl _
  | object _ hNames _ hPerm => exact hNames ▸ Entries.names_perm hPerm

theorem Schema.matched_refl {parts : Schema → Schema → Prop} {arranged : Entries Schema → Entries Schema → Prop}
    (hRefl : ∀ part, parts part part) (hArranged : ∀ fields, arranged fields fields) (schema : Schema) :
    Matched parts arranged schema schema := by
  cases schema with
  | optional inner => exact .optional (hRefl inner)
  | union options message => exact .union (List.forall₂_same.mpr fun option _ => hRefl option)
  | array element => exact .array (hRefl element)
  | tuple items rest => exact .tuple (List.forall₂_same.mpr fun item _ => hRefl item) (optionRel_refl hRefl rest)
  | object fields strict => exact .object (Entries.matched_refl hRefl fields) (hArranged fields)
  | reference name => exact .reference name
  | _ => exact .leaf rfl

/-- Reordering at any depth is reordering at the top with parts that are reordered. -/
theorem Schema.Reordered.matched {schema schema' : Schema} (hReordered : schema.Reordered schema') :
    Matched Reordered List.Perm schema schema' := by
  cases hReordered with
  | refl => exact matched_refl .refl List.Perm.refl schema
  | optional hInner => exact .optional hInner
  | union hOptions => exact .union hOptions
  | array hElement => exact .array hElement
  | tuple hItems hRest => exact .tuple hItems hRest
  | object hNames hSchemas hPerm => exact .object (Entries.matched_of_names_eq hNames hSchemas) hPerm

def unknownKeysMessage (names : List String) : String :=
  "Unrecognized key(s) in object: " ++ ", ".intercalate (names.map fun name => "'" ++ name ++ "'")

/-- The same violation of two candidates, below the path to both. If it is about unknown members, both messages list the
same members of an object, each in the order in which they stand there. -/
structure Violation.SameButKeys (candidate candidate' : Option Json) (path : Path) (violation violation' : Violation) :
    Prop where
  field : violation.field = violation'.field
  kind : violation.kind = violation'.kind
  message : violation.kind ≠ .unknownKeys → violation.message = violation'.message
  keys : violation.kind = .unknownKeys → ∃ (place : Path) (members members' : Entries Json) (isUnknown : String → Bool),
    violation.field = ".".intercalate (path ++ place) ∧
      candidate.bind (Json.walk? place) = some (.object members) ∧
      candidate'.bind (Json.walk? place) = some (.object members') ∧ members.names.Perm members'.names ∧
      violation.message = unknownKeysMessage (members.names.filter isUnknown) ∧
      violation'.message = unknownKeysMessage (members'.names.filter isUnknown)

namespace Violation.SameButKeys

variable {candidate candidate' : Option Json} {document document' : Json} {path : Path}
  {violation violation' : Violation}

/-- Violations that are not about unknown keys are the same for both documents. -/
theorem of_kind_ne (hKind : violation.kind ≠ .unknownKeys) :
    SameButKeys candidate candidate' path violation violation where
  field := rfl
  kind := rfl
  message _ := rfl
  keys hKeys := absurd hKeys hKind

/-- A violation in a part is one of the whole, below the path to it. -/
theorem of_part {name : String}
    (hSame : SameButKeys (document.part? name) (document'.part? name) (path ++ [name]) violation violation') :
    SameButKeys (some document) (some document') path violation violation' where
  field := hSame.field
  kind := hSame.kind
  message := hSame.message
  keys hKeys := by
    obtain ⟨place, members, members', isUnknown, hField, hRest⟩ := hSame.keys hKeys
    refine ⟨name :: place, members, members', isUnknown, ?_, hRest⟩
    rw [hField, List.append_assoc, List.singleton_append]

end Violation.SameButKeys

/-- The unknown keys are the same, and each message lists them in the order of its document. -/
theorem forall₂_sameButKeys_unknownKeysAt {members members' : Entries Json} (hPerm : members.names.Perm members'.names)
    {fields : Entries Schema} {path : Path} :
    List.Forall₂ (Violation.SameButKeys (some (.object members)) (some (.object members')) path)
      (unknownKeysAt fields members path) (unknownKeysAt fields members' path) := by
  have hEmpty : (members.names.filter fun name => !fields.has name).isEmpty =
      (members'.names.filter fun name => !fields.has name).isEmpty := (hPerm.filter _).isEmpty_eq
  rw [unknownKeysAt, unknownKeysAt, hEmpty]
  split
  · exact .nil
  · refine .cons ⟨rfl, rfl, fun hKind => absurd rfl hKind, fun _ => ?_⟩ .nil
    refine ⟨[], members, members', fun name => !fields.has name, ?_, rfl, rfl, hPerm, rfl, rfl⟩
    rw [List.append_nil]

/-- Which keys are unknown depends on the names of the fields and not on their order. -/
theorem unknownKeysAt_congr {fields fields' : Entries Schema}
    (hNames : ∀ name, name ∈ fields.names ↔ name ∈ fields'.names) (members : Entries Json) (path : Path) :
    unknownKeysAt fields members path = unknownKeysAt fields' members path := by
  have hHas : ∀ name, fields.has name = fields'.has name := by
    intro name
    rw [Bool.eq_iff_iff, Entries.has_iff, Entries.has_iff, hNames]
  simp only [unknownKeysAt, hHas]

namespace Comparison

/-- The same schemas, and documents that differ in the order of their members. -/
def reorderedDocuments : Comparison where
  documents := Json.Reordered
  schemas := Eq
  arranged := Eq
  reports candidate candidate' path := List.Forall₂ (Violation.SameButKeys candidate candidate' path)
  document_cases hReordered := hReordered.matched
  schema_cases := by
    rintro schema _ rfl
    exact Schema.matched_refl (fun _ => rfl) (fun _ => rfl) schema
  arranged_names := by
    rintro fields _ rfl name
    rfl
  same hKinds := List.forall₂_same.mpr fun violation hMem => .of_kind_ne (hKinds violation hMem)
  append hFirst hSecond := List.rel_append hFirst hSecond
  nil_iff hReports := by rw [← List.length_eq_zero_iff, hReports.length_eq, List.length_eq_zero_iff]
  part name hReports := hReports.imp fun _ _ hSame => hSame.of_part
  arrange := by
    rintro _ _ _ _ fields _ found rfl hReports
    exact hReports
  unknown hDocuments hNames := by
    rw [← unknownKeysAt_congr hNames]
    exact forall₂_sameButKeys_unknownKeysAt hDocuments.names_perm

/-- The same documents, and schemas that differ in the order of their fields. -/
def reorderedSchemas : Comparison where
  documents := Eq
  schemas := Schema.Reordered
  arranged := List.Perm
  reports _ _ _ := List.Perm
  document_cases := by
    rintro document _ rfl
    exact Json.matched_refl (fun _ => rfl) document
  schema_cases hReordered := hReordered.matched
  arranged_names hPerm _ := (Entries.names_perm hPerm).mem_iff
  same _ := .refl _
  append hFirst hSecond := hFirst.append hSecond
  nil_iff hPerm := by rw [← List.length_eq_zero_iff, hPerm.length_eq, List.length_eq_zero_iff]
  part _ hPerm := hPerm
  arrange hFields hPerm := hPerm.trans (hFields.flatMap_right _)
  unknown := by
    rintro members _ fields fields' path ⟨⟩ hNames
    rw [unknownKeysAt_congr hNames]

end Comparison

/-- The order of members and fields does not matter: documents that differ in it get the same report, but for the order
in which unknown members are listed, and schemas that differ in it report the same violations. -/
theorem check_ignores_key_order (table : SchemaTable) (schema : Schema) :
    (∀ candidate candidate', Option.Rel Json.Reordered candidate candidate' →
      List.Forall₂ (Violation.SameButKeys candidate candidate' []) (check table schema candidate)
        (check table schema candidate')) ∧
    ∀ table' schema', table.Reordered table' → schema.Reordered schema' → ∀ candidate,
      (check table' schema' candidate).Perm (check table schema candidate) ∧
        (check table' schema' candidate = [] ↔ check table schema candidate = []) := by
  refine ⟨fun candidate candidate' hPair => ?_, fun table' schema' hTables hSchemas candidate => ?_⟩
  · exact Comparison.reorderedDocuments.reports_check (Entries.matched_refl (fun _ => rfl) _) hPair rfl
  · have hPerm : (check table schema candidate).Perm (check table' schema' candidate) :=
      Comparison.reorderedSchemas.reports_check hTables (optionRel_refl (fun _ => rfl) candidate) hSchemas
    refine ⟨hPerm.symm, fun hNil => ?_, fun hNil => ?_⟩
    · exact (hNil ▸ hPerm).eq_nil
    · exact (hNil ▸ hPerm).symm.eq_nil

/-- An order whose address has an unknown street and town, and no number: the two members are listed as they stand in
the document, and what is reported comes in the order of the fields. -/
theorem check_ignores_key_order_address :
    let address : Schema := .object [("number", .number), ("code", .text none)] true
    let address' : Schema := .object [("code", .text none), ("number", .number)] true
    let order : Schema := .object [("paid", .boolean), ("to", .reference "Address")] true
    let order' : Schema := .object [("to", .reference "Address"), ("paid", .boolean)] true
    let table : SchemaTable := OrderedMap.ofList [("Address", address)]
    let table' : SchemaTable := OrderedMap.ofList [("Address", address')]
    let document : Json := .object [("to", .object [("street", .null), ("town", .null), ("code", .bool true)]),
      ("paid", .null)]
    let document' : Json := .object [("paid", .null),
      ("to", .object [("town", .null), ("street", .null), ("code", .bool true)])]
    table.Reordered table' ∧ order.Reordered order' ∧ document.Reordered document' ∧
      check table order (some document) =
        [⟨"paid", "Expected boolean, received null", .wrongType⟩, ⟨"to.number", "Required", .required⟩,
          ⟨"to.code", "Expected string, received boolean", .wrongType⟩,
          ⟨"to", "Unrecognized key(s) in object: 'street', 'town'", .unknownKeys⟩] ∧
      check table order (some document') =
        [⟨"paid", "Expected boolean, received null", .wrongType⟩, ⟨"to.number", "Required", .required⟩,
          ⟨"to.code", "Expected string, received boolean", .wrongType⟩,
          ⟨"to", "Unrecognized key(s) in object: 'town', 'street'", .unknownKeys⟩] ∧
      List.Forall₂ (Violation.SameButKeys (some document) (some document') []) (check table order (some document))
        (check table order (some document')) ∧
      (check table' order' (some document)).Perm (check table order (some document)) := by
  intro address address' order order' table table' document document'
  have hTables : table.Reordered table' := by
    refine .cons ⟨rfl, .object rfl ?_ (.swap _ _ _)⟩ .nil
    exact .cons (.refl _) (.cons (.refl _) .nil)
  have hOrders : order.Reordered order' := by
    refine .object rfl ?_ (.swap _ _ _)
    exact .cons (.refl _) (.cons (.refl _) .nil)
  have hDocuments : document.Reordered document' := by
    refine .object (by decide) ?_ (.cons ?_ (.cons (.refl _) .nil)) (.swap _ _ _)
    · rfl
    · refine .object (by decide) rfl ?_ (.swap _ _ _)
      exact .cons (.refl _) (.cons (.refl _) (.cons (.refl _) .nil))
  obtain ⟨hSame, hPerm⟩ := check_ignores_key_order table order
  exact ⟨hTables, hOrders, hDocuments, by decide +kernel, by decide +kernel, hSame _ _ (.some hDocuments),
    (hPerm table' order' hTables hOrders _).1⟩

end SchemaForge
