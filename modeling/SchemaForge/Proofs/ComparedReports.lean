import Mathlib.Data.List.Forall2
import SchemaForge.Proofs.DocumentPaths
import SchemaForge.Proofs.ReportedViolations

/-! Two reports compared. Two candidates are checked with two schemas, each with a table of its own. If candidates,
schemas and tables belong together part by part, the reports belong together, whatever is asked of reports for that, as
long as it goes with what a checker does: it joins the reports on parts, and it tries alternatives only to see whether
they report anything. -/
namespace SchemaForge

namespace Entries

variable {α β : Type} {values : α → β → Prop}

/-- The same names in the same order, with values that belong together. -/
def Matched (values : α → β → Prop) : Entries α → Entries β → Prop :=
  List.Forall₂ fun entry entry' => entry.1 = entry'.1 ∧ values entry.2 entry'.2

theorem Matched.names_eq {entries : Entries α} {entries' : Entries β} (hMatched : Matched values entries entries') :
    entries.names = entries'.names := by
  induction hMatched with
  | nil => rfl
  | cons hFirst _ ih => exact congrArg₂ List.cons hFirst.1 ih

/-- What is found under a name on both sides belongs together, or nothing is found on either. -/
theorem Matched.find? {entries : Entries α} {entries' : Entries β} (hMatched : Matched values entries entries')
    (name : String) : Option.Rel values (entries.find? name) (entries'.find? name) := by
  induction hMatched with
  | nil => exact .none
  | @cons entry entry' _ _ hFirst _ ih =>
      obtain ⟨own, value⟩ := entry
      obtain ⟨_, value'⟩ := entry'
      obtain ⟨rfl, hValues⟩ := hFirst
      rw [Entries.find?, Entries.find?]
      split
      · exact .some hValues
      · exact ih

end Entries

/-- The documents are the same at the top, and their parts belong together. -/
inductive Json.Matched (parts : Json → Json → Prop) : Json → Json → Prop
  | null : Matched parts .null .null
  | bool (value : Bool) : Matched parts (.bool value) (.bool value)
  | number (value : JsonNumber) : Matched parts (.number value) (.number value)
  | string (value : String) : Matched parts (.string value) (.string value)
  | array {elements elements' : List Json} :
      List.Forall₂ parts elements elements' → Matched parts (.array elements) (.array elements')
  | object {members members' : Entries Json} :
      (∀ name, Option.Rel parts (members.find? name) (members'.find? name)) →
        Matched parts (.object members) (.object members')

namespace Schema

def isLeaf : Schema → Bool
  | .optional _ => false
  | .union _ _ => false
  | .array _ => false
  | .tuple _ _ => false
  | .object _ _ => false
  | .reference _ => false
  | _ => true

/-- The schemas are the same at the top, and their parts belong together. The fields of objects belong together in their
order, and are then arranged in another one. -/
inductive Matched (parts : Schema → Schema → Prop) (arranged : Entries Schema → Entries Schema → Prop) :
    Schema → Schema → Prop
  | leaf {schema : Schema} : schema.isLeaf = true → Matched parts arranged schema schema
  | optional {inner inner' : Schema} :
      parts inner inner' → Matched parts arranged (.optional inner) (.optional inner')
  | union {options options' : List Schema} {message : String} :
      List.Forall₂ parts options options' →
        Matched parts arranged (.union options message) (.union options' message)
  | array {element element' : Schema} :
      parts element element' → Matched parts arranged (.array element) (.array element')
  | tuple {items items' : List Schema} {rest rest' : Option Schema} :
      List.Forall₂ parts items items' → Option.Rel parts rest rest' →
        Matched parts arranged (.tuple items rest) (.tuple items' rest')
  | object {fields matched fields' : Entries Schema} {strict : Bool} :
      Entries.Matched parts fields matched → arranged matched fields' →
        Matched parts arranged (.object fields strict) (.object fields' strict)
  | reference (name : String) : Matched parts arranged (.reference name) (.reference name)

end Schema

/-- A way to compare reports, with the documents and schemas for which it is meant. A report is given with the candidate
that it is about and the path to it. -/
structure Comparison where
  documents : Json → Json → Prop
  schemas : Schema → Schema → Prop
  arranged : Entries Schema → Entries Schema → Prop
  reports : Option Json → Option Json → Path → List Violation → List Violation → Prop
  document_cases : ∀ {document document'}, documents document document' → Json.Matched documents document document'
  schema_cases : ∀ {schema schema'}, schemas schema schema' → Schema.Matched schemas arranged schema schema'
  arranged_names : ∀ {fields fields' : Entries Schema}, arranged fields fields' →
    ∀ name, name ∈ fields.names ↔ name ∈ fields'.names
  same : ∀ {candidate candidate' path violations}, (∀ violation ∈ violations, violation.kind ≠ .unknownKeys) →
    reports candidate candidate' path violations violations
  append : ∀ {candidate candidate' path first first' second second'},
    reports candidate candidate' path first first' → reports candidate candidate' path second second' →
      reports candidate candidate' path (first ++ second) (first' ++ second')
  nil_iff : ∀ {candidate candidate' path violations violations'},
    reports candidate candidate' path violations violations' → (violations = [] ↔ violations' = [])
  part : ∀ {document document' path violations violations'} (name : String),
    reports (document.part? name) (document'.part? name) (path ++ [name]) violations violations' →
      reports (some document) (some document') path violations violations'
  arrange : ∀ {candidate candidate' path violations fields fields'} {found : String × Schema → List Violation},
    arranged fields fields' → reports candidate candidate' path violations (fields.flatMap found) →
      reports candidate candidate' path violations (fields'.flatMap found)
  unknown : ∀ {members members' : Entries Json} {fields fields' : Entries Schema} {path : Path},
    documents (.object members) (.object members') → (∀ name, name ∈ fields.names ↔ name ∈ fields'.names) →
      reports (some (.object members)) (some (.object members')) path
        (unknownKeysAt fields members path) (unknownKeysAt fields' members' path)

theorem violationAt_kind {path : Path} {message : String} {kind : ViolationKind} {violation : Violation}
    (hMem : violation ∈ violationAt path message kind) : violation.kind = kind := by
  rw [List.mem_singleton.mp hMem]

/-- A wrong type is not reported as unknown keys, which are the only violations that depend on the order of
members. -/
theorem wrongTypeAt_kind {α : Type} {expected : String} {site : Site α} {path : Path} {violation : Violation}
    (hMem : violation ∈ wrongTypeAt expected site path) : violation.kind ≠ .unknownKeys := by
  unfold wrongTypeAt at hMem
  split at hMem
  · rw [violationAt_kind hMem]
    decide
  · rw [violationAt_kind hMem]
    decide

/-- Unknown keys are found by their names, whatever they hold. -/
theorem unknownKeysAt_mapValues {α : Type} (f : Json → α) (fields : Entries Schema) (members : Entries Json)
    (path : Path) :
    unknownKeysAt fields (members.map fun member => (member.1, f member.2)) path =
      unknownKeysAt fields members path := by
  rw [unknownKeysAt, unknownKeysAt, Entries.names_mapValues f]

theorem forall₂_zipIdx {α β : Type} {related : α → β → Prop} {items : List α} {items' : List β}
    (hItems : List.Forall₂ related items items') (start : Nat) :
    List.Forall₂ (fun item item' => related item.1 item'.1 ∧ item.2 = item'.2)
      (items.zipIdx start) (items'.zipIdx start) := by
  induction hItems generalizing start with
  | nil => exact .nil
  | cons hFirst _ ih =>
      rw [List.zipIdx_cons, List.zipIdx_cons]
      exact .cons ⟨hFirst, rfl⟩ (ih (start + 1))

/-- The schemas of elements belong together at every index, items and rest alike. -/
theorem forall₂_getElem?_or {items items' : List Schema} {rest rest' : Option Schema} {related : Schema → Schema → Prop}
    (hItems : List.Forall₂ related items items') (hRest : Option.Rel related rest rest') (index : Nat) :
    Option.Rel related (items[index]?.or rest) (items'[index]?.or rest') := by
  induction hItems generalizing index with
  | nil => simpa using hRest
  | cons hFirst _ ih =>
      cases index with
      | zero => exact .some hFirst
      | succ index => exact ih index

namespace Comparison

variable {comparison : Comparison} {follow follow' : Path → String → List Violation} {missing missing' : Checker}
  {checkers checkers' : Option Json → Checker} {candidate candidate' : Option Json} {path : Path}

theorem reports_nil : comparison.reports candidate candidate' path [] [] :=
  comparison.same (by simp)

/-- The same violation on both sides, unless it is about unknown keys. -/
theorem reports_violationAt {message : String} {kind : ViolationKind} (hKind : kind ≠ .unknownKeys) :
    comparison.reports candidate candidate' path (violationAt path message kind) (violationAt path message kind) :=
  comparison.same fun _ hMem => violationAt_kind hMem ▸ hKind

theorem reports_missingAt : comparison.reports candidate candidate' path (missingAt path) (missingAt path) :=
  reports_violationAt (by decide)

/-- Reports about items that belong together are put together in the same order. The induction is over both lists. -/
theorem reports_flatMap {β γ : Type} {items : List β} {items' : List γ} {related : β → γ → Prop}
    {found : β → List Violation} {found' : γ → List Violation} (hItems : List.Forall₂ related items items')
    (hFound : ∀ item ∈ items, ∀ item' ∈ items', related item item' →
      comparison.reports candidate candidate' path (found item) (found' item')) :
    comparison.reports candidate candidate' path (items.flatMap found) (items'.flatMap found') := by
  induction hItems with
  | nil => exact reports_nil
  | cons hFirst _ ih =>
      rw [List.flatMap_cons, List.flatMap_cons]
      refine comparison.append (hFound _ List.mem_cons_self _ List.mem_cons_self hFirst) (ih ?_)
      exact fun item hMem item' hMem' => hFound item (List.mem_cons_of_mem _ hMem) item' (List.mem_cons_of_mem _ hMem')

/-- Candidates that belong together are of the same kind. -/
theorem isAbsent_eq (hPair : Option.Rel comparison.documents candidate candidate') :
    (siteOf checkers candidate).isAbsent = (siteOf checkers' candidate').isAbsent := by
  cases hPair with
  | none => rfl
  | some _ => rw [isAbsent_siteOf_some, isAbsent_siteOf_some]

/-- Documents that belong together have the same type at the top, so they are described alike. -/
theorem wrongTypeAt_eq (hPair : Option.Rel comparison.documents candidate candidate') (expected : String)
    (path : Path) :
    wrongTypeAt expected (siteOf checkers candidate) path =
      wrongTypeAt expected (siteOf checkers' candidate') path := by
  cases hPair with
  | none => rfl
  | some hDocuments => cases comparison.document_cases hDocuments <;> rfl

theorem reports_wrongTypeAt (hPair : Option.Rel comparison.documents candidate candidate') (expected : String) :
    comparison.reports candidate candidate' path (wrongTypeAt expected (siteOf checkers candidate) path)
      (wrongTypeAt expected (siteOf checkers' candidate') path) := by
  rw [wrongTypeAt_eq hPair]
  exact comparison.same fun _ hMem => wrongTypeAt_kind hMem

/-- Literals have no parts, so documents that belong together match the same ones. -/
theorem matchesSite_eq (hPair : Option.Rel comparison.documents candidate candidate') (literal : Literal) :
    literal.matchesSite (siteOf checkers candidate) = literal.matchesSite (siteOf checkers' candidate') := by
  cases hPair with
  | none => rfl
  | some hDocuments => cases comparison.document_cases hDocuments <;> cases literal <;> rfl

/-- A schema without parts finds the same in both candidates. -/
theorem violationsAt_leaf_eq (hPair : Option.Rel comparison.documents candidate candidate') {schema : Schema}
    (hLeaf : schema.isLeaf = true) :
    violationsAt follow missing (siteOf checkers candidate) path schema =
      violationsAt follow' missing' (siteOf checkers' candidate') path schema := by
  cases schema with
  | literal value => rw [violationsAt, violationsAt, isAbsent_eq hPair, matchesSite_eq hPair]
  | _ =>
      cases hPair with
      | none => first | rfl | cases hLeaf
      | some hDocuments => cases comparison.document_cases hDocuments <;> first | rfl | cases hLeaf

/-- A schema without parts reports no unknown keys. -/
theorem violationsAt_leaf_kind {site : Site Checker} {schema : Schema} (hLeaf : schema.isLeaf = true)
    {violation : Violation} (hMem : violation ∈ violationsAt follow missing site path schema) :
    violation.kind ≠ .unknownKeys := by
  cases schema with
  | optional | union | array | tuple | object | reference => cases hLeaf
  | _ =>
      unfold violationsAt at hMem
      grind [wrongTypeAt_kind, violationAt_kind, missingAt]

/-- A schema without parts looks at the top of the document only, which is the same on both sides. -/
theorem reports_leaf (hPair : Option.Rel comparison.documents candidate candidate') {schema : Schema}
    (hLeaf : schema.isLeaf = true) :
    comparison.reports candidate candidate' path
      (violationsAt follow missing (siteOf checkers candidate) path schema)
      (violationsAt follow' missing' (siteOf checkers' candidate') path schema) := by
  rw [← violationsAt_leaf_eq hPair hLeaf]
  exact comparison.same fun _ hMem => violationsAt_leaf_kind hLeaf hMem

/-- An alternative is taken in both runs or in none, since it only matters whether it reports anything. -/
theorem acceptedByAny_eq {options options' : List Schema} (hOptions : List.Forall₂ comparison.schemas options options')
    (hTried : ∀ option ∈ options, ∀ option', comparison.schemas option option' →
      comparison.reports candidate candidate' []
        (violationsAt follow missing (siteOf checkers candidate) [] option)
        (violationsAt follow' missing' (siteOf checkers' candidate') [] option')) :
    acceptedByAny follow missing (siteOf checkers candidate) options =
      acceptedByAny follow' missing' (siteOf checkers' candidate') options' := by
  induction hOptions with
  | nil => rfl
  | @cons option option' _ _ hOption _ ih =>
      have hNil := comparison.nil_iff (hTried option List.mem_cons_self option' hOption)
      have hFirst : (violationsAt follow missing (siteOf checkers candidate) [] option).isEmpty =
          (violationsAt follow' missing' (siteOf checkers' candidate') [] option').isEmpty := by
        rw [Bool.eq_iff_iff, List.isEmpty_iff, List.isEmpty_iff, hNil]
      rw [acceptedByAny, acceptedByAny, hFirst, ih fun option hMem => hTried option (List.mem_cons_of_mem _ hMem)]

/-- Only whether some option accepts the candidate matters to the report of a union. -/
theorem reports_union (hPair : Option.Rel comparison.documents candidate candidate') {options options' : List Schema}
    {message : String} (hAccepted : acceptedByAny follow missing (siteOf checkers candidate) options =
      acceptedByAny follow' missing' (siteOf checkers' candidate') options') :
    comparison.reports candidate candidate' path
      (violationsAt follow missing (siteOf checkers candidate) path (.union options message))
      (violationsAt follow' missing' (siteOf checkers' candidate') path (.union options' message)) := by
  have hAbsent : (siteOf checkers candidate).isAbsent = (siteOf checkers' candidate').isAbsent := isAbsent_eq hPair
  rw [violationsAt, violationsAt, hAbsent, hAccepted]
  split
  · exact reports_missingAt
  split
  · exact reports_nil
  · exact reports_violationAt (by decide)

section Parts

variable (hParts : ∀ part part', candidateSize part < candidateSize candidate →
  Option.Rel comparison.documents part part' → ∀ path schema schema', comparison.schemas schema schema' →
    comparison.reports part part' path (checkers part path schema) (checkers' part' path schema'))

include hParts

theorem reports_elementViolations {elements elements' : List Json}
    (hCandidate : candidate = some (.array elements))
    (hElements : List.Forall₂ comparison.documents elements elements') {schemaAt schemaAt' : Nat → Option Schema}
    (hSchemas : ∀ index, Option.Rel comparison.schemas (schemaAt index) (schemaAt' index)) :
    comparison.reports (some (.array elements)) (some (.array elements')) path
      (elementViolations path schemaAt (elements.map fun document => checkers (some document)))
      (elementViolations path schemaAt' (elements'.map fun document => checkers' (some document))) := by
  rw [elementViolations_eq_flatMap, elementViolations_eq_flatMap]
  refine reports_flatMap (forall₂_zipIdx hElements 0) ?_
  rintro ⟨element, index⟩ hMem ⟨element', _⟩ hMem' ⟨hElement, rfl⟩
  have hSmaller : candidateSize (some element) < candidateSize candidate :=
    hCandidate ▸ candidateSize_element_lt (List.fst_mem_of_mem_zipIdx hMem)
  apply comparison.part (toString index)
  rw [Json.part?_array hMem, Json.part?_array hMem']
  have hSchema := hSchemas index
  generalize schemaAt index = first, schemaAt' index = second at hSchema ⊢
  cases hSchema with
  | none => exact reports_nil
  | some hSchema => exact hParts _ _ hSmaller (.some hElement) _ _ _ hSchema

/-- Both candidates are arrays, with elements that belong together, or neither is one. -/
theorem reports_array (hPair : Option.Rel comparison.documents candidate candidate') {element element' : Schema}
    (hElement : comparison.schemas element element') :
    comparison.reports candidate candidate' path
      (violationsAt follow missing (siteOf checkers candidate) path (.array element))
      (violationsAt follow' missing' (siteOf checkers' candidate') path (.array element')) := by
  cases hPair with
  | none => exact reports_wrongTypeAt .none "array"
  | some hDocuments =>
      cases comparison.document_cases hDocuments with
      | array hElements => exact reports_elementViolations hParts rfl hElements fun _ => .some hElement
      | _ => exact reports_wrongTypeAt (.some hDocuments) "array"

/-- Both candidates are arrays of the same length, or neither is one. -/
theorem reports_tuple (hPair : Option.Rel comparison.documents candidate candidate') {items items' : List Schema}
    {rest rest' : Option Schema} (hItems : List.Forall₂ comparison.schemas items items')
    (hRest : Option.Rel comparison.schemas rest rest') :
    comparison.reports candidate candidate' path
      (violationsAt follow missing (siteOf checkers candidate) path (.tuple items rest))
      (violationsAt follow' missing' (siteOf checkers' candidate') path (.tuple items' rest')) := by
  cases hPair with
  | none => exact reports_wrongTypeAt .none "array"
  | some hDocuments =>
      cases comparison.document_cases hDocuments with
      | array hElements =>
          have hOpen : rest.isNone = rest'.isNone := by cases hRest <;> rfl
          simp only [violationsAt, siteOf, List.length_map, hElements.length_eq, hItems.length_eq, hOpen]
          split
          · exact reports_violationAt (by decide)
          split
          · exact reports_violationAt (by decide)
          · exact reports_elementViolations hParts rfl hElements (forall₂_getElem?_or hItems hRest)
      | _ => exact reports_wrongTypeAt (.some hDocuments) "array"

/-- Fields that belong together are compared in their order, and are then arranged in another one. -/
theorem reports_fields {members members' : Entries Json} (hCandidate : candidate = some (.object members))
    (hMembers : ∀ name, Option.Rel comparison.documents (members.find? name) (members'.find? name))
    {fields matched fields' : Entries Schema}
    (hFields : Entries.Matched comparison.schemas fields matched)
    (hArranged : comparison.arranged matched fields') :
    comparison.reports (some (.object members)) (some (.object members')) path
      (fields.flatMap fun field => checkers (members.find? field.1) (path ++ [field.1]) field.2)
      (fields'.flatMap fun field => checkers' (members'.find? field.1) (path ++ [field.1]) field.2) := by
  refine comparison.arrange hArranged (reports_flatMap hFields ?_)
  rintro ⟨name, schema⟩ - ⟨_, schema'⟩ - ⟨rfl, hSchema⟩
  apply comparison.part name
  exact hParts _ _ (hCandidate ▸ candidateSize_member_lt name members) (hMembers name) _ _ _ hSchema

/-- The fields are compared first and the unknown keys behind them. -/
theorem reports_object (hPair : Option.Rel comparison.documents candidate candidate')
    (hMissing : candidate ≠ none → missing = checkers none) (hMissing' : candidate' ≠ none → missing' = checkers' none)
    {fields matched fields' : Entries Schema} {strict : Bool}
    (hFields : Entries.Matched comparison.schemas fields matched)
    (hArranged : comparison.arranged matched fields') :
    comparison.reports candidate candidate' path
      (violationsAt follow missing (siteOf checkers candidate) path (.object fields strict))
      (violationsAt follow' missing' (siteOf checkers' candidate') path (.object fields' strict)) := by
  cases hPair with
  | none => exact reports_wrongTypeAt .none "object"
  | some hDocuments =>
      cases comparison.document_cases hDocuments with
      | object hMembers =>
          have hNames : ∀ name, name ∈ fields.names ↔ name ∈ fields'.names := by
            rw [hFields.names_eq]
            exact comparison.arranged_names hArranged
          simp only [violationsAt, siteOf, fieldViolations_eq_flatMap (hMissing (by simp)),
            fieldViolations_eq_flatMap (hMissing' (by simp)),
            unknownKeysAt_mapValues fun document => checkers (some document),
            unknownKeysAt_mapValues fun document => checkers' (some document)]
          refine comparison.append (reports_fields hParts rfl hMembers hFields hArranged) ?_
          split
          · exact comparison.unknown hDocuments hNames
          · exact reports_nil
      | _ => exact reports_wrongTypeAt (.some hDocuments) "object"

end Parts

/-- What is found at one place belongs together, if that is so of the references followed and of the parts. -/
theorem reports_violationsAt (hPair : Option.Rel comparison.documents candidate candidate')
    (hFollow : ∀ path name, comparison.reports candidate candidate' path (follow path name) (follow' path name))
    (hMissing : candidate ≠ none → missing = checkers none) (hMissing' : candidate' ≠ none → missing' = checkers' none)
    (hParts : ∀ part part', candidateSize part < candidateSize candidate →
      Option.Rel comparison.documents part part' → ∀ path schema schema', comparison.schemas schema schema' →
        comparison.reports part part' path (checkers part path schema) (checkers' part' path schema'))
    {schema schema' : Schema} (hSchemas : comparison.schemas schema schema') (path : Path) :
    comparison.reports candidate candidate' path
      (violationsAt follow missing (siteOf checkers candidate) path schema)
      (violationsAt follow' missing' (siteOf checkers' candidate') path schema') := by
  induction hSize : sizeOf schema using Nat.strong_induction_on generalizing schema schema' path with
  | _ size ih =>
      subst hSize
      cases comparison.schema_cases hSchemas with
      | leaf hLeaf => exact reports_leaf hPair hLeaf
      | @optional inner inner' hInner =>
          have hAbsent : (siteOf checkers candidate).isAbsent = (siteOf checkers' candidate').isAbsent :=
            isAbsent_eq hPair
          rw [violationsAt, violationsAt, hAbsent]
          split
          · exact reports_nil
          · refine ih _ ?_ hInner path rfl
            simp
      | union hOptions =>
          refine reports_union hPair (acceptedByAny_eq hOptions fun option hMem option' hOption => ?_)
          refine ih _ ?_ hOption [] rfl
          have hSmaller := List.sizeOf_lt_of_mem hMem
          simp only [Schema.union.sizeOf_spec]
          omega
      | array hElement => exact reports_array hParts hPair hElement
      | tuple hItems hRest => exact reports_tuple hParts hPair hItems hRest
      | object hFields hArranged => exact reports_object hParts hPair hMissing hMissing' hFields hArranged
      | reference name => exact hFollow path name

variable {table table' : SchemaTable}

/-- The outer induction is on the first candidate, since the parts are checked with the full limit; the inner one is on
the number of references that are followed at its own place. -/
theorem reports_placeChecker (hTables : ∀ name, Option.Rel comparison.schemas (table.find? name) (table'.find? name))
    (limit hops : Nat) (hPair : Option.Rel comparison.documents candidate candidate') {schema schema' : Schema}
    (hSchemas : comparison.schemas schema schema') (path : Path) :
    comparison.reports candidate candidate' path (placeChecker table limit hops candidate path schema)
      (placeChecker table' limit hops candidate' path schema') := by
  induction hSize : candidateSize candidate using Nat.strong_induction_on
    generalizing candidate candidate' hops path schema schema' with
  | _ size ih =>
      subst hSize
      have hParts : ∀ part part', candidateSize part < candidateSize candidate →
          Option.Rel comparison.documents part part' → ∀ path schema schema', comparison.schemas schema schema' →
            comparison.reports part part' path (checkerOf table limit part path schema)
              (checkerOf table' limit part' path schema') := by
        intro part part' hSmaller hPair path schema schema' hSchemas
        rw [checkerOf_eq_placeChecker, checkerOf_eq_placeChecker]
        exact ih _ hSmaller (limit + 1) hPair hSchemas path rfl
      induction hops generalizing path schema schema' with
      | zero =>
          rw [placeChecker_zero, placeChecker_zero]
          exact reports_violationsAt hPair (fun _ _ => reports_nil) (missingFor_of_ne_none table limit)
            (missingFor_of_ne_none table' limit) hParts hSchemas path
      | succ hops ihHops =>
          rw [placeChecker_succ, placeChecker_succ]
          refine reports_violationsAt hPair (fun path name => ?_) (missingFor_of_ne_none table limit)
            (missingFor_of_ne_none table' limit) hParts hSchemas path
          have hTargets := hTables name
          generalize table.find? name = target, table'.find? name = target' at hTargets ⊢
          cases hTargets with
          | none => exact reports_nil
          | some hTarget => exact ihHops hTarget path

variable (comparison) in
/-- Tables that belong together are of the same size, so that as many references are followed with both. -/
theorem reports_check (hTables : Entries.Matched comparison.schemas table.entries table'.entries)
    (hPair : Option.Rel comparison.documents candidate candidate') {schema schema' : Schema}
    (hSchemas : comparison.schemas schema schema') :
    comparison.reports candidate candidate' [] (check table schema candidate) (check table' schema' candidate') := by
  have hLimit : table.size = table'.size := hTables.length_eq
  rw [check, check, hLimit, checkerOf_eq_placeChecker, checkerOf_eq_placeChecker]
  exact reports_placeChecker hTables.find? _ _ hPair hSchemas []

end Comparison

end SchemaForge
