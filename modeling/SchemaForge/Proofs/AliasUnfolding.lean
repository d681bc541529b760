import Mathlib.Logic.Relation
import SchemaForge.Proofs.BuiltArtifacts
import SchemaForge.Proofs.Conformance
import SchemaForge.Proofs.PrintedTokens

/-! A name for a type means what the type means. The schemas of a reference and of the type behind it may
differ in form: an enumeration, a reference that is followed while checking, or a union that becomes an
enumeration once a member is spelled out. What they accept is the same, so references may be replaced by
their types anywhere, also where the type refers to itself. Messages are left out of account. The one exception is the
rest element of a tuple: an array written there gives the schema of its elements, a name for it gives itself. -/
namespace SchemaForge

/-- One reference to the name is replaced by the type. The rest element of a tuple, which is written as an
array, is not replaced as a whole. -/
inductive UnfoldsOnce (name : String) (body : TypeTerm) : TypeTerm → TypeTerm → Prop where
  | here : UnfoldsOnce name body (.reference name) body
  | element {element element' : TypeTerm} (inner : UnfoldsOnce name body element element') :
      UnfoldsOnce name body (.array element) (.array element')
  | item {before behind : List TypeTerm} {rest : Option TypeTerm} {item item' : TypeTerm}
      (inner : UnfoldsOnce name body item item') :
      UnfoldsOnce name body (.tuple (before ++ item :: behind) rest) (.tuple (before ++ item' :: behind) rest)
  | rest {elements : List TypeTerm} {term term' : TypeTerm} (hOther : term ≠ .reference name)
      (inner : UnfoldsOnce name body term term') :
      UnfoldsOnce name body (.tuple elements (some term)) (.tuple elements (some term'))
  | member {before behind : List TypeTerm} {member member' : TypeTerm}
      (inner : UnfoldsOnce name body member member') :
      UnfoldsOnce name body (.union (before ++ member :: behind)) (.union (before ++ member' :: behind))

/-- Any number of references to the name are replaced by the type, one after the other. -/
def Unfolds (name : String) (body : TypeTerm) : TypeTerm → TypeTerm → Prop :=
  Relation.ReflTransGen (UnfoldsOnce name body)

namespace Catalog

variable (catalog : Catalog) (table : SchemaTable) (subject : String)

/-- The type asks nothing else of a candidate than the other one does. -/
def SameDemands (term term' : TypeTerm) (subject subject' : String) : Prop :=
  ∀ candidate, Accepts table (catalog.schemaOf subject term) candidate ↔
    Accepts table (catalog.schemaOf subject' term') candidate

theorem accepts_literal_text (value : String) (candidate : Option Json) :
    Accepts table (.literal (.text value)) candidate ↔ candidate = some (.string value) := by
  rw [accepts_iff_demands]
  constructor
  · rintro ⟨document, rfl, hDenotes⟩
    cases document <;> simp_all [Literal.Denotes]
  · rintro rfl
    exact ⟨.string value, rfl, rfl⟩

/-- Where all members are literal texts, they are those of the values. -/
theorem mapM_textLiteral?_eq_some {members : List TypeTerm} {values : List String}
    (hValues : members.mapM TypeTerm.textLiteral? = some values) :
    members = values.map fun value => .literal (.text value) := by
  induction members generalizing values with
  | nil =>
      obtain rfl : [] = values := by simpa using hValues
      rfl
  | cons member members ih =>
      simp only [List.mapM_cons, Option.bind_eq_bind, Option.bind_eq_some_iff, Option.pure_def,
        Option.some.injEq] at hValues
      obtain ⟨value, hValue, further, hFurther, rfl⟩ := hValues
      have hMember : member = .literal (.text value) := by
        unfold TypeTerm.textLiteral? at hValue
        split at hValue
        · rw [Option.some.inj hValue]
        · cases hValue
      rw [hMember, ih hFurther, List.map_cons]

/-- A union of types accepts what one of them accepts, but not absence. It makes no difference whether the
members are text literals and the union an enumeration. -/
theorem accepts_union (members : List TypeTerm) (candidate : Option Json) :
    Accepts table (catalog.schemaOf subject (.union members)) candidate ↔
      candidate ≠ none ∧ ∃ member ∈ members, Accepts table (catalog.schemaOf subject member) candidate := by
  cases hTexts : TypeTerm.textLiterals? members with
  | none =>
      rw [schemaOf, hTexts, accepts_iff_demands, schemasOf_eq_map]
      simp [Demands]
  | some values =>
      have hMembers : members = values.map fun value => .literal (.text value) := by
        apply mapM_textLiteral?_eq_some
        unfold TypeTerm.textLiterals? at hTexts
        split at hTexts
        · cases hTexts
        · exact hTexts
      rw [schemaOf, hTexts, accepts_iff_demands, hMembers]
      simp only [enumerationOf, Demands, List.mem_map, exists_exists_and_eq_and, schemaOf, accepts_literal_text]
      constructor
      · rintro ⟨value, hMem, rfl⟩
        exact ⟨by simp, value, hMem, rfl⟩
      · rintro ⟨-, value, hMem, rfl⟩
        exact ⟨value, hMem, rfl⟩

theorem accepts_array (element : Schema) (candidate : Option Json) :
    Accepts table (.array element) candidate ↔
      ∃ elements, candidate = some (.array elements) ∧
        ∀ document ∈ elements, Accepts table element (some document) := by
  rw [accepts_iff_demands]
  exact Iff.rfl

/-- A tuple asks for its elements in order, and for further ones only if there is a rest. -/
theorem accepts_tuple (elements : List TypeTerm) (rest : Option TypeTerm) (candidate : Option Json) :
    Accepts table (catalog.schemaOf subject (.tuple elements rest)) candidate ↔
      ∃ documents, candidate = some (.array documents) ∧ elements.length ≤ documents.length ∧
        (rest = none → documents.length = elements.length) ∧
        ∀ (index : Nat) (document : Json) (term : TypeTerm), documents[index]? = some document →
          elements[index]?.or (rest.map TypeTerm.restElement) = some term →
            Accepts table (catalog.schemaOf subject term) (some document) := by
  rw [schemaOf_tuple, accepts_iff_demands]
  have hSchema (index : Nat) : (elements.map (catalog.schemaOf subject))[index]?.or
        (rest.map fun term => catalog.schemaOf subject term.restElement) =
      (elements[index]?.or (rest.map TypeTerm.restElement)).map (catalog.schemaOf subject) := by
    rw [List.getElem?_map, Option.map_or, Option.map_map]
    rfl
  simp only [Demands, List.length_map, Option.map_eq_none_iff, hSchema, Option.map_eq_some_iff]
  constructor
  · rintro ⟨documents, hArray, hLong, hExact, hAll⟩
    exact ⟨documents, hArray, hLong, hExact, fun index document term hGet hTerm =>
      hAll index document _ hGet ⟨term, hTerm, rfl⟩⟩
  · rintro ⟨documents, hArray, hLong, hExact, hAll⟩
    refine ⟨documents, hArray, hLong, hExact, ?_⟩
    rintro index document _ hGet ⟨term, hTerm, rfl⟩
    exact hAll index document term hGet hTerm

variable {catalog table}

/-- Types that ask the same of every candidate do so as elements of an array. -/
theorem SameDemands.array {term term' : TypeTerm} {subject subject' : String}
    (hSame : SameDemands catalog table term term' subject subject') :
    SameDemands catalog table (.array term) (.array term') subject subject' := by
  intro candidate
  simp only [schemaOf, accepts_array, hSame _]

/-- The elements that two rest elements stand for are asked the same, if both are arrays or none is. An array of
one document tells what its element type asks of that document. -/
theorem SameDemands.restElement {term term' : TypeTerm} {subject subject' : String}
    (hSame : SameDemands catalog table term term' subject subject')
    (hArray : (∃ element, term = .array element) ↔ ∃ element, term' = .array element) (document : Json) :
    Accepts table (catalog.schemaOf subject term.restElement) (some document) ↔
      Accepts table (catalog.schemaOf subject' term'.restElement) (some document) := by
  by_cases hTerm : ∃ element, term = .array element
  · obtain ⟨element', rfl⟩ := hArray.mp hTerm
    obtain ⟨element, rfl⟩ := hTerm
    have hSingle := hSame (some (.array [document]))
    simpa [schemaOf, accepts_array, TypeTerm.restElement] using hSingle
  · have hTerm' : ¬ ∃ element, term' = .array element := fun h => hTerm (hArray.mpr h)
    have hSelf {other : TypeTerm} (hOther : ¬ ∃ element, other = .array element) : other.restElement = other := by
      cases other with
      | array element => exact absurd ⟨element, rfl⟩ hOther
      | _ => rfl
    rw [hSelf hTerm, hSelf hTerm']
    exact hSame (some document)

/-- Tuples ask the same when the types at every index do. -/
theorem SameDemands.tuple {elements elements' : List TypeTerm} {rest rest' : Option TypeTerm}
    {subject subject' : String} (hLength : elements.length = elements'.length)
    (hRest : rest = none ↔ rest' = none)
    (hTypes : ∀ (index : Nat) (term term' : TypeTerm),
      elements[index]?.or (rest.map TypeTerm.restElement) = some term →
      elements'[index]?.or (rest'.map TypeTerm.restElement) = some term' → ∀ document,
        (Accepts table (catalog.schemaOf subject term) (some document) ↔
          Accepts table (catalog.schemaOf subject' term') (some document))) :
    SameDemands catalog table (.tuple elements rest) (.tuple elements' rest') subject subject' := by
  have hBoth (index : Nat) : elements[index]?.or (rest.map TypeTerm.restElement) = none ↔
      elements'[index]?.or (rest'.map TypeTerm.restElement) = none := by
    simp [Option.or_eq_none_iff, hLength, hRest]
  have hOther {index : Nat} {term : TypeTerm}
      (hTerm : elements[index]?.or (rest.map TypeTerm.restElement) = some term) :
      ∃ term', elements'[index]?.or (rest'.map TypeTerm.restElement) = some term' := by
    rw [← Option.ne_none_iff_exists', Ne, ← hBoth, hTerm]
    exact Option.some_ne_none term
  have hOther' {index : Nat} {term' : TypeTerm}
      (hTerm : elements'[index]?.or (rest'.map TypeTerm.restElement) = some term') :
      ∃ term, elements[index]?.or (rest.map TypeTerm.restElement) = some term := by
    rw [← Option.ne_none_iff_exists', Ne, hBoth, hTerm]
    exact Option.some_ne_none term'
  intro candidate
  rw [accepts_tuple, accepts_tuple, hLength]
  constructor
  · rintro ⟨documents, hArray, hLong, hExact, hAll⟩
    refine ⟨documents, hArray, hLong, fun hNone => hExact (hRest.mpr hNone), ?_⟩
    intro index document term' hGet hTerm'
    obtain ⟨term, hTerm⟩ := hOther' hTerm'
    exact (hTypes index term term' hTerm hTerm' document).mp (hAll index document term hGet hTerm)
  · rintro ⟨documents, hArray, hLong, hExact, hAll⟩
    refine ⟨documents, hArray, hLong, fun hNone => hExact (hRest.mp hNone), ?_⟩
    intro index document term hGet hTerm
    obtain ⟨term', hTerm'⟩ := hOther hTerm
    exact (hTypes index term term' hTerm hTerm' document).mpr (hAll index document term' hGet hTerm')

/-- The subject of a type occurs only in messages. -/
theorem sameDemands_subject (term : TypeTerm) (subject subject' : String) :
    SameDemands catalog table term term subject subject' := by
  induction term using TypeTerm.induction_parts with
  | array element ih => exact ih.array
  | tuple elements rest ihElements ihRest =>
      refine SameDemands.tuple rfl Iff.rfl (fun index term term' hTerm hTerm' document => ?_)
      obtain rfl := Option.some.inj (hTerm.symm.trans hTerm')
      rcases Option.or_eq_some_iff.mp hTerm with hElement | ⟨-, hLast⟩
      · exact ihElements term (List.mem_of_getElem? hElement) (some document)
      · obtain ⟨last, hMem, rfl⟩ := Option.map_eq_some_iff.mp hLast
        exact (ihRest last hMem).restElement Iff.rfl document
  | union members ih =>
      intro candidate
      rw [accepts_union, accepts_union]
      refine and_congr_right fun _ => exists_congr fun member => and_congr_right fun hMem => ?_
      exact ih member hMem candidate
  | primitive kind => intro candidate; cases kind <;> exact Iff.rfl
  | literal value => exact fun _ => Iff.rfl
  | reference name => exact fun _ => Iff.rfl
  | date => exact fun _ => Iff.rfl
  | anyObject => exact fun _ => Iff.rfl
  | unknown => exact fun _ => Iff.rfl

end Catalog

section Unfolding

variable {policy : Policy} {declarations : List Declaration} {name : String} {body : TypeTerm}

/-- The name stands for the type: it is declared so, for internal use, and is not the built-in name of dates. -/
structure StandsFor (declarations : List Declaration) (name : String) (body : TypeTerm) : Prop where
  declared : ∃ declaration, (Catalog.ofDeclarations declarations).find? name = some declaration ∧
    declaration.body = .alias body ∧ declaration.exported = false
  notBuiltIn : name ≠ "Date"

/-- A reference asks for what the declared type asks for. -/
theorem StandsFor.sameDemands_reference (hStands : StandsFor declarations name body) (subject : String) :
    Catalog.SameDemands (Catalog.ofDeclarations declarations)
      (Artifacts.build policy (Catalog.ofDeclarations declarations)).schemas (.reference name) body
      subject subject := by
  obtain ⟨⟨declaration, hFind, hBody, hInternal⟩, hDate⟩ := hStands
  have hEntry : (name, declaration) ∈ (Catalog.ofDeclarations declarations).entries :=
    (OrderedMap.mem_entries_iff_find? _ _ _).mpr hFind
  have hName : declaration.name = name := Catalog.name_of_mem_entries hEntry
  intro candidate
  refine Iff.trans ?_ (Catalog.sameDemands_subject body name subject candidate)
  rw [Catalog.schemaOf]
  cases hTexts : declaration.textLiteralUnion? with
  | some values =>
      -- The enumeration that is put in place of the reference is the schema of the type itself.
      obtain ⟨members, rfl, hMembers⟩ : ∃ members, body = .union members ∧
          TypeTerm.textLiterals? members = some values := by
        rw [Declaration.textLiteralUnion?, hBody] at hTexts
        split at hTexts
        · rename_i members hUnion
          exact ⟨members, by simpa using hUnion, hTexts⟩
        · cases hTexts
      simp [Catalog.schemaOfReference, hDate, hFind, hTexts, Catalog.schemaOf, hMembers]
  | none =>
      have hReference : (Catalog.ofDeclarations declarations).schemaOfReference name = .reference name := by
        simp [Catalog.schemaOfReference, hDate, hFind, hTexts]
      have hDeclared : declaration ∈ (Catalog.ofDeclarations declarations).declarations :=
        List.mem_map.mpr ⟨_, hEntry, rfl⟩
      have hTable := @Artifacts.find?_schemas_build policy declarations declaration hDeclared
      have hSchema : (Catalog.ofDeclarations declarations).schemaOfDeclaration policy declaration =
          (Catalog.ofDeclarations declarations).schemaOf name body := by
        rw [Catalog.schemaOfDeclaration, hBody, hInternal, hName]
      rw [hName, hSchema] at hTable
      rw [hReference, accepts_iff_demands]
      simp [Demands, hTable]

/-- Replacing one reference changes nothing. The induction follows the way to the reference. -/
theorem UnfoldsOnce.sameDemands (hStands : StandsFor declarations name body) {term unfolded : TypeTerm}
    (hUnfolds : UnfoldsOnce name body term unfolded) (subject : String) :
    Catalog.SameDemands (Catalog.ofDeclarations declarations)
      (Artifacts.build policy (Catalog.ofDeclarations declarations)).schemas term unfolded subject subject := by
  induction hUnfolds with
  | here => exact hStands.sameDemands_reference subject
  | element inner ih => exact ih.array
  | @item before behind rest item item' inner ih =>
      refine Catalog.SameDemands.tuple (by simp) Iff.rfl (fun index term term' hTerm hTerm' document => ?_)
      -- Only at the index of the item are the two tuples different.
      by_cases hIndex : index = before.length
      · subst hIndex
        simp only [List.getElem?_append_right (Nat.le_refl _), Nat.sub_self, List.getElem?_cons_zero,
          Option.some_or, Option.some.injEq] at hTerm hTerm'
        subst hTerm hTerm'
        exact ih (some document)
      · have hSame : (before ++ item :: behind)[index]? = (before ++ item' :: behind)[index]? := by
          rcases Nat.lt_or_gt_of_ne hIndex with hBefore | hBehind
          · rw [List.getElem?_append_left hBefore, List.getElem?_append_left hBefore]
          · obtain ⟨further, rfl⟩ := Nat.exists_eq_add_of_lt hBehind
            simp [List.getElem?_append_right, Nat.add_assoc]
        rw [hSame] at hTerm
        obtain rfl := Option.some.inj (hTerm.symm.trans hTerm')
        exact Iff.rfl
  | @rest elements term term' hOther inner ih =>
      refine Catalog.SameDemands.tuple rfl (by simp) (fun index found found' hFound hFound' document => ?_)
      cases hElement : elements[index]? with
      | some element =>
          simp only [hElement, Option.some_or, Option.some.injEq] at hFound hFound'
          subst hFound hFound'
          exact Iff.rfl
      | none =>
          simp only [hElement, Option.none_or, Option.map_some, Option.some.injEq] at hFound hFound'
          subst hFound hFound'
          refine ih.restElement ?_ document
          cases inner with
          | here => exact absurd rfl hOther
          | _ => simp
  | @member before behind member member' inner ih =>
      intro candidate
      rw [Catalog.accepts_union, Catalog.accepts_union]
      simp only [List.mem_append, List.mem_cons, or_and_right, exists_or, exists_eq_left, ih candidate]

end Unfolding

/-- A name is transparent: wherever references to it are replaced by the type it stands for, the same
candidates are accepted, absence included. The type may refer to itself, to names that are not declared, or be
a union of texts. -/
theorem check_unfolded_eq_nil_iff (policy : Policy) {declarations : List Declaration} {name : String}
    {body : TypeTerm} (hStands : StandsFor declarations name body) {term unfolded : TypeTerm}
    (hUnfolds : Unfolds name body term unfolded) (subject : String) (candidate : Option Json) :
    let catalog := Catalog.ofDeclarations declarations
    let table := (Artifacts.build policy catalog).schemas
    check table (catalog.schemaOf subject term) candidate = [] ↔
      check table (catalog.schemaOf subject unfolded) candidate = [] := by
  intro catalog table
  induction hUnfolds with
  | refl => exact Iff.rfl
  | tail _ hLast ih => exact ih.trans (hLast.sameDemands hStands subject candidate)

/-- A recursive type of trees, spelled out once in a tuple, both as an item and in the rest element. -/
theorem check_unfolded_tree :
    let tree : TypeTerm := .union [.literal (.text "leaf"), .array (.reference "Tree"), .reference "Graft"]
    let declarations : List Declaration := [⟨"Tree", false, .alias tree, Position.start⟩]
    let term : TypeTerm → TypeTerm := fun inner => .tuple [inner] (some (.array inner))
    let catalog := Catalog.ofDeclarations declarations
    let table := (Artifacts.build Policy.standard catalog).schemas
    let grove : Json := .array [.string "leaf", .array [.string "leaf", .array []]]
    StandsFor declarations "Tree" tree ∧ Unfolds "Tree" tree (term (.reference "Tree")) (term tree) ∧
      (check table (catalog.schemaOf "grove" (term (.reference "Tree"))) (some grove) = [] ↔
        check table (catalog.schemaOf "grove" (term tree)) (some grove) = []) := by
  intro tree declarations term catalog table grove
  have hStands : StandsFor declarations "Tree" tree := ⟨⟨_, rfl, rfl, rfl⟩, by decide⟩
  have hUnfolds : Unfolds "Tree" tree (term (.reference "Tree")) (term tree) := by
    have hItem : UnfoldsOnce "Tree" tree (term (.reference "Tree"))
        (.tuple [tree] (some (.array (.reference "Tree")))) := @UnfoldsOnce.item _ _ [] [] _ _ _ .here
    exact .tail (.single hItem) (.rest (by simp) (.element .here))
  exact ⟨hStands, hUnfolds, check_unfolded_eq_nil_iff Policy.standard hStands hUnfolds "grove" (some grove)⟩

section Rests

variable {declarations : List Declaration} {name : String} {element : TypeTerm}

/-- Where no element is left for the rest, it makes no difference what the rest is. -/
theorem Catalog.accepts_tuple_of_short {catalog : Catalog} {table : SchemaTable} {subject : String}
    {elements : List TypeTerm} {rest rest' : TypeTerm} {candidate : Option Json}
    (hShort : ∀ documents, candidate = some (.array documents) → documents.length ≤ elements.length)
    (hAccepts : Accepts table (catalog.schemaOf subject (.tuple elements (some rest))) candidate) :
    Accepts table (catalog.schemaOf subject (.tuple elements (some rest'))) candidate := by
  obtain ⟨documents, rfl, hLong, -, hAll⟩ := (accepts_tuple _ _ _ _ _ _).mp hAccepts
  refine (accepts_tuple _ _ _ _ _ _).mpr ⟨documents, rfl, hLong, by simp, fun index document term hGet hTerm => ?_⟩
  obtain ⟨hIndex, -⟩ := List.getElem?_eq_some_iff.mp hGet
  have hElement : elements[index]?.isSome = true := by
    simpa using Nat.lt_of_lt_of_le hIndex (hShort documents rfl)
  refine hAll index document term hGet ?_
  rwa [Option.or_of_isSome hElement] at hTerm ⊢

/-- A name for an array type, as the rest element of a tuple, asks every further element to be an array, as the rest
element does that is written as an array of arrays. Only of arrays without further elements it asks the same as the
array type itself does in its place. -/
theorem check_tuple_rest_named (policy : Policy) (hStands : StandsFor declarations name (.array element))
    (elements : List TypeTerm) (subject : String) (candidate : Option Json) :
    let catalog := Catalog.ofDeclarations declarations
    let table := (Artifacts.build policy catalog).schemas
    let withRest := fun rest => catalog.schemaOf subject (.tuple elements (some rest))
    (check table (withRest (.reference name)) candidate = [] ↔
      check table (withRest (.array (.array element))) candidate = []) ∧
    ((∀ documents, candidate = some (.array documents) → documents.length ≤ elements.length) →
      (check table (withRest (.reference name)) candidate = [] ↔
        check table (withRest (.array element)) candidate = [])) := by
  intro catalog table withRest
  refine ⟨?_, fun hShort => ⟨Catalog.accepts_tuple_of_short hShort, Catalog.accepts_tuple_of_short hShort⟩⟩
  refine Catalog.SameDemands.tuple rfl (by simp) (fun index term term' hTerm hTerm' document => ?_) candidate
  cases hElement : elements[index]? with
  | some item =>
      simp only [hElement, Option.some_or, Option.some.injEq] at hTerm hTerm'
      subst hTerm hTerm'
      exact Iff.rfl
  | none =>
      simp only [hElement, Option.none_or, Option.map_some, Option.some.injEq, TypeTerm.restElement] at hTerm hTerm'
      subst hTerm hTerm'
      exact hStands.sameDemands_reference subject (some document)

def numbersSample : List Declaration :=
  [⟨"Numbers", false, .alias (.array (.primitive .number)), Position.start⟩]

/-- A tuple of a text and any number of further elements, with the given rest element. -/
def textAndRest (rest : TypeTerm) : Schema :=
  (Catalog.ofDeclarations numbersSample).schemaOf "row" (.tuple [.primitive .string] (some rest))

theorem standsFor_numbersSample : StandsFor numbersSample "Numbers" (.array (.primitive .number)) :=
  ⟨⟨_, rfl, rfl, rfl⟩, by decide⟩

/-- An array in the place of each number is accepted, as with arrays of arrays. -/
theorem check_tuple_rest_named_numbers :
    let table : SchemaTable := (Artifacts.build Policy.standard (Catalog.ofDeclarations numbersSample)).schemas
    let row : Json := .array [.string "a", .array [.number (.integer 1)]]
    StandsFor numbersSample "Numbers" (.array (.primitive .number)) ∧
      check table (textAndRest (.array (.array (.primitive .number)))) (some row) = [] ∧
      check table (textAndRest (.reference "Numbers")) (some row) = [] := by
  intro table row
  have hWritten : check table (textAndRest (.array (.array (.primitive .number)))) (some row) = [] := by decide
  have hNamed := check_tuple_rest_named Policy.standard standsFor_numbersSample [.primitive .string] "row" (some row)
  exact ⟨standsFor_numbersSample, hWritten, hNamed.1.mpr hWritten⟩

/-- Under a name the numbers of a row are refused one by one, in place they are accepted. -/
theorem check_tuple_rest_refuses_named_numbers :
    let table : SchemaTable := (Artifacts.build Policy.standard (Catalog.ofDeclarations numbersSample)).schemas
    let row : Json := .array [.string "a", .number (.integer 1)]
    StandsFor numbersSample "Numbers" (.array (.primitive .number)) ∧
      check table (textAndRest (.array (.primitive .number))) (some row) = [] ∧
      check table (textAndRest (.reference "Numbers")) (some row) =
        [⟨"1", "Expected array, received number", .wrongType⟩] := by
  intro table row
  exact ⟨standsFor_numbersSample, by decide, by decide⟩

end Rests

end SchemaForge
