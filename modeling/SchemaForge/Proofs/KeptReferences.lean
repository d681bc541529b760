import SchemaForge.Proofs.AliasUnfolding
import SchemaForge.Proofs.ReachableDeclarations

/-! References that outlast compiling. A schema refers to the names that its type refers to, in the same order and as
often, except for those that are settled when the type is compiled: the name that is built in, names that nobody
declared, and names of unions of texts, whose enumeration takes the place of the reference. -/
namespace SchemaForge

namespace TypeTerm

theorem mapM_textLiteral?_map (values : List String) :
    (values.map fun value => literal (.text value)).mapM textLiteral? = some values := by
  induction values with
  | nil => rfl
  | cons value values ih => simp [textLiteral?, ih]

/-- A union is one of texts if it has members and all of them are literal texts. -/
theorem textLiterals?_eq_some_iff {members : List TypeTerm} {values : List String} :
    textLiterals? members = some values ↔
      values ≠ [] ∧ members = values.map fun value => .literal (.text value) := by
  unfold textLiterals?
  constructor
  · intro hTexts
    split at hTexts
    case isTrue hEmpty => cases hTexts
    case isFalse hSome =>
      have hMembers := Catalog.mapM_textLiteral?_eq_some hTexts
      refine ⟨?_, hMembers⟩
      rintro rfl
      exact hSome (by rw [hMembers]; rfl)
  · rintro ⟨hSome, rfl⟩
    rw [if_neg (by simpa using hSome)]
    exact mapM_textLiteral?_map values

/-- The references of a tuple are those of its elements, in their order, and of its rest. -/
theorem references_tuple (elements : List TypeTerm) (rest : Option TypeTerm) :
    (tuple elements rest).references = elements.flatMap references ++ rest.elim [] references := by
  cases rest <;> simp [references, referencesOfAll_eq_flatMap]

/-- Texts refer to nothing, so nothing is lost where an enumeration takes their place. -/
theorem references_union_of_textLiterals? {members : List TypeTerm} {values : List String}
    (hTexts : textLiterals? members = some values) : (union members).references = [] := by
  obtain ⟨-, rfl⟩ := textLiterals?_eq_some_iff.mp hTexts
  simp [references, referencesOfAll_eq_flatMap]

end TypeTerm

/-- The declaration is a union of texts and of nothing else. A union without members is none. -/
def Declaration.IsTextUnion (declaration : Declaration) : Prop :=
  ∃ values, values ≠ [] ∧ declaration.body = .alias (.union (values.map fun value => .literal (.text value)))

/-- The computed test finds exactly the unions of texts. -/
theorem Declaration.isSome_textLiteralUnion?_iff (declaration : Declaration) :
    declaration.textLiteralUnion?.isSome ↔ declaration.IsTextUnion := by
  obtain ⟨name, exported, body, position⟩ := declaration
  simp only [Option.isSome_iff_exists, textLiteralUnion?, IsTextUnion]
  apply exists_congr
  intro values
  split
  case h_1 members => rw [TypeTerm.textLiterals?_eq_some_iff, Body.alias.injEq, TypeTerm.union.injEq]
  case h_2 hOther =>
    constructor
    · intro hNone
      cases hNone
    · rintro ⟨-, hBody⟩
      exact (hOther _ hBody).elim

instance (declaration : Declaration) : Decidable declaration.IsTextUnion :=
  decidable_of_iff _ declaration.isSome_textLiteralUnion?_iff

namespace Catalog

variable (catalog : Catalog)

/-- A reference to the name is settled when a type is compiled: the name is built in, nobody declared it, or it stands
for a union of texts. -/
def Settles (name : String) : Prop :=
  name = "Date" ∨ catalog.find? name = none ∨ ∃ declaration ∈ catalog.find? name, declaration.IsTextUnion

instance (name : String) : Decidable (catalog.Settles name) :=
  inferInstanceAs (Decidable (_ ∨ _ ∨ _))

/-- A reference stays one exactly if it is not settled. -/
theorem references_schemaOfReference (name : String) :
    (catalog.schemaOfReference name).references = [name].filter fun name => ¬ catalog.Settles name := by
  unfold schemaOfReference
  split
  case isTrue hDate => simp [Settles, hDate, Schema.references]
  case isFalse hDate =>
    cases hFind : catalog.find? name with
    | none => simp [Settles, hFind, Schema.references]
    | some declaration =>
        have hSettles : catalog.Settles name ↔ declaration.textLiteralUnion?.isSome := by
          simp [Settles, hDate, hFind, declaration.isSome_textLiteralUnion?_iff]
        cases hTexts : declaration.textLiteralUnion? with
        | some values => simp [hSettles, hTexts, enumerationOf, Schema.references]
        | none => simp [hSettles, hTexts, Schema.references]

/-- The schema of a type refers to what the type refers to and is not settled, in the same order and as often. The
induction is over the type, and each part gives its references in the place where the type has them. -/
theorem references_schemaOf (subject : String) (term : TypeTerm) :
    (catalog.schemaOf subject term).references = term.references.filter fun name => ¬ catalog.Settles name := by
  induction term using TypeTerm.induction_parts with
  | array element ih =>
      rw [schemaOf, Schema.references, TypeTerm.references]
      exact ih
  | tuple elements rest ihElements ihRest =>
      have hElements := List.flatMap_congr ihElements
      have hRest : (rest.map fun term => catalog.schemaOf subject term.restElement).elim [] Schema.references =
          (rest.elim [] TypeTerm.references).filter fun name => ¬ catalog.Settles name := by
        cases rest with
        | none => rfl
        | some term =>
            have hTerm := ihRest term rfl
            cases term with
            | array element =>
                rw [schemaOf, Schema.references] at hTerm
                exact hTerm
            | _ => exact hTerm
      rw [schemaOf_tuple, Schema.references_tuple, TypeTerm.references_tuple, List.filter_append, List.filter_flatMap,
        List.flatMap_map, hElements, hRest]
  | union members ih =>
      rw [schemaOf]
      cases hTexts : TypeTerm.textLiterals? members with
      | some values =>
          rw [TypeTerm.references_union_of_textLiterals? hTexts]
          rfl
      | none =>
          simp only [Schema.references, Schema.referencesOfAll_eq_flatMap, schemasOf_eq_map, TypeTerm.references,
            TypeTerm.referencesOfAll_eq_flatMap, List.filter_flatMap, List.flatMap_map]
          exact List.flatMap_congr ih
  | reference name => exact catalog.references_schemaOfReference name
  | primitive kind => cases kind <;> rfl
  | literal value => rfl
  | date => rfl
  | anyObject => rfl
  | unknown => rfl

end Catalog

end SchemaForge
