import SchemaForge.Proofs.AliasUnfolding
import SchemaForge.Proofs.CircularTypes
import SchemaForge.Proofs.ReachableDeclarations
import SchemaForge.Proofs.ServedTypes
import SchemaForge.Proofs.WarningBudget

/-! No type is given up in silence. A place of a schema accepts anything where the declared type is unknown, or where
it refers to a name that nobody declared. The first are paid for while the source is scanned, the second while it is
compiled. On the way to the table such places may get lost, since declarations and properties replace one another,
but none is added. Without a warning a type can still accept everything, but only one that leads back to itself. -/
namespace SchemaForge

namespace Schema

end Schema

namespace Catalog

section Types

variable (catalog : Catalog)

variable (policy : Policy) (exported : Bool)

end Types

end Catalog

namespace Artifacts

/-- All schemas of the table and all schemas in them. -/
def nodes (artifacts : Artifacts) : List Schema :=
  artifacts.schemas.values.flatMap Schema.nodes

end Artifacts

namespace Compilation

variable {policy : Policy} {origin source : String} {artifacts : Artifacts}

/-- A source that compiles was scanned, and the warnings are those of all stages. -/
theorem exists_scan_of_ofText (hOutcome : (ofText policy origin source).outcome = .ok artifacts) :
    ∃ declarations, (Grammar.scan source).outcome = .ok declarations ∧
      artifacts = Artifacts.build policy (Catalog.ofDeclarations declarations) ∧
      (Grammar.scan source).warnings.length +
          (Artifacts.buildWarnings policy (Catalog.ofDeclarations declarations)).length ≤
        (ofText policy origin source).warnings.length := by
  cases hScan : (Grammar.scan source).outcome with
  | error error =>
      rw [outcome_ofText_of_refused policy origin source hScan] at hOutcome
      cases hOutcome
  | ok declarations =>
      have hAll := outcome_ofText_of_scan policy origin source hScan
      cases hExported : declarations.any Declaration.exported with
      | false =>
          rw [hAll, hExported] at hOutcome
          cases hOutcome
      | true =>
          rw [hAll, hExported] at hOutcome
          cases hOutcome
          have hFound : exportingDeclarationsOf origin source = .ok declarations := by
            rw [exportingDeclarationsOf, declarationsOf, hScan]
            exact if_pos hExported
          refine ⟨declarations, rfl, rfl, ?_⟩
          unfold ofText
          rw [hFound]
          simp only [ofDeclarations, List.length_append]
          omega

end Compilation

end SchemaForge
