import SchemaForge.Compilation
import SchemaForge.Proofs.BuiltArtifacts
import SchemaForge.Proofs.LexedText

/-! Which declarations are served. Two maps in which the last value of a name counts, at the place of the
first, follow one another: declarations are registered by name, and the exported ones among those that stay
are served by key. Validators and readonly properties come from the same declaration under every key. What is
served may still be nothing: that something is exported is asked of all declarations of a source, also of
those that a later one replaces. -/
namespace SchemaForge

def lastDeclared? (declarations : List Declaration) (name : String) : Option Declaration :=
  (declarations.filter fun declaration => declaration.name = name).getLast?

/-- The declarations that stay when later ones replace earlier ones: the last one of each name, at the place
of the first. -/
def survivors (declarations : List Declaration) : List Declaration :=
  (declarations.map Declaration.name).eraseDups.filterMap (lastDeclared? declarations)

def exportedSurvivors (declarations : List Declaration) : List Declaration :=
  (survivors declarations).filter Declaration.exported

/-- The declaration that is served under a key: the last exported one that stays with this key. -/
def servedUnder? (declarations : List Declaration) (key : String) : Option Declaration :=
  ((exportedSurvivors declarations).filter fun declaration => declaration.key = key).getLast?

/-- Every key of an exported declaration that stays is served. -/
theorem exists_servedUnder? {declarations : List Declaration} {key : String}
    (hKey : key ∈ (exportedSurvivors declarations).map Declaration.key) :
    ∃ declaration ∈ exportedSurvivors declarations, servedUnder? declarations key = some declaration := by
  obtain ⟨first, hFirst, hFirstKey⟩ := List.mem_map.mp hKey
  have hAmong : first ∈ (exportedSurvivors declarations).filter fun declaration => declaration.key = key :=
    List.mem_filter.mpr ⟨hFirst, by simpa using hFirstKey⟩
  have hLast := List.getLast?_eq_some_getLast (List.ne_nil_of_mem hAmong)
  exact ⟨_, (List.mem_filter.mp (List.mem_of_getLast? hLast)).1, hLast⟩

namespace Catalog

theorem ofDeclarations_eq_ofList (declarations : List Declaration) :
    ofDeclarations declarations =
      OrderedMap.ofList (declarations.map fun declaration => (declaration.name, declaration)) := by
  have hEntries := (entries_ofDeclarations declarations).trans (OrderedMap.entries_ofList _).symm
  cases hCatalog : ofDeclarations declarations with
  | mk entries nodup =>
      rw [hCatalog] at hEntries
      cases hMap : OrderedMap.ofList (declarations.map fun declaration => (declaration.name, declaration)) with
      | mk entries' nodup' =>
          rw [hMap] at hEntries
          exact (OrderedMap.mk.injEq ..).mpr hEntries

/-- In the catalog the last declaration of a name counts. -/
theorem find?_ofDeclarations_eq_lastDeclared? (declarations : List Declaration) (name : String) :
    (ofDeclarations declarations).find? name = lastDeclared? declarations name := by
  rw [ofDeclarations_eq_ofList, OrderedMap.find?_ofList, List.filter_map, List.getLast?_map, Option.map_map]
  exact Option.map_id_apply

/-- Names stand in the order in which they are first declared. -/
theorem names_ofDeclarations (declarations : List Declaration) :
    (ofDeclarations declarations).names = (declarations.map Declaration.name).eraseDups := by
  rw [ofDeclarations_eq_ofList, OrderedMap.names_ofList, List.map_map]
  rfl

/-- The catalog of a list holds the declarations that stay. -/
theorem declarations_ofDeclarations_eq_survivors (declarations : List Declaration) :
    (ofDeclarations declarations).declarations = survivors declarations := by
  rw [Catalog.declarations, OrderedMap.values_eq_filterMap, names_ofDeclarations, survivors]
  exact List.filterMap_congr fun name _ => find?_ofDeclarations_eq_lastDeclared? declarations name

/-- Only those that stay are looked at when the exported ones are gathered. -/
theorem exported_ofDeclarations_eq_exportedSurvivors (declarations : List Declaration) :
    (ofDeclarations declarations).exported = exportedSurvivors declarations := by
  rw [Catalog.exported, declarations_ofDeclarations_eq_survivors, exportedSurvivors]

end Catalog

section Keyed

variable {α : Type} (declarations : List Declaration) (f : Declaration → α)

/-- What the last of the declarations with a key has is found under that key. -/
theorem find?_ofList_key (key : String) :
    (OrderedMap.ofList (declarations.map fun declaration => (declaration.key, f declaration))).find? key =
      ((declarations.filter fun declaration => declaration.key = key).getLast?).map f := by
  rw [OrderedMap.find?_ofList, List.filter_map, List.getLast?_map, Option.map_map]
  rfl

theorem names_ofList_key :
    (OrderedMap.ofList (declarations.map fun declaration => (declaration.key, f declaration))).names =
      (declarations.map Declaration.key).eraseDups := by
  rw [OrderedMap.names_ofList, List.map_map]
  rfl

end Keyed

namespace Artifacts

variable (policy : Policy) (declarations : List Declaration)

/-- Keys stand in the order of the first exported declaration with each of them. -/
theorem names_validators_build :
    (build policy (Catalog.ofDeclarations declarations)).validators.names =
      ((exportedSurvivors declarations).map Declaration.key).eraseDups := by
  rw [build, names_ofList_key, Catalog.exported_ofDeclarations_eq_exportedSurvivors]

theorem names_readonly_build :
    (build policy (Catalog.ofDeclarations declarations)).readonly.names =
      ((exportedSurvivors declarations).map Declaration.key).eraseDups := by
  rw [build, names_ofList_key, Catalog.exported_ofDeclarations_eq_exportedSurvivors]

/-- The validator under a key is that of the declaration that is served. -/
theorem find?_validators_build (key : String) :
    (build policy (Catalog.ofDeclarations declarations)).validators.find? key =
      (servedUnder? declarations key).map Declaration.name := by
  rw [build, find?_ofList_key, Catalog.exported_ofDeclarations_eq_exportedSurvivors, servedUnder?]

/-- The readonly properties under a key are those of the declaration that is served. -/
theorem find?_readonly_build (key : String) :
    (build policy (Catalog.ofDeclarations declarations)).readonly.find? key =
      (servedUnder? declarations key).map Catalog.readonlyNames := by
  rw [build, find?_ofList_key, Catalog.exported_ofDeclarations_eq_exportedSurvivors, servedUnder?]

/-- Every declaration that stays has its schema in the table. -/
theorem find?_schemas_build_of_survivor {declaration : Declaration}
    (hMem : declaration ∈ survivors declarations) :
    (build policy (Catalog.ofDeclarations declarations)).schemas.find? declaration.name =
      some ((Catalog.ofDeclarations declarations).schemaOfDeclaration policy declaration) := by
  apply find?_schemas_build
  rw [Catalog.declarations_ofDeclarations_eq_survivors]
  exact hMem

/-- The validators and the readonly properties have the same keys in the same order: those of the exported
declarations that stay, each where it comes first. Under each key both come from the last of these
declarations with that key, and a document is always checked with a schema of the table. -/
theorem registries_describe_same_declaration (policy : Policy) (declarations : List Declaration) :
    let artifacts := build policy (Catalog.ofDeclarations declarations)
    let keys := ((exportedSurvivors declarations).map Declaration.key).eraseDups
    artifacts.validators.names = keys ∧ artifacts.readonly.names = keys ∧
      ∀ key ∈ keys, ∃ declaration schema,
        servedUnder? declarations key = some declaration ∧
        artifacts.validators.find? key = some declaration.name ∧
        artifacts.readonly.find? key =
          some ((declaration.properties.filter Property.readonly).map Property.name) ∧
        artifacts.schemas.find? declaration.name = some schema ∧
        ∀ document, artifacts.validate key document =
          .ok (Verdict.ofViolations document (check artifacts.schemas schema (some document))) := by
  intro artifacts keys
  refine ⟨names_validators_build policy declarations, names_readonly_build policy declarations, ?_⟩
  intro key hKey
  obtain ⟨declaration, hMem, hServed⟩ := exists_servedUnder? (List.mem_eraseDups.mp hKey)
  have hValidator : artifacts.validators.find? key = some declaration.name := by
    rw [find?_validators_build, hServed, Option.map_some]
  have hReadonly : artifacts.readonly.find? key = some (Catalog.readonlyNames declaration) := by
    rw [find?_readonly_build, hServed, Option.map_some]
  have hSchema : artifacts.schemas.find? declaration.name = _ :=
    find?_schemas_build_of_survivor policy declarations (List.mem_filter.mp hMem).1
  refine ⟨declaration, _, hServed, hValidator, hReadonly, hSchema, fun document => ?_⟩
  rw [validate, hValidator]
  simp only [violations, hSchema]

end Artifacts

namespace Compilation

variable (policy : Policy) (origin source : String)

/-- A source whose declarations can be read compiles exactly if one of them is exported. -/
theorem outcome_ofText_of_scan {declarations : List Declaration}
    (hScan : (Grammar.scan source).outcome = .ok declarations) :
    (ofText policy origin source).outcome =
      if declarations.any Declaration.exported then
        .ok (Artifacts.build policy (Catalog.ofDeclarations declarations))
      else .error (.nothingExported origin) := by
  have hDeclarations : exportingDeclarationsOf origin source = requireExported origin declarations := by
    rw [exportingDeclarationsOf, declarationsOf, hScan]
    rfl
  unfold ofText
  rw [hDeclarations, requireExported]
  cases declarations.any Declaration.exported <;> rfl

/-- A source that cannot be scanned is malformed, with the place of the problem. -/
theorem outcome_ofText_of_refused {error : SyntaxError} (hScan : (Grammar.scan source).outcome = .error error) :
    (ofText policy origin source).outcome = .error (.malformed origin error) := by
  have hError : exportingDeclarationsOf origin source = .error (.malformed origin error) := by
    rw [exportingDeclarationsOf, declarationsOf, hScan]
    rfl
  unfold ofText
  rw [hError]

/-- Nothing is served exactly if no declaration that stays is exported. -/
theorem names_validators_eq_nil_iff (declarations : List Declaration) :
    (Artifacts.build policy (Catalog.ofDeclarations declarations)).validators.names = [] ↔
      ∀ declaration ∈ survivors declarations, declaration.exported = false := by
  rw [Artifacts.names_validators_build, List.eq_nil_iff_forall_not_mem]
  constructor
  · intro hNone declaration hMem
    apply Bool.eq_false_iff.mpr
    intro hExported
    have hKey : declaration.key ∈ (exportedSurvivors declarations).map Declaration.key :=
      List.mem_map_of_mem (List.mem_filter.mpr ⟨hMem, hExported⟩)
    exact hNone declaration.key (List.mem_eraseDups.mpr hKey)
  · intro hNone key hKey
    obtain ⟨declaration, hMem, -⟩ := List.mem_map.mp (List.mem_eraseDups.mp hKey)
    obtain ⟨hSurvives, hExported⟩ := List.mem_filter.mp hMem
    rw [hNone declaration hSurvives] at hExported
    cases hExported

/-- What compiling a source leads to. A source without exported declarations is refused, and so is one that
cannot be read. Any other source compiles, and then something is served exactly if an exported declaration is
the last one of its name. -/
theorem ofText_serves_iff_survivor_exported :
    (∀ error, (Grammar.scan source).outcome = .error error →
      (ofText policy origin source).outcome = .error (.malformed origin error)) ∧
    ∀ declarations, (Grammar.scan source).outcome = .ok declarations →
      ((∀ declaration ∈ declarations, declaration.exported = false) →
        (ofText policy origin source).outcome = .error (.nothingExported origin)) ∧
      ((∃ declaration ∈ declarations, declaration.exported = true) →
        ∃ artifacts, (ofText policy origin source).outcome = .ok artifacts ∧
          (artifacts.validators.names ≠ [] ↔
            ∃ declaration ∈ survivors declarations, declaration.exported = true)) := by
  refine ⟨fun error hScan => outcome_ofText_of_refused policy origin source hScan, ?_⟩
  intro declarations hScan
  have hOutcome := outcome_ofText_of_scan policy origin source hScan
  constructor
  · intro hNone
    have hAny : declarations.any Declaration.exported = false := by simpa using hNone
    rw [hOutcome, hAny]
    rfl
  · intro hSome
    have hAny : declarations.any Declaration.exported = true := List.any_eq_true.mpr hSome
    refine ⟨Artifacts.build policy (Catalog.ofDeclarations declarations), ?_, ?_⟩
    · rw [hOutcome, hAny]
      rfl
    · rw [Ne, names_validators_eq_nil_iff]
      simp

/-- A declaration that is exported, and a later one of its name that is not. -/
def replacedSample : String := "export type A = \x7b b: string \x7d; type A = \x7b b: string \x7d;"

/-- The names that are found among tokens, and whether they are exported. -/
def foundExports? (tokens : List Token) : Option (List (String × Bool)) :=
  (Grammar.scanTokens tokens).outcome.toOption.map fun found =>
    found.map fun declaration => (declaration.name, declaration.exported)

/-- A source compiles although nothing is served of it: its only exported declaration is replaced. -/
theorem ofText_serves_nothing :
    ∃ artifacts, (ofText Policy.standard unnamedOrigin replacedSample).outcome = .ok artifacts ∧
      artifacts.validators.names = [] := by
  have hFound : foundExports? (tokenize replacedSample) = some [("A", true), ("A", false)] := by
    rw [show tokenize replacedSample = _ from tokenize_ofList _]
    decide +kernel
  rw [foundExports?, ← Grammar.scan] at hFound
  cases hScan : (Grammar.scan replacedSample).outcome with
  | error error => simp [hScan, Except.toOption] at hFound
  | ok declarations =>
      simp only [hScan, Except.toOption, Option.map_some, Option.some.injEq, List.map_eq_cons_iff,
        List.map_eq_nil_iff, Prod.mk.injEq] at hFound
      obtain ⟨first, _, rfl, ⟨hFirst, hExported⟩, last, _, rfl, ⟨hLast, hHidden⟩, rfl⟩ := hFound
      have hAny : [first, last].any Declaration.exported = true := by simp [hExported]
      have hOutcome := outcome_ofText_of_scan Policy.standard unnamedOrigin replacedSample hScan
      rw [hAny, if_pos rfl] at hOutcome
      have hStays : survivors [first, last] = [last] := by
        simp [survivors, lastDeclared?, hFirst, hLast, List.eraseDups_cons]
      refine ⟨_, hOutcome, ?_⟩
      rw [names_validators_eq_nil_iff, hStays]
      simpa using hHidden

end Compilation

end SchemaForge
