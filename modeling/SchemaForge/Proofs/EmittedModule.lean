import SchemaForge.Proofs.DependencyOrder
import SchemaForge.Proofs.EmittedParts
import SchemaForge.Proofs.ReachableDeclarations
import SchemaForge.Proofs.ServedTypes

/-! The emitted module is closed and defines before use. It is read back token by token: every schema has one
constant, a constant uses at once only constants before it, every listed validator is a function that checks
with an exported constant, and both maps have the same keys. -/
namespace SchemaForge

open Lexeme

namespace Artifacts

/-- The names in artifacts are words, and whatever is referred to or served is there. -/
structure WellNamed (artifacts : Artifacts) : Prop where
  word : ∀ name ∈ artifacts.schemas.names, isWord name = true
  closed : ∀ name schema, artifacts.schemas.find? name = some schema →
    schema.RefersOnlyTo (· ∈ artifacts.schemas.names)
  exported : ∀ declaration ∈ artifacts.catalog.exported,
    declaration.name ∈ artifacts.schemas.names ∧ artifacts.isExported declaration.name = true
  distinct : (artifacts.catalog.exported.map Declaration.name).Nodup
  served : ∀ entry ∈ artifacts.validators.entries, ∃ declaration ∈ artifacts.catalog.exported,
    declaration.name = entry.2
  keys : artifacts.validators.names = artifacts.readonly.names

section Build

variable (policy : Policy) (declarations : List Declaration)

/-- A declaration that is kept is the one found under its name. -/
theorem find?_ofDeclarations_of_mem {declaration : Declaration}
    (hMem : declaration ∈ (Catalog.ofDeclarations declarations).declarations) :
    (Catalog.ofDeclarations declarations).find? declaration.name = some declaration := by
  obtain ⟨entry, hEntry, rfl⟩ := List.mem_map.mp hMem
  rw [← OrderedMap.mem_entries_iff_find?, Catalog.name_of_mem_entries hEntry]
  exact hEntry

/-- Declarations whose names are words give artifacts whose names are in order. -/
theorem wellNamed_build (hNames : ∀ declaration ∈ declarations, isWord declaration.name = true) :
    (build policy (Catalog.ofDeclarations declarations)).WellNamed where
  word name hName := by
    rw [names_schemas_build, Catalog.names_ofDeclarations, List.mem_eraseDups] at hName
    obtain ⟨declaration, hMem, rfl⟩ := List.mem_map.mp hName
    exact hNames declaration hMem
  closed _ _ hFind := refersOnlyTo_of_find?_schemas_build hFind
  exported declaration hMem := by
    obtain ⟨hDeclared, hExported⟩ := List.mem_filter.mp hMem
    rw [names_schemas_build, ← Catalog.map_name_declarations]
    refine ⟨List.mem_map_of_mem hDeclared, ?_⟩
    have hFind : (build policy (Catalog.ofDeclarations declarations)).catalog.find? declaration.name = _ :=
      find?_ofDeclarations_of_mem declarations hDeclared
    rw [isExported, hFind]
    exact hExported
  distinct := by
    have hNodup : ((Catalog.ofDeclarations declarations).declarations.map Declaration.name).Nodup := by
      rw [Catalog.map_name_declarations]
      exact (Catalog.ofDeclarations declarations).nodup
    exact hNodup.sublist (List.filter_sublist.map Declaration.name)
  served entry hMem := by
    have hFind := (OrderedMap.mem_entries_iff_find? _ entry.1 entry.2).mp hMem
    obtain ⟨declaration, hExported, -, hName⟩ := exported_of_find?_validators hFind
    exact ⟨declaration, hExported, hName⟩
  keys := by rw [names_validators_build, names_readonly_build]

end Build

/-- The constants of schemas in order, after those of the names given first. -/
def schemaConstants (artifacts : Artifacts) : List String → List String → List ConstantText
  | _, [] => []
  | defined, name :: names =>
      ((artifacts.schemas.find? name).map fun schema =>
        (⟨constantName name, kindsOf (schema.expression defined 0).toList⟩ : ConstantText)).toList ++
        schemaConstants artifacts (name :: defined) names

/-- The constants that a function for each exported type needs. -/
def resultConstants (artifacts : Artifacts) : List ConstantText :=
  artifacts.catalog.exported.map fun declaration => ⟨"result", checkKinds declaration.name⟩

def validatorFunctions (artifacts : Artifacts) : List FunctionText :=
  artifacts.catalog.exported.map fun declaration =>
    ⟨"validate" ++ declaration.name, validatorOpening declaration.name⟩

def validatorsMap (artifacts : Artifacts) : ConstantText :=
  ⟨"validators", mapValue (artifacts.validators.entries.map validatorLineKinds)⟩

def readonlyMap (artifacts : Artifacts) : ConstantText :=
  ⟨"readonlyProperties", mapValue (artifacts.readonly.entries.map readonlyLineKinds)⟩

def moduleConstants (artifacts : Artifacts) : List ConstantText :=
  artifacts.schemaConstants [] artifacts.schemas.dependencyOrder ++
    (artifacts.resultConstants ++ [artifacts.validatorsMap, artifacts.readonlyMap])

def moduleExports (artifacts : Artifacts) : List String :=
  (artifacts.schemas.dependencyOrder.filter artifacts.isExported).map constantName ++
    ["validators", "readonlyProperties"]

def definitionsText (artifacts : Artifacts) : String :=
  artifacts.constantDefinitions [] artifacts.schemas.dependencyOrder ++
  ("".intercalate (artifacts.catalog.exported.map fun declaration => functionDefinition declaration.name) ++
  (mapDefinition "validators" (artifacts.validators.entries.map validatorLine) ++
  mapDefinition "readonlyProperties" (artifacts.readonly.entries.map readonlyLine)))

theorem moduleText_eq (artifacts : Artifacts) (sourceName : String) :
    artifacts.moduleText sourceName = moduleHeader sourceName ++ artifacts.definitionsText := by
  delta moduleText definitionsText
  simp only [String.append_assoc]

/-- The map of readonly properties is one constant, which is exported. -/
theorem emits_readonly (artifacts : Artifacts) :
    Emits (mapDefinition "readonlyProperties" (artifacts.readonly.entries.map readonlyLine))
      [artifacts.readonlyMap] [] ["readonlyProperties"] := by
  refine ⟨_, cuts_mapDefinition (by decide) fun entry _ => cuts_readonlyLine entry,
    readsAs_constantKinds true (by decide) ?_⟩
  exact definesNothing_mapValue (List.forall_mem_map.mpr fun entry _ => isInner_readonlyLineKinds entry)

section Parts

variable {artifacts : Artifacts} (hNamed : artifacts.WellNamed)

include hNamed

/-- The expression of a schema refers to names of the table, and at once only to those defined before. -/
theorem WellNamed.isCode {name : String} {schema : Schema} (hFind : artifacts.schemas.find? name = some schema)
    (defined : List String) :
    IsCode defined (· ∈ artifacts.schemas.names) (schema.expression defined 0) := by
  apply Schema.isCode_expression
  intro target hTarget
  have hKnown := hNamed.closed name schema hFind target hTarget
  exact ⟨hNamed.word target hKnown, hKnown⟩

/-- The definition of a schema is one constant, with the expression of the schema as its value. -/
theorem WellNamed.emits_constantDefinition {name : String} {schema : Schema}
    (hFind : artifacts.schemas.find? name = some schema) (defined : List String) :
    Emits (artifacts.constantDefinition defined name)
      [⟨constantName name, kindsOf (schema.expression defined 0).toList⟩] []
      (if artifacts.isExported name then [constantName name] else []) := by
  have hWord := hNamed.word name ((artifacts.schemas.mem_names_iff_find? name).mpr ⟨schema, hFind⟩)
  have hCode := hNamed.isCode hFind defined
  exact ⟨_, cuts_constantDefinition artifacts hFind hWord hCode,
    readsAs_constantKinds _ (isDefining_constantName name) hCode.code.definesNothing⟩

/-- The induction is over the names. Each definition may use the constants of those before it. -/
theorem WellNamed.emits_constantDefinitions {names : List String} (hNames : names ⊆ artifacts.schemas.names)
    (defined : List String) :
    Emits (artifacts.constantDefinitions defined names) (artifacts.schemaConstants defined names) []
      ((names.filter artifacts.isExported).map constantName) := by
  induction names generalizing defined with
  | nil => exact emits_empty
  | cons name names ih =>
      obtain ⟨hName, hFurther⟩ := List.cons_subset.mp hNames
      obtain ⟨schema, hFind⟩ := (artifacts.schemas.mem_names_iff_find? name).mp hName
      have hAll := (hNamed.emits_constantDefinition hFind defined).append (ih hFurther (name :: defined))
      show Emits (artifacts.constantDefinition defined name ++ artifacts.constantDefinitions (name :: defined) names)
        _ _ _
      simp only [schemaConstants, hFind, List.filter_cons]
      cases hExported : artifacts.isExported name <;> simpa [hExported] using hAll

/-- Each exported type has a function, in which a constant for the result is defined. -/
theorem WellNamed.emits_functions :
    Emits ("".intercalate (artifacts.catalog.exported.map fun declaration => functionDefinition declaration.name))
      artifacts.resultConstants artifacts.validatorFunctions [] := by
  obtain ⟨ending, hEnding, hCuts⟩ := exists_cuts_functionDefinition
  refine ⟨_, cuts_lines fun declaration hMem =>
    hCuts declaration.name (hNamed.word _ (hNamed.exported declaration hMem).1), ?_⟩
  unfold resultConstants validatorFunctions
  induction artifacts.catalog.exported with
  | nil => exact readsAs_nil
  | cons declaration declarations ih => exact (readsAs_functionKinds declaration.name hEnding).append ih

theorem WellNamed.emits_validators :
    Emits (mapDefinition "validators" (artifacts.validators.entries.map validatorLine))
      [artifacts.validatorsMap] [] ["validators"] := by
  have hLines : ∀ entry ∈ artifacts.validators.entries, Cuts (validatorLine entry) (validatorLineKinds entry) := by
    intro entry hMem
    obtain ⟨declaration, hExported, hName⟩ := hNamed.served entry hMem
    exact cuts_validatorLine (hName ▸ hNamed.word _ (hNamed.exported declaration hExported).1)
  refine ⟨_, cuts_mapDefinition (by decide) hLines, readsAs_constantKinds true (by decide) ?_⟩
  exact definesNothing_mapValue (List.forall_mem_map.mpr fun entry _ => isInner_validatorLineKinds entry)

/-- The module below its heading: the constants of schemas, the functions and the two maps. -/
theorem WellNamed.emits_definitionsText :
    Emits artifacts.definitionsText artifacts.moduleConstants artifacts.validatorFunctions
      artifacts.moduleExports := by
  have hAll := (hNamed.emits_constantDefinitions artifacts.schemas.dependencyOrder_subset_names []).append
    (hNamed.emits_functions.append (hNamed.emits_validators.append (emits_readonly artifacts)))
  delta definitionsText
  simpa [moduleConstants, moduleExports] using hAll

end Parts

/-- A heading that names its source on one line defines nothing. -/
theorem emits_moduleHeader {sourceName : String} (hLine : '\n' ∉ sourceName.toList) :
    Emits (moduleHeader sourceName) [] [] [] := by
  have hSource : Cuts ("// Auto-generated by typeshape from " ++ sourceName ++ "\n") [] :=
    cuts_lineComment (by decide) hLine
  have hNotice : Cuts "// Do not edit manually\n\n" [] := cuts_ofList
  have hImport : Cuts "import \x7b z \x7d from 'zod';\n" [.word "import", .mark .openBrace, .word "z",
      .mark .closeBrace, .word "from", .text "zod", .mark .semicolon] :=
    cuts_ofList
  exact ⟨_, (hSource.append hNotice).append hImport, readsAs_of_isDefining (by decide)⟩

section SchemaConstants

variable {artifacts : Artifacts}

/-- Every schema has its constant, in the order of the names. -/
theorem map_name_schemaConstants {names : List String} (hNames : names ⊆ artifacts.schemas.names)
    (defined : List String) :
    (artifacts.schemaConstants defined names).map ConstantText.name = names.map constantName := by
  induction names generalizing defined with
  | nil => rfl
  | cons name names ih =>
      obtain ⟨hName, hFurther⟩ := List.cons_subset.mp hNames
      obtain ⟨schema, hFind⟩ := (artifacts.schemas.mem_names_iff_find? name).mp hName
      simp [schemaConstants, hFind, ih hFurther]

/-- Each constant holds the expression of a schema for which only constants before it are defined. -/
theorem schemaConstants_split {names : List String} (hNames : names ⊆ artifacts.schemas.names)
    {defined : List String} {earlier later : List ConstantText} {constant : ConstantText}
    (hSplit : artifacts.schemaConstants defined names = earlier ++ constant :: later) :
    ∃ name schema before, artifacts.schemas.find? name = some schema ∧
      constant = ⟨constantName name, kindsOf (schema.expression before 0).toList⟩ ∧
      ∀ target ∈ before, target ∈ defined ∨ ∃ other ∈ earlier, other.name = constantName target := by
  induction names generalizing defined earlier with
  | nil => simp [schemaConstants] at hSplit
  | cons name names ih =>
      obtain ⟨hName, hFurther⟩ := List.cons_subset.mp hNames
      obtain ⟨schema, hFind⟩ := (artifacts.schemas.mem_names_iff_find? name).mp hName
      simp only [schemaConstants, hFind, Option.map_some, Option.toList_some, List.singleton_append] at hSplit
      cases earlier with
      | nil =>
          obtain ⟨rfl, -⟩ := List.cons.inj hSplit
          exact ⟨name, schema, defined, hFind, rfl, fun target hMem => Or.inl hMem⟩
      | cons first earlier =>
          obtain ⟨rfl, hRest⟩ := List.cons.inj hSplit
          obtain ⟨other, otherSchema, before, hOther, hConstant, hBefore⟩ := ih hFurther hRest
          refine ⟨other, otherSchema, before, hOther, hConstant, fun target hMem => ?_⟩
          rcases hBefore target hMem with hDefined | ⟨definition, hEarlier, hTarget⟩
          · rcases List.mem_cons.mp hDefined with rfl | hBefore
            · exact Or.inr ⟨_, List.mem_cons_self, rfl⟩
            · exact Or.inl hBefore
          · exact Or.inr ⟨definition, List.mem_cons_of_mem _ hEarlier, hTarget⟩

end SchemaConstants

end Artifacts

def constantsNamed (kinds : List TokenKind) (name : String) : List ConstantText :=
  (constantsIn kinds).filter fun constant => constant.name = name

def functionsNamed (kinds : List TokenKind) (name : String) : List FunctionText :=
  (functionsIn kinds).filter fun function => function.name = name

/-- A module, given by its tokens, is closed and defines before use. -/
structure SelfContained (artifacts : Artifacts) (kinds : List TokenKind) : Prop where
  /-- Every schema has exactly one constant, which is its expression and is exported as its declaration is. -/
  declares : ∀ name schema, artifacts.schemas.find? name = some schema →
    (∃ defined, constantsNamed kinds (constantName name) =
      [⟨constantName name, kindsOf (schema.expression defined 0).toList⟩]) ∧
    (constantName name ∈ exportsIn kinds ↔ artifacts.isExported name = true)
  /-- Every name that a schema refers to has exactly one constant. -/
  closed : ∀ name schema, artifacts.schemas.find? name = some schema → ∀ target ∈ schema.references,
    ∃ constant, constantsNamed kinds (constantName target) = [constant]
  /-- A constant that is used in that of a schema, and not as the key of a field, is defined exactly once, and
  before it unless its use is postponed. -/
  ordered : ∀ earlier constant later, constantsIn kinds = earlier ++ constant :: later →
    ∀ name ∈ artifacts.schemas.names, constant.name = constantName name →
    ∀ before target after, constant.value = before ++ .word (constantName target) :: after →
    after.head? ≠ some (.mark .colon) →
      (∃ definition, constantsNamed kinds (constantName target) = [definition]) ∧
      (¬ lazyOpening <:+ before → ∃ definition ∈ earlier, definition.name = constantName target)
  /-- The two maps have the same keys in the same order. Every listed validator is one function that checks
  with the exported constant of its type. -/
  maps : ∃ validators readonly, constantsNamed kinds "validators" = [validators] ∧
    constantsNamed kinds "readonlyProperties" = [readonly] ∧
    keysIn validators.value = artifacts.validators.names.map quotedValue ∧
    keysIn readonly.value = keysIn validators.value ∧
    wordsIn validators.value = artifacts.validators.values.map ("validate" ++ ·) ∧
    ∀ function ∈ wordsIn validators.value, ∃ name, function = "validate" ++ name ∧
      functionsNamed kinds function = [⟨function, validatorOpening name⟩] ∧
      (∃ constant, constantsNamed kinds (constantName name) = [constant]) ∧
      constantName name ∈ exportsIn kinds

theorem filter_eq_singleton_of_nodup {α : Type} {f : α → String} {items : List α} (hNodup : (items.map f).Nodup)
    {item : α} (hMem : item ∈ items) : (items.filter fun other => f other = f item) = [item] := by
  induction items with
  | nil => cases hMem
  | cons first items ih =>
      rw [List.map_cons, List.nodup_cons] at hNodup
      rcases List.mem_cons.mp hMem with rfl | hLater
      · have hRest : (items.filter fun other => f other = f item) = [] :=
          List.filter_eq_nil_iff.mpr fun other hOther hSame =>
            hNodup.1 (List.mem_map.mpr ⟨other, hOther, of_decide_eq_true hSame⟩)
        rw [List.filter_cons_of_pos (by simp), hRest]
      · have hOther : f first ≠ f item := fun hSame => hNodup.1 (hSame ▸ List.mem_map_of_mem hLater)
        rw [List.filter_cons_of_neg (by simpa using hOther), ih hNodup.2 hLater]

namespace Artifacts

section Reading

variable {artifacts : Artifacts}

/-- A constant of the module with the name of a schema's constant is a schema's constant. -/
theorem notMem_furtherConstants (artifacts : Artifacts) {constant : ConstantText} {name : String}
    (hName : constant.name = constantName name) :
    constant ∉ artifacts.resultConstants ++ [artifacts.validatorsMap, artifacts.readonlyMap] := by
  intro hMem
  have hWord : constant.name = "result" ∨ constant.name = "validators" ∨ constant.name = "readonlyProperties" := by
    rcases List.mem_append.mp hMem with hResult | hMap
    · obtain ⟨declaration, -, rfl⟩ := List.mem_map.mp hResult
      exact Or.inl rfl
    · rcases List.mem_pair.mp hMap with rfl | rfl
      · exact Or.inr (Or.inl rfl)
      · exact Or.inr (Or.inr rfl)
  rw [hName] at hWord
  rcases hWord with hWord | hWord | hWord
  · exact constantName_ne (by decide) name hWord
  · exact constantName_ne (by decide) name hWord
  · exact constantName_ne (by decide) name hWord

/-- The constant of a schema is defined once in the whole module. -/
theorem exists_constantsNamed {name : String} {schema : Schema}
    (hFind : artifacts.schemas.find? name = some schema) :
    ∃ defined, (artifacts.moduleConstants.filter fun constant => constant.name = constantName name) =
      [⟨constantName name, kindsOf (schema.expression defined 0).toList⟩] := by
  have hOrder := artifacts.schemas.dependencyOrder_perm_names
  have hNames := map_name_schemaConstants artifacts.schemas.dependencyOrder_subset_names []
  have hNodup : ((artifacts.schemaConstants [] artifacts.schemas.dependencyOrder).map ConstantText.name).Nodup := by
    rw [hNames]
    exact (hOrder.nodup_iff.mpr artifacts.schemas.nodup).map constantName_injective
  have hListed : constantName name ∈
      (artifacts.schemaConstants [] artifacts.schemas.dependencyOrder).map ConstantText.name := by
    rw [hNames]
    exact List.mem_map_of_mem (hOrder.symm.subset ((artifacts.schemas.mem_names_iff_find? name).mpr ⟨schema, hFind⟩))
  obtain ⟨constant, hConstant, hName⟩ := List.mem_map.mp hListed
  obtain ⟨earlier, later, hSplit⟩ := List.append_of_mem hConstant
  obtain ⟨other, otherSchema, defined, hOther, rfl, -⟩ :=
    schemaConstants_split artifacts.schemas.dependencyOrder_subset_names hSplit
  obtain rfl : other = name := constantName_injective hName
  obtain rfl : otherSchema = schema := Option.some.inj (hOther.symm.trans hFind)
  have hFurther : ((artifacts.resultConstants ++ [artifacts.validatorsMap, artifacts.readonlyMap]).filter
      fun constant => constant.name = constantName other) = [] :=
    List.filter_eq_nil_iff.mpr fun constant hMem hSame =>
      artifacts.notMem_furtherConstants (of_decide_eq_true hSame) hMem
  refine ⟨defined, ?_⟩
  rw [moduleConstants, List.filter_append, hFurther, List.append_nil]
  exact filter_eq_singleton_of_nodup hNodup hConstant

/-- A word that is neither the name of a schema constant nor that of a result is at most the name of a map. -/
theorem filter_moduleConstants {word : String} (hWord : "Schema".toList.isSuffixOf word.toList = false)
    (hResult : "result" ≠ word) :
    (artifacts.moduleConstants.filter fun constant => constant.name = word) =
      [artifacts.validatorsMap, artifacts.readonlyMap].filter fun constant => constant.name = word := by
  have hSchemas : ((artifacts.schemaConstants [] artifacts.schemas.dependencyOrder).filter
      fun constant => constant.name = word) = [] := by
    refine List.filter_eq_nil_iff.mpr fun constant hMem hSame => ?_
    have hListed := List.mem_map_of_mem (f := ConstantText.name) hMem
    rw [map_name_schemaConstants artifacts.schemas.dependencyOrder_subset_names] at hListed
    obtain ⟨name, -, hName⟩ := List.mem_map.mp hListed
    exact constantName_ne hWord name (hName.trans (of_decide_eq_true hSame))
  have hResults : (artifacts.resultConstants.filter fun constant => constant.name = word) = [] := by
    refine List.filter_eq_nil_iff.mpr fun constant hMem hSame => ?_
    obtain ⟨declaration, -, rfl⟩ := List.mem_map.mp hMem
    exact hResult (of_decide_eq_true hSame)
  rw [moduleConstants, List.filter_append, List.filter_append, hSchemas, hResults, List.nil_append, List.nil_append]

/-- The constant of a schema is exported exactly if its type is. -/
theorem constantName_mem_moduleExports {name : String} (hName : name ∈ artifacts.schemas.names) :
    constantName name ∈ artifacts.moduleExports ↔ artifacts.isExported name = true := by
  have hOrder : name ∈ artifacts.schemas.dependencyOrder :=
    artifacts.schemas.dependencyOrder_perm_names.symm.subset hName
  have hValidators : constantName name ≠ "validators" := constantName_ne (by decide) name
  have hReadonly : constantName name ≠ "readonlyProperties" := constantName_ne (by decide) name
  simp [moduleExports, constantName_injective.eq_iff, hOrder, hValidators, hReadonly]

/-- The constants of schemas come before all others, so what is before one of them is before it among them. -/
theorem schemaConstants_split_of_moduleConstants {earlier later : List ConstantText} {constant : ConstantText}
    {name : String} (hSplit : artifacts.moduleConstants = earlier ++ constant :: later)
    (hName : constant.name = constantName name) :
    ∃ between, artifacts.schemaConstants [] artifacts.schemas.dependencyOrder = earlier ++ constant :: between := by
  have hFurther := artifacts.notMem_furtherConstants hName
  rcases List.append_eq_append_iff.mp hSplit with ⟨between, -, hBehind⟩ | ⟨between, hBefore, hBehind⟩
  · exact absurd (hBehind ▸ by simp) hFurther
  · cases between with
    | nil => exact absurd (by rw [← List.nil_append (_ ++ _), ← hBehind]; exact List.mem_cons_self) hFurther
    | cons first between =>
        obtain ⟨rfl, -⟩ := List.cons.inj hBehind
        exact ⟨between, hBefore⟩

/-- The function of an exported type is defined once. -/
theorem WellNamed.functionsNamed_validate (hNamed : artifacts.WellNamed) {declaration : Declaration}
    (hExported : declaration ∈ artifacts.catalog.exported) :
    (artifacts.validatorFunctions.filter fun function => function.name = "validate" ++ declaration.name) =
      [⟨"validate" ++ declaration.name, validatorOpening declaration.name⟩] := by
  have hInjective : Function.Injective ("validate" ++ · : String → String) := by
    intro first second hSame
    rw [← String.toList_inj, String.toList_append, String.toList_append] at hSame
    exact String.toList_inj.mp (List.append_cancel_left hSame)
  have hNodup : (artifacts.validatorFunctions.map FunctionText.name).Nodup := by
    have hNames : artifacts.validatorFunctions.map FunctionText.name =
        (artifacts.catalog.exported.map Declaration.name).map ("validate" ++ ·) := by
      simp [validatorFunctions]
    rw [hNames]
    exact hNamed.distinct.map hInjective
  have hMem : ⟨"validate" ++ declaration.name, validatorOpening declaration.name⟩ ∈ artifacts.validatorFunctions :=
    List.mem_map_of_mem hExported
  exact filter_eq_singleton_of_nodup hNodup hMem

/-- What the constant of a schema uses, except as the key of a field, is in the table, and is defined before
unless its use is postponed. -/
theorem WellNamed.uses_of_split (hNamed : artifacts.WellNamed) {earlier later : List ConstantText}
    {constant : ConstantText} {name target : String} {before after : List TokenKind}
    (hSplit : artifacts.moduleConstants = earlier ++ constant :: later) (hName : constant.name = constantName name)
    (hValue : constant.value = before ++ .word (constantName target) :: after)
    (hKey : after.head? ≠ some (.mark .colon)) :
    target ∈ artifacts.schemas.names ∧
      (¬ lazyOpening <:+ before → ∃ definition ∈ earlier, definition.name = constantName target) := by
  obtain ⟨between, hSchemas⟩ := schemaConstants_split_of_moduleConstants hSplit hName
  obtain ⟨source, schema, defined, hFind, rfl, hDefined⟩ :=
    schemaConstants_split artifacts.schemas.dependencyOrder_subset_names hSchemas
  rcases (hNamed.isCode hFind defined).code.permits_of_eq_append hValue with hColon | hEager | hPostponed
  · exact absurd hColon hKey
  · obtain ⟨definition, hEarlier, hTarget⟩ := (hDefined target hEager).resolve_left List.not_mem_nil
    have hListed : constantName target ∈ artifacts.schemas.dependencyOrder.map constantName := by
      rw [← map_name_schemaConstants artifacts.schemas.dependencyOrder_subset_names [], hSchemas, ← hTarget]
      exact List.mem_map_of_mem (List.mem_append_left _ hEarlier)
    obtain ⟨listed, hOrder, hSame⟩ := List.mem_map.mp hListed
    obtain rfl : listed = target := constantName_injective hSame
    exact ⟨artifacts.schemas.dependencyOrder_subset_names hOrder, fun _ => ⟨definition, hEarlier, hTarget⟩⟩
  · exact ⟨hPostponed.2, fun hEager => absurd hPostponed.1 hEager⟩

/-- A module in which the definitions of well-named artifacts are found is closed and defines before use. -/
theorem WellNamed.selfContained (hNamed : artifacts.WellNamed) {kinds : List TokenKind}
    (hReads : ReadsAs kinds artifacts.moduleConstants artifacts.validatorFunctions artifacts.moduleExports) :
    SelfContained artifacts kinds := by
  have hConstants := hReads.constantsIn_eq
  have hDeclared (name : String) (hName : name ∈ artifacts.schemas.names) :
      ∃ constant, constantsNamed kinds (constantName name) = [constant] := by
    obtain ⟨schema, hFind⟩ := (artifacts.schemas.mem_names_iff_find? name).mp hName
    obtain ⟨defined, hOne⟩ := exists_constantsNamed hFind
    rw [constantsNamed, hConstants]
    exact ⟨_, hOne⟩
  refine ⟨?_, ?_, ?_, ?_⟩
  · intro name schema hFind
    rw [constantsNamed, hConstants, hReads.exportsIn_eq]
    exact ⟨exists_constantsNamed hFind,
      constantName_mem_moduleExports ((artifacts.schemas.mem_names_iff_find? name).mpr ⟨schema, hFind⟩)⟩
  · intro name schema hFind target hTarget
    exact hDeclared target (hNamed.closed name schema hFind target hTarget)
  · intro earlier constant later hSplit name _ hName before target after hValue hKey
    obtain ⟨hTarget, hBefore⟩ := hNamed.uses_of_split (hConstants ▸ hSplit) hName hValue hKey
    exact ⟨hDeclared target hTarget, hBefore⟩
  · have hKeys : keysIn artifacts.validatorsMap.value = artifacts.validators.names.map quotedValue := by
      rw [validatorsMap, keysIn_mapValue keysIn_validatorLineKinds, OrderedMap.names, Entries.names, List.map_map]
      rfl
    have hReadonlyKeys : keysIn artifacts.readonlyMap.value = artifacts.readonly.names.map quotedValue := by
      rw [readonlyMap, keysIn_mapValue keysIn_readonlyLineKinds, OrderedMap.names, Entries.names, List.map_map]
      rfl
    have hWords : wordsIn artifacts.validatorsMap.value = artifacts.validators.values.map ("validate" ++ ·) := by
      rw [validatorsMap, wordsIn_validators, OrderedMap.values, List.map_map]
      rfl
    refine ⟨artifacts.validatorsMap, artifacts.readonlyMap, ?_, ?_, hKeys, ?_, hWords, ?_⟩
    · rw [constantsNamed, hConstants, filter_moduleConstants (by decide) (by decide)]
      simp [validatorsMap, readonlyMap]
    · rw [constantsNamed, hConstants, filter_moduleConstants (by decide) (by decide)]
      simp [validatorsMap, readonlyMap]
    · rw [hReadonlyKeys, hKeys, hNamed.keys]
    · intro function hFunction
      rw [hWords] at hFunction
      obtain ⟨typeName, hServed, rfl⟩ := List.mem_map.mp hFunction
      obtain ⟨entry, hEntry, rfl⟩ := List.mem_map.mp hServed
      obtain ⟨declaration, hExported, hName⟩ := hNamed.served entry hEntry
      obtain ⟨hTable, hMarked⟩ := hNamed.exported declaration hExported
      rw [← hName, functionsNamed, hReads.functionsIn_eq, hReads.exportsIn_eq]
      exact ⟨declaration.name, rfl, hNamed.functionsNamed_validate hExported, hDeclared _ hTable,
        (constantName_mem_moduleExports hTable).mpr hMarked⟩

end Reading

/-- The module of any declarations whose names are words is closed and defines before use. This is said of all
that stands below the heading, and of the whole text when the heading names its source on one line. -/
theorem moduleText_selfContained (policy : Policy) {declarations : List Declaration}
    (hNames : ∀ declaration ∈ declarations, isWord declaration.name = true) (sourceName : String) :
    let artifacts := build policy (Catalog.ofDeclarations declarations)
    (∀ declaration ∈ declarations, declaration.name ∈ artifacts.schemas.names) ∧
      ∃ definitions, artifacts.moduleText sourceName = moduleHeader sourceName ++ definitions ∧
        SelfContained artifacts ((tokenize definitions).map Token.kind) ∧
        ('\n' ∉ sourceName.toList →
          SelfContained artifacts ((tokenize (artifacts.moduleText sourceName)).map Token.kind)) := by
  intro artifacts
  have hNamed : artifacts.WellNamed := wellNamed_build policy declarations hNames
  have hDefinitions := hNamed.emits_definitionsText
  refine ⟨fun declaration hMem => ?_, artifacts.definitionsText, moduleText_eq artifacts sourceName, ?_,
    fun hLine => ?_⟩
  · rw [names_schemas_build, Catalog.names_ofDeclarations, List.mem_eraseDups]
    exact List.mem_map_of_mem hMem
  · obtain ⟨kinds, hCuts, hReads⟩ := hDefinitions
    rw [map_kind_tokenize, hCuts.kindsOf_eq]
    exact hNamed.selfContained hReads
  · obtain ⟨kinds, hCuts, hReads⟩ := (emits_moduleHeader hLine).append hDefinitions
    rw [map_kind_tokenize, moduleText_eq, hCuts.kindsOf_eq]
    exact hNamed.selfContained hReads

/-- Two exported types that refer to each other, one of which has a key and a text that look like definitions. -/
def mutualSample : List Declaration :=
  [⟨"Folder", true, .object [⟨"files", .array (.reference "File"), false, false⟩], ⟨1, 1⟩⟩,
    ⟨"File", true, .object [⟨"parent", .reference "Folder", true, true⟩,
      ⟨"FileSchema", .literal (.text "const FolderSchema = FileSchema;"), false, false⟩], ⟨2, 1⟩⟩]

/-- Two types that refer to each other, with keys and texts that look like definitions. -/
theorem moduleText_selfContained_mutual :
    (∀ declaration ∈ mutualSample, isWord declaration.name = true) ∧
      SelfContained (build Policy.standard (Catalog.ofDeclarations mutualSample))
        ((tokenize ((build Policy.standard (Catalog.ofDeclarations mutualSample)).moduleText "types.d.ts")).map
          Token.kind) := by
  have hNames : ∀ declaration ∈ mutualSample, isWord declaration.name = true := by decide
  obtain ⟨-, definitions, -, -, hWhole⟩ := moduleText_selfContained Policy.standard hNames "types.d.ts"
  exact ⟨hNames, hWhole (by decide)⟩

end Artifacts

end SchemaForge
