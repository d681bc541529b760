import SchemaForge.Proofs.BuiltArtifacts
import SchemaForge.Proofs.PrintedTokens
import SchemaForge.Proofs.ReportedViolations

/-! The validator of an exported type depends only on the declarations that can be reached from it. The order
of declarations and all others are without effect: the two builds may have different schemas, in a different
order and number, and so may follow a different number of references. -/
namespace SchemaForge

namespace TypeTerm

/-- The recursion over lists of types is the one of the library. -/
theorem referencesOfAll_eq_flatMap (terms : List TypeTerm) :
    referencesOfAll terms = terms.flatMap references := by
  induction terms with
  | nil => rfl
  | cons term terms ih => rw [referencesOfAll, ih, List.flatMap_cons]

def RefersOnlyTo (names : String → Prop) (term : TypeTerm) : Prop :=
  ∀ name ∈ term.references, names name

variable {names : String → Prop}

theorem RefersOnlyTo.of_mem_tuple {elements : List TypeTerm} {rest : Option TypeTerm}
    (hNames : (tuple elements rest).RefersOnlyTo names) {term : TypeTerm} (hMem : term ∈ elements) :
    term.RefersOnlyTo names := by
  intro name hName
  apply hNames
  have hAmong : name ∈ referencesOfAll elements := by
    rw [referencesOfAll_eq_flatMap, List.mem_flatMap]
    exact ⟨term, hMem, hName⟩
  cases rest <;> simp [references, hAmong]

theorem RefersOnlyTo.of_rest {elements : List TypeTerm} {rest : Option TypeTerm}
    (hNames : (tuple elements rest).RefersOnlyTo names) {term : TypeTerm} (hRest : term ∈ rest) :
    term.RefersOnlyTo names := by
  intro name hName
  apply hNames
  obtain rfl : rest = some term := hRest
  simp [references, hName]

theorem RefersOnlyTo.of_mem_union {members : List TypeTerm} (hNames : (union members).RefersOnlyTo names)
    {term : TypeTerm} (hMem : term ∈ members) : term.RefersOnlyTo names := by
  intro name hName
  apply hNames
  rw [references, referencesOfAll_eq_flatMap, List.mem_flatMap]
  exact ⟨term, hMem, hName⟩

end TypeTerm

def Declaration.references (declaration : Declaration) : List String :=
  match declaration.body with
  | .object properties => properties.flatMap fun property => property.type.references
  | .alias term => term.references

/-- The name is the start, or is referred to by a declaration whose name is reached from there. -/
inductive Reaches (declarations : List Declaration) (start : String) : String → Prop where
  | start : Reaches declarations start start
  | step {declaration : Declaration} {next : String} (reached : Reaches declarations start declaration.name)
      (hMem : declaration ∈ declarations) (hNext : next ∈ declaration.references) :
      Reaches declarations start next

def declared? (declarations : List Declaration) (name : String) : Option Declaration :=
  declarations.find? fun declaration => declaration.name = name

/-- All names that are reached from the start in the first list are declared alike in the second one, or in
neither; only the places of declarations may differ. -/
def AgreeFrom (first second : List Declaration) (start : String) : Prop :=
  ∀ name, Reaches first start name →
    (declared? second name).map Declaration.content = (declared? first name).map Declaration.content

/-- Declarations have distinct names, and those that are exported have distinct keys. -/
structure DistinctlyNamed (declarations : List Declaration) : Prop where
  names : (declarations.map Declaration.name).Nodup
  keys : ((declarations.filter Declaration.exported).map Declaration.key).Nodup

namespace Catalog

section Schemas

variable {catalog catalog' : Catalog} {names : String → Prop}

/-- The names have the same schemas wherever they are referred to. -/
def SameReferences (names : String → Prop) (catalog catalog' : Catalog) : Prop :=
  ∀ name, names name → catalog'.schemaOfReference name = catalog.schemaOfReference name

/-- The schema of a type depends on the catalog only through the names that the type refers to. -/
theorem schemaOf_congr (hSame : SameReferences names catalog catalog') {term : TypeTerm}
    (hNames : term.RefersOnlyTo names) (subject : String) :
    catalog'.schemaOf subject term = catalog.schemaOf subject term := by
  induction term using TypeTerm.induction_parts with
  | array element ih =>
      have hElement : element.RefersOnlyTo names := hNames
      rw [schemaOf, schemaOf, ih hElement]
  | tuple elements rest ihElements ihRest =>
      rw [schemaOf_tuple, schemaOf_tuple]
      congr 1
      · exact List.map_congr_left fun term hMem => ihElements term hMem (hNames.of_mem_tuple hMem)
      · refine Option.map_congr fun term hRest => ?_
        have hTerm := ihRest term hRest (hNames.of_rest hRest)
        cases term with
        | array element =>
            rw [schemaOf, schemaOf] at hTerm
            exact Schema.array.inj hTerm
        | _ => exact hTerm
  | union members ih =>
      have hMembers : members.map (catalog'.schemaOf subject) = members.map (catalog.schemaOf subject) :=
        List.map_congr_left fun term hMem => ih term hMem (hNames.of_mem_union hMem)
      simp only [schemaOf, schemasOf_eq_map, hMembers]
  | reference name =>
      rw [schemaOf, schemaOf]
      exact hSame name (hNames name (by simp [TypeTerm.references]))
  | primitive kind => cases kind <;> rfl
  | literal value => rfl
  | date => rfl
  | anyObject => rfl
  | unknown => rfl

/-- A reference is to a declared name; an undeclared one accepts anything and refers to nothing. -/
theorem refersOnlyTo_schemaOfReference {name : String} (hName : name ∈ catalog.names → names name) :
    (catalog.schemaOfReference name).RefersOnlyTo names := by
  unfold schemaOfReference
  split
  · simp [Schema.RefersOnlyTo, Schema.references]
  · cases hFind : catalog.find? name with
    | none => simp [Schema.RefersOnlyTo, Schema.references]
    | some declaration =>
        have hDeclared : name ∈ catalog.names := (catalog.mem_names_iff_find? name).mpr ⟨declaration, hFind⟩
        cases hLiterals : declaration.textLiteralUnion? with
        | some values => simp [hLiterals, Schema.RefersOnlyTo, Schema.references, enumerationOf]
        | none => simpa [hLiterals, Schema.RefersOnlyTo, Schema.references] using hName hDeclared

/-- The schemas that stand for references to the first names refer to the second names only. -/
def Resolves (catalog : Catalog) (sources names : String → Prop) : Prop :=
  ∀ name, sources name → (catalog.schemaOfReference name).RefersOnlyTo names

/-- Schemas for references never refer to other names than these. -/
theorem resolves_same (catalog : Catalog) (names : String → Prop) : catalog.Resolves names names :=
  fun _ hName => refersOnlyTo_schemaOfReference fun _ => hName

/-- Whatever a type refers to, its schema refers to declared names. -/
theorem resolves_declared (catalog : Catalog) : catalog.Resolves (fun _ => True) (· ∈ catalog.names) :=
  fun _ _ => refersOnlyTo_schemaOfReference id

variable {sources : String → Prop}

/-- The induction is over the parts of the type: its schema refers to what its references resolve to. -/
theorem refersOnlyTo_schemaOf (hResolves : catalog.Resolves sources names) {term : TypeTerm}
    (hNames : term.RefersOnlyTo sources) (subject : String) :
    (catalog.schemaOf subject term).RefersOnlyTo names := by
  induction term using TypeTerm.induction_parts with
  | array element ih =>
      have hElement : element.RefersOnlyTo sources := hNames
      rw [schemaOf]
      exact ih hElement
  | tuple elements rest ihElements ihRest =>
      rw [schemaOf_tuple, Schema.refersOnlyTo_tuple, List.forall_mem_map]
      refine ⟨fun term hMem => ihElements term hMem (hNames.of_mem_tuple hMem), fun schema hSchema => ?_⟩
      obtain ⟨term, hRest, rfl⟩ := Option.map_eq_some_iff.mp hSchema
      have hTerm := ihRest term hRest (hNames.of_rest hRest)
      cases term with
      | array element =>
          rw [schemaOf] at hTerm
          exact hTerm
      | _ => exact hTerm
  | union members ih =>
      rw [schemaOf]
      cases TypeTerm.textLiterals? members with
      | some values => simp [Schema.RefersOnlyTo, enumerationOf, Schema.references]
      | none =>
          rw [Schema.refersOnlyTo_union, schemasOf_eq_map, List.forall_mem_map]
          exact fun term hMem => ih term hMem (hNames.of_mem_union hMem)
  | reference name =>
      rw [schemaOf]
      exact hResolves name (hNames name (by simp [TypeTerm.references]))
  | primitive kind => cases kind <;> simp [schemaOf, Schema.RefersOnlyTo, Schema.references]
  | literal value => simp [schemaOf, Schema.RefersOnlyTo, Schema.references]
  | date => simp [schemaOf, Schema.RefersOnlyTo, Schema.references]
  | anyObject => simp [schemaOf, Schema.RefersOnlyTo, Schema.references]
  | unknown => simp [schemaOf, Schema.RefersOnlyTo, Schema.references]

variable {policy : Policy} {exported : Bool} {properties : List Property}

/-- Being optional and the policy do not look at the catalog. -/
theorem schemaOfProperty_congr (hSame : SameReferences names catalog catalog') {property : Property}
    (hNames : property.type.RefersOnlyTo names) :
    catalog'.schemaOfProperty policy exported property = catalog.schemaOfProperty policy exported property := by
  rw [schemaOfProperty, schemaOfProperty, schemaOf_congr hSame hNames]

/-- The fields of an object depend on the catalog only through the types of its properties. -/
theorem fieldsOf_congr (hSame : SameReferences names catalog catalog')
    (hNames : ∀ property ∈ properties, property.type.RefersOnlyTo names) :
    catalog'.fieldsOf policy exported properties = catalog.fieldsOf policy exported properties := by
  have hFold (passed : Entries Schema) :
      (ownProperties policy properties).foldl (fun fields property =>
          fields.put property.name (catalog'.schemaOfProperty policy exported property)) passed =
        (ownProperties policy properties).foldl (fun fields property =>
          fields.put property.name (catalog.schemaOfProperty policy exported property)) passed := by
    apply List.foldl_ext
    intro fields property hMem
    rw [schemaOfProperty_congr hSame (hNames property (List.mem_filter.mp hMem).1)]
  simp only [fieldsOf, hFold]

theorem refersOnlyTo_orAbsent {schema : Schema} (hNames : schema.RefersOnlyTo names) :
    schema.orAbsent.RefersOnlyTo names := by
  cases schema <;> exact hNames

/-- A type that the policy replaces refers to nothing. -/
theorem refersOnlyTo_schemaOfProperty (hResolves : catalog.Resolves sources names) {property : Property}
    (hNames : property.type.RefersOnlyTo sources) :
    (catalog.schemaOfProperty policy exported property).RefersOnlyTo names := by
  have hAbsence {schema : Schema} (hSchema : schema.RefersOnlyTo names) :
      (if property.optional then schema.orAbsent else schema).RefersOnlyTo names := by
    split
    · exact refersOnlyTo_orAbsent hSchema
    · exact hSchema
  unfold schemaOfProperty
  cases override? policy exported property with
  | some rule => exact hAbsence (by simp [Schema.RefersOnlyTo, Schema.references])
  | none => exact hAbsence (refersOnlyTo_schemaOf hResolves hNames property.name)

def FieldsReferOnlyTo (names : String → Prop) (fields : Entries Schema) : Prop :=
  ∀ field ∈ fields, field.2.RefersOnlyTo names

/-- A field that is replaced or added refers to the names if its schema does. -/
theorem FieldsReferOnlyTo.put {fields : Entries Schema} (hFields : FieldsReferOnlyTo names fields) (name : String)
    {schema : Schema} (hSchema : schema.RefersOnlyTo names) :
    FieldsReferOnlyTo names (fields.put name schema) := by
  intro field hMem
  rcases Entries.mem_put hMem with rfl | hBefore
  · exact hSchema
  · exact hFields field hBefore

/-- Fields that are managed have schemas without references. -/
theorem fieldsReferOnlyTo_managedSchemas (policy : Policy) : FieldsReferOnlyTo names (managedSchemas policy) := by
  intro field hMem
  have hGiven := (Entries.mem_putAll hMem).resolve_left (by simp)
  simp only [List.mem_cons, List.not_mem_nil, or_false] at hGiven
  rcases hGiven with rfl | rfl | rfl <;> simp [Schema.RefersOnlyTo, Schema.references]

/-- The induction is over the rules of the policy, which add plain texts. -/
theorem FieldsReferOnlyTo.addMandatory {fields : Entries Schema} (hFields : FieldsReferOnlyTo names fields)
    (policy : Policy) (properties : List Property) :
    FieldsReferOnlyTo names (addMandatory policy properties fields) := by
  unfold Catalog.addMandatory
  induction policy.mandatory generalizing fields with
  | nil => exact hFields
  | cons rule rules ih =>
      rw [List.foldl_cons]
      apply ih
      split
      · exact hFields
      · exact hFields.put rule.name (by simp [Schema.RefersOnlyTo, Schema.references])

/-- The induction is over the properties, each of which is put in its turn. -/
theorem FieldsReferOnlyTo.putProperties {fields : Entries Schema} (hFields : FieldsReferOnlyTo names fields)
    (hResolves : catalog.Resolves sources names)
    (hNames : ∀ property ∈ properties, property.type.RefersOnlyTo sources) :
    FieldsReferOnlyTo names (properties.foldl (fun fields property =>
      fields.put property.name (catalog.schemaOfProperty policy exported property)) fields) := by
  induction properties generalizing fields with
  | nil => exact hFields
  | cons property properties ih =>
      rw [List.foldl_cons]
      obtain ⟨hProperty, hProperties⟩ := List.forall_mem_cons.mp hNames
      exact ih (hFields.put property.name (refersOnlyTo_schemaOfProperty hResolves hProperty)) hProperties

/-- The fields come from the properties and the policy, and the latter refers to nothing. -/
theorem fieldsReferOnlyTo_fieldsOf (hResolves : catalog.Resolves sources names)
    (hNames : ∀ property ∈ properties, property.type.RefersOnlyTo sources) :
    FieldsReferOnlyTo names (catalog.fieldsOf policy exported properties) := by
  have hOwn : ∀ property ∈ ownProperties policy properties, property.type.RefersOnlyTo sources :=
    fun property hMem => hNames property (List.mem_filter.mp hMem).1
  cases exported with
  | true =>
      exact ((fieldsReferOnlyTo_managedSchemas policy).putProperties hResolves hOwn).addMandatory policy
        properties
  | false => exact FieldsReferOnlyTo.putProperties (fun field hMem => absurd hMem List.not_mem_nil) hResolves hOwn

theorem refersOnlyTo_property {declaration : Declaration} {properties : List Property}
    (hBody : declaration.body = .object properties) (hNames : ∀ name ∈ declaration.references, names name) :
    ∀ property ∈ properties, property.type.RefersOnlyTo names := by
  intro property hMem name hName
  apply hNames
  rw [Declaration.references, hBody]
  exact List.mem_flatMap.mpr ⟨property, hMem, hName⟩

/-- The schema of a declaration refers to what the references in its body resolve to. -/
theorem refersOnlyTo_schemaOfDeclaration (hResolves : catalog.Resolves sources names) {declaration : Declaration}
    (hNames : ∀ name ∈ declaration.references, sources name) :
    (catalog.schemaOfDeclaration policy declaration).RefersOnlyTo names := by
  unfold schemaOfDeclaration
  split
  · rename_i properties exported hBody
    exact Schema.refersOnlyTo_object.mpr (fieldsReferOnlyTo_fieldsOf hResolves (refersOnlyTo_property hBody hNames))
  · rename_i term hBody hExported
    refine refersOnlyTo_schemaOf hResolves ?_ declaration.name
    rwa [Declaration.references, hBody] at hNames
  · exact Schema.refersOnlyTo_object.mpr (fieldsReferOnlyTo_fieldsOf hResolves (by simp))

/-- Declarations that differ at most in their places have the same schema, if the names they refer to have. -/
theorem schemaOfDeclaration_congr (hSame : SameReferences names catalog catalog')
    {declaration declaration' : Declaration} (hContent : declaration'.content = declaration.content)
    (hNames : ∀ name ∈ declaration.references, names name) :
    catalog'.schemaOfDeclaration policy declaration' = catalog.schemaOfDeclaration policy declaration := by
  obtain ⟨name, exported, body, position⟩ := declaration
  obtain ⟨name', exported', body', position'⟩ := declaration'
  obtain ⟨rfl, rfl, rfl⟩ : name' = name ∧ exported' = exported ∧ body' = body := by
    simpa [Declaration.content] using hContent
  cases body' with
  | object properties =>
      simp only [schemaOfDeclaration, fieldsOf_congr hSame (refersOnlyTo_property rfl hNames)]
  | «alias» term =>
      have hTerm : term.RefersOnlyTo names := hNames
      cases exported' with
      | false => simp only [schemaOfDeclaration, schemaOf_congr hSame hTerm]
      | true => rfl

end Schemas

section Lookup

variable {declarations : List Declaration}

/-- What is found in a list of declarations may be computed before or after looking it up. -/
theorem find?_map_name {α : Type} (f : Declaration → α) (declarations : List Declaration) (name : String) :
    Entries.find? name (declarations.map fun declaration => (declaration.name, f declaration)) =
      (declared? declarations name).map f := by
  induction declarations with
  | nil => rfl
  | cons declaration rest ih =>
      by_cases hName : declaration.name = name
      · simp [declared?, Entries.find?, hName]
      · simpa [declared?, Entries.find?, hName] using ih

/-- Where no name occurs twice, no declaration replaces another. -/
theorem entries_ofDeclarations_of_nodup (hNodup : (declarations.map Declaration.name).Nodup) :
    (ofDeclarations declarations).entries =
      declarations.map fun declaration => (declaration.name, declaration) := by
  rw [entries_ofDeclarations]
  apply Entries.putAll_of_nodup
  simpa [Entries.names, Function.comp_def] using hNodup

theorem declarations_ofDeclarations (hNodup : (declarations.map Declaration.name).Nodup) :
    (ofDeclarations declarations).declarations = declarations := by
  simp [Catalog.declarations, OrderedMap.values, entries_ofDeclarations_of_nodup hNodup, Function.comp_def]

/-- Where no name occurs twice, the catalog finds what the list declares. -/
theorem find?_ofDeclarations (hNodup : (declarations.map Declaration.name).Nodup) (name : String) :
    (ofDeclarations declarations).find? name = declared? declarations name := by
  rw [OrderedMap.find?, entries_ofDeclarations_of_nodup hNodup, find?_map_name, Option.map_id_fun', id_eq]

end Lookup

end Catalog

/-- The table of a build is closed: whatever its schemas refer to is in it. -/
theorem Artifacts.refersOnlyTo_of_find?_schemas_build {policy : Policy} {declarations : List Declaration}
    {name : String} {schema : Schema}
    (hFind : (build policy (Catalog.ofDeclarations declarations)).schemas.find? name = some schema) :
    schema.RefersOnlyTo (· ∈ (build policy (Catalog.ofDeclarations declarations)).schemas.names) := by
  rw [← OrderedMap.mem_entries_iff_find?, entries_schemas_build] at hFind
  obtain ⟨declaration, -, hEntry⟩ := List.mem_map.mp hFind
  cases hEntry
  rw [names_schemas_build]
  exact Catalog.refersOnlyTo_schemaOfDeclaration (Catalog.resolves_declared _) fun _ _ => trivial

/-- What is declared under a name is one of the declarations and has this name. -/
theorem name_of_declared? {declarations : List Declaration} {name : String} {declaration : Declaration}
    (hFound : declared? declarations name = some declaration) :
    declaration ∈ declarations ∧ declaration.name = name :=
  ⟨List.mem_of_find?_eq_some hFound, by simpa using List.find?_some hFound⟩

/-- Where no name occurs twice, every declaration is found under its name. -/
theorem declared?_of_mem {declarations : List Declaration} (hNodup : (declarations.map Declaration.name).Nodup)
    {declaration : Declaration} (hMem : declaration ∈ declarations) :
    declared? declarations declaration.name = some declaration := by
  rw [← Catalog.find?_ofDeclarations hNodup, ← OrderedMap.mem_entries_iff_find?,
    Catalog.entries_ofDeclarations_of_nodup hNodup]
  exact List.mem_map.mpr ⟨declaration, hMem, rfl⟩

section Reach

variable {first second : List Declaration} {start : String} (policy : Policy)

/-- A declaration that is found under a reached name refers to reached names only. -/
theorem Reaches.references {name : String} (hReach : Reaches first start name) {declaration : Declaration}
    (hFound : declared? first name = some declaration) :
    ∀ next ∈ declaration.references, Reaches first start next := by
  intro next hNext
  obtain ⟨hMem, rfl⟩ := name_of_declared? hFound
  exact .step hReach hMem hNext

/-- A name that is reached and declared in one list is declared alike in the other. -/
theorem AgreeFrom.declared (hAgree : AgreeFrom first second start) {name : String}
    (hReach : Reaches first start name) {declaration : Declaration}
    (hFound : declared? first name = some declaration) :
    ∃ declaration', declared? second name = some declaration' ∧ declaration'.content = declaration.content := by
  simpa [hFound] using hAgree name hReach

/-- A name that is reached and undeclared in one list is undeclared in the other. -/
theorem AgreeFrom.undeclared (hAgree : AgreeFrom first second start) {name : String}
    (hReach : Reaches first start name) (hNone : declared? first name = none) : declared? second name = none := by
  simpa [hNone] using hAgree name hReach

/-- Whether a reference is spelled out as an enumeration, stays a reference or accepts anything is the same for
both lists. -/
theorem AgreeFrom.sameReferences (hAgree : AgreeFrom first second start)
    (hFirst : (first.map Declaration.name).Nodup) (hSecond : (second.map Declaration.name).Nodup) :
    Catalog.SameReferences (Reaches first start) (Catalog.ofDeclarations first) (Catalog.ofDeclarations second) := by
  intro name hReach
  simp only [Catalog.schemaOfReference, Catalog.find?_ofDeclarations hFirst, Catalog.find?_ofDeclarations hSecond]
  cases hFound : declared? first name with
  | none => rw [hAgree.undeclared hReach hFound]
  | some declaration =>
      obtain ⟨declaration', hFound', hContent⟩ := hAgree.declared hReach hFound
      have hTexts : declaration'.textLiteralUnion? = declaration.textLiteralUnion? := by
        have hBody : declaration'.body = declaration.body := congrArg (fun content => content.2.2) hContent
        rw [Declaration.textLiteralUnion?, Declaration.textLiteralUnion?, hBody]
      rw [hFound']
      simp only [hTexts]

/-- The table finds the schema of the declaration of a name, if there is one. -/
theorem find?_schemas_build_of_nodup {declarations : List Declaration}
    (hNodup : (declarations.map Declaration.name).Nodup) (name : String) :
    (Artifacts.build policy (Catalog.ofDeclarations declarations)).schemas.find? name =
      (declared? declarations name).map ((Catalog.ofDeclarations declarations).schemaOfDeclaration policy) := by
  rw [OrderedMap.find?, Artifacts.entries_schemas_build, Catalog.declarations_ofDeclarations hNodup,
    Catalog.find?_map_name]

/-- The tables of both builds agree on the reached names. -/
theorem AgreeFrom.agreeOn (hAgree : AgreeFrom first second start)
    (hFirst : (first.map Declaration.name).Nodup) (hSecond : (second.map Declaration.name).Nodup) :
    SchemaTable.AgreeOn (Reaches first start)
      (Artifacts.build policy (Catalog.ofDeclarations first)).schemas
      (Artifacts.build policy (Catalog.ofDeclarations second)).schemas where
  same name hReach := by
    rw [find?_schemas_build_of_nodup policy hFirst, find?_schemas_build_of_nodup policy hSecond]
    cases hFound : declared? first name with
    | none => rw [hAgree.undeclared hReach hFound, Option.map_none, Option.map_none]
    | some declaration =>
        obtain ⟨declaration', hFound', hContent⟩ := hAgree.declared hReach hFound
        rw [hFound', Option.map_some, Option.map_some, Catalog.schemaOfDeclaration_congr
          (hAgree.sameReferences hFirst hSecond) hContent (hReach.references hFound)]
  closed name target hReach hFind := by
    rw [find?_schemas_build_of_nodup policy hFirst, Option.map_eq_some_iff] at hFind
    obtain ⟨declaration, hFound, rfl⟩ := hFind
    exact Catalog.refersOnlyTo_schemaOfDeclaration (Catalog.resolves_same _ _) (hReach.references hFound)

/-- Under the key of an exported declaration stand its validator and its readonly properties. -/
theorem served_of_mem {declarations : List Declaration} (hDistinct : DistinctlyNamed declarations)
    {declaration : Declaration} (hMem : declaration ∈ declarations) (hExported : declaration.exported = true) :
    let artifacts := Artifacts.build policy (Catalog.ofDeclarations declarations)
    artifacts.validators.find? declaration.key = some declaration.name ∧
      artifacts.readonly.find? declaration.key = some (Catalog.readonlyNames declaration) := by
  intro artifacts
  have hAmong : declaration ∈ (Catalog.ofDeclarations declarations).exported := by
    rw [Catalog.exported, Catalog.declarations_ofDeclarations hDistinct.names]
    exact List.mem_filter.mpr ⟨hMem, hExported⟩
  have hServed {α : Type} (f : Declaration → α) :
      (OrderedMap.ofList ((Catalog.ofDeclarations declarations).exported.map fun declaration =>
        (declaration.key, f declaration))).find? declaration.key = some (f declaration) := by
    rw [← OrderedMap.mem_entries_iff_find?, OrderedMap.entries_ofList_of_nodup]
    · exact List.mem_map.mpr ⟨declaration, hAmong, rfl⟩
    · rw [Catalog.exported, Catalog.declarations_ofDeclarations hDistinct.names]
      simpa [Entries.names, Function.comp_def] using hDistinct.keys
  exact ⟨hServed Declaration.name, hServed Catalog.readonlyNames⟩

end Reach

/-- Two lists of declarations that agree on everything reached from an exported declaration give it the same
validator, which reports the same violations in the same order, and the same readonly properties. -/
theorem validate_eq_of_agreeFrom (policy : Policy) {first second : List Declaration}
    (hFirst : DistinctlyNamed first) (hSecond : DistinctlyNamed second) {declaration : Declaration}
    (hMem : declaration ∈ first) (hExported : declaration.exported = true)
    (hAgree : AgreeFrom first second declaration.name) (document : Json) :
    let built := Artifacts.build policy (Catalog.ofDeclarations first)
    let rebuilt := Artifacts.build policy (Catalog.ofDeclarations second)
    (∃ verdict, built.validate declaration.key document = .ok verdict ∧
      rebuilt.validate declaration.key document = .ok verdict) ∧
    ∃ names, built.readonly.find? declaration.key = some names ∧
      rebuilt.readonly.find? declaration.key = some names := by
  intro built rebuilt
  have hFound := declared?_of_mem hFirst.names hMem
  obtain ⟨declaration', hFound', hContent⟩ := hAgree.declared .start hFound
  obtain ⟨hMem', hName⟩ := name_of_declared? hFound'
  obtain ⟨-, hExported', hBody⟩ : declaration'.name = declaration.name ∧
      declaration'.exported = declaration.exported ∧ declaration'.body = declaration.body := by
    simpa [Declaration.content] using hContent
  have hKey : declaration'.key = declaration.key := by rw [Declaration.key, Declaration.key, hName]
  obtain ⟨hValidator, hReadonly⟩ := served_of_mem policy hFirst hMem hExported
  obtain ⟨hValidator', hReadonly'⟩ := served_of_mem policy hSecond hMem' (hExported'.trans hExported)
  rw [hKey] at hValidator' hReadonly'
  have hTables := hAgree.agreeOn policy hFirst.names hSecond.names
  have hViolations : rebuilt.violations declaration.name document = built.violations declaration.name document := by
    have hSchema : built.schemas.find? declaration.name =
        some ((Catalog.ofDeclarations first).schemaOfDeclaration policy declaration) := by
      rw [find?_schemas_build_of_nodup policy hFirst.names, hFound, Option.map_some]
    have hReport := check_eq_of_agreeOn hTables (hTables.closed _ _ .start hSchema) (some document)
    rw [Artifacts.violations, Artifacts.violations, hTables.same _ .start, hSchema]
    exact hReport
  refine ⟨⟨Verdict.ofViolations document (built.violations declaration.name document), ?_, ?_⟩,
    Catalog.readonlyNames declaration, hReadonly, ?_⟩
  · rw [Artifacts.validate, hValidator]
  · rw [← hViolations, Artifacts.validate, hValidator', hName]
  · rw [hReadonly', Catalog.readonlyNames, Catalog.readonlyNames, Declaration.properties, Declaration.properties,
      hBody]

/-- A list type that is declared by way of itself and of an unknown name, in two sources that share nothing else. -/
theorem validate_eq_of_agreeFrom_list :
    let next : Property := ⟨"next", .union [.reference "Link", .reference "Nil"], true, true⟩
    let list : Declaration := ⟨"List", true, .object [next], ⟨1, 1⟩⟩
    let link : Body := .alias (.array (.reference "List"))
    let first : List Declaration := [list, ⟨"Link", false, link, ⟨2, 1⟩⟩, ⟨"Other", true, .object [], ⟨3, 1⟩⟩]
    let second : List Declaration := [⟨"Link", false, link, ⟨1, 1⟩⟩, { list with position := ⟨9, 1⟩ }]
    let document : Json := .object [("next", .array [.object [("last", .null)]])]
    let built := Artifacts.build Policy.standard (Catalog.ofDeclarations first)
    let rebuilt := Artifacts.build Policy.standard (Catalog.ofDeclarations second)
    DistinctlyNamed first ∧ DistinctlyNamed second ∧ AgreeFrom first second "List" ∧
      (∃ verdict, built.validate list.key document = .ok verdict ∧
        rebuilt.validate list.key document = .ok verdict) ∧
      ∃ names, built.readonly.find? list.key = some names ∧ rebuilt.readonly.find? list.key = some names := by
  intro next list link first second document built rebuilt
  have hFirst : DistinctlyNamed first := ⟨by decide, by decide⟩
  have hSecond : DistinctlyNamed second := ⟨by decide, by decide⟩
  have hReached {name : String} (hReach : Reaches first "List" name) : name ∈ ["List", "Link", "Nil"] := by
    induction hReach with
    | start => decide
    | @step declaration next reached hMem hNext ih =>
        simp only [first, List.mem_cons, List.not_mem_nil, or_false] at hMem
        rcases hMem with rfl | rfl | rfl <;> revert next <;> decide
  have hAgree : AgreeFrom first second "List" := by
    intro name hReach
    have hName := hReached hReach
    simp only [List.mem_cons, List.not_mem_nil, or_false] at hName
    rcases hName with rfl | rfl | rfl <;> rfl
  exact ⟨hFirst, hSecond, hAgree,
    validate_eq_of_agreeFrom Policy.standard hFirst hSecond (by simp [first]) rfl hAgree document⟩

end SchemaForge
