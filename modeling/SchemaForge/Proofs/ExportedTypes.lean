import SchemaForge.Proofs.BuiltArtifacts
import SchemaForge.Proofs.Conformance

/-! The fields of an exported type, name by name, and what its validator accepts. A managed name keeps the
schema that passes it through; any other declared name has the schema of its last property; a mandatory
name that is not declared is added with its first rule. -/
namespace SchemaForge

namespace Catalog

def lastProperty? (properties : List Property) (name : String) : Option Property :=
  (properties.filter fun property => property.name = name).getLast?

theorem lastProperty?_some {properties : List Property} {name : String} {property : Property}
    (hLast : lastProperty? properties name = some property) :
    property ∈ properties ∧ property.name = name := by
  have hMem := List.mem_of_getLast? hLast
  simpa using hMem

/-- There is no last property of a name exactly if there is none at all. -/
theorem lastProperty?_eq_none_iff (properties : List Property) (name : String) :
    lastProperty? properties name = none ↔ ∀ property ∈ properties, property.name ≠ name := by
  simp [lastProperty?]

theorem contains_managed_iff (managed : ManagedFields) (name : String) :
    managed.contains name = true ↔ name ∈ managed.names := by
  simp [ManagedFields.contains]

/-- Properties with managed names are dropped, and the others keep their order. -/
theorem lastProperty?_ownProperties (policy : Policy) (properties : List Property) (name : String) :
    lastProperty? (ownProperties policy properties) name =
      if name ∈ policy.managed.names then none else lastProperty? properties name := by
  unfold lastProperty? ownProperties
  rw [List.filter_filter]
  by_cases hManaged : name ∈ policy.managed.names
  · rw [if_pos hManaged, List.filter_eq_nil_iff.mpr]
    · rfl
    · intro property _
      simp only [Bool.and_eq_true, decide_eq_true_eq, Bool.not_eq_true', not_and, Bool.not_eq_false]
      rintro rfl
      exact (contains_managed_iff policy.managed property.name).mpr hManaged
  · rw [if_neg hManaged]
    congr 1
    apply List.filter_congr
    intro property _
    by_cases hName : property.name = name
    · have hOwn : policy.managed.contains name = false := by
        rw [← Bool.not_eq_true, contains_managed_iff]
        exact hManaged
      simp [hName, hOwn]
    · simp [hName]

/-- Declared fields after those that are passed through: the last property of a name counts. -/
theorem find?_foldl_properties (schemaOf : Property → Schema) (properties : List Property)
    (passed : Entries Schema) (name : String) :
    (properties.foldl (fun fields property => fields.put property.name (schemaOf property)) passed).find? name =
      ((lastProperty? properties name).map schemaOf).or (passed.find? name) := by
  have hPutAll : properties.foldl (fun fields property => fields.put property.name (schemaOf property)) passed =
      passed.putAll (properties.map fun property => (property.name, schemaOf property)) := by
    rw [Entries.putAll, List.foldl_map]
  rw [hPutAll, Entries.find?_putAll, List.filter_map, List.getLast?_map, Option.map_map]
  rfl

/-- Adding the mandatory fields leaves what is there, and adds the first rule of every other name that is
not declared. -/
theorem find?_foldl_mandatory (properties : List Property) (rules : List MandatoryField)
    (fields : Entries Schema) (name : String) :
    (rules.foldl (fun fields rule =>
        if properties.any (fun property => property.name = rule.name) || fields.has rule.name then fields
        else fields.put rule.name (.text (some rule.message))) fields).find? name =
      (fields.find? name).or
        (if ∃ property ∈ properties, property.name = name then none
        else (rules.find? fun rule => rule.name = name).map fun rule => .text (some rule.message)) := by
  induction rules generalizing fields with
  | nil => simp
  | cons rule rest ih =>
      rw [List.foldl_cons, ih]
      by_cases hName : rule.name = name
      · subst hName
        by_cases hDeclared : ∃ property ∈ properties, property.name = rule.name
        · simp [hDeclared]
        · cases hFind : fields.find? rule.name with
          | some schema => simp [hDeclared, Entries.has, hFind]
          | none =>
              simp [hDeclared, Entries.has, hFind, Entries.find?_put_self]
      · have hOther : (if properties.any (fun property => property.name = rule.name) || fields.has rule.name
            then fields else fields.put rule.name (.text (some rule.message))).find? name = fields.find? name := by
          split
          · rfl
          · exact Entries.find?_put_of_ne hName _ _
        rw [hOther, List.find?_cons_of_neg (by simpa using hName)]

/-- A name has a schema of the policy exactly if it is managed. -/
theorem find?_managedSchemas_eq_none_iff (policy : Policy) (name : String) :
    (managedSchemas policy).find? name = none ↔ name ∉ policy.managed.names := by
  have hNames : ∀ entry ∈ managedSchemas policy, entry.1 ∈ policy.managed.names := by
    intro entry hMem
    have hGiven := (Entries.mem_putAll hMem).resolve_left (by simp)
    simp only [List.mem_cons, List.not_mem_nil, or_false] at hGiven
    rcases hGiven with rfl | rfl | rfl <;> simp [ManagedFields.names]
  constructor
  · intro hNone hManaged
    rw [managedSchemas, Entries.ofList, Entries.find?_putAll] at hNone
    simp only [ManagedFields.names, List.mem_cons, List.not_mem_nil, or_false] at hManaged
    rcases hManaged with rfl | rfl | rfl <;> simp at hNone
  · intro hManaged
    rw [Entries.find?_eq_none_iff]
    intro hName
    obtain ⟨entry, hMem, rfl⟩ := List.mem_map.mp hName
    exact hManaged (hNames entry hMem)

/-- The schema of a field of an exported type. -/
theorem find?_fieldsOf (catalog : Catalog) (policy : Policy) (properties : List Property) (name : String) :
    (catalog.fieldsOf policy true properties).find? name =
      if name ∈ policy.managed.names then (managedSchemas policy).find? name
      else ((lastProperty? properties name).map (catalog.schemaOfProperty policy true)).or
        ((policy.mandatory? name).map fun rule => .text (some rule.message)) := by
  have hNone := find?_managedSchemas_eq_none_iff policy name
  simp only [fieldsOf, addMandatory, if_true, find?_foldl_mandatory, find?_foldl_properties,
    lastProperty?_ownProperties]
  by_cases hManaged : name ∈ policy.managed.names
  · obtain ⟨schema, hSchema⟩ := Option.ne_none_iff_exists'.mp (fun h => hNone.mp h hManaged)
    simp [hManaged, hSchema]
  · rw [if_neg hManaged, if_neg hManaged, hNone.mpr hManaged, Option.or_none]
    cases hLast : lastProperty? properties name with
    | some property => rfl
    | none =>
        have hUndeclared : ¬ ∃ property ∈ properties, property.name = name := by
          rintro ⟨property, hMem, hName⟩
          exact (lastProperty?_eq_none_iff properties name).mp hLast property hMem hName
        rw [if_neg hUndeclared]
        rfl

/-- With three different names each managed field is passed through with its own schema. -/
theorem find?_managedSchemas {policy : Policy} (hDistinct : policy.managed.names.Nodup) :
    (managedSchemas policy).find? policy.managed.id = some (.optional .number) ∧
      ∀ name ∈ [policy.managed.createdAt, policy.managed.updatedAt],
        (managedSchemas policy).find? name = some (.optional (.text none)) := by
  simp only [ManagedFields.names, List.nodup_cons, List.mem_cons, List.not_mem_nil, or_false, not_or] at hDistinct
  obtain ⟨⟨hIdCreated, hIdUpdated⟩, hCreatedUpdated, -⟩ := hDistinct
  refine ⟨?_, fun name hName => ?_⟩
  · rw [managedSchemas, Entries.ofList, Entries.find?_putAll]
    simp [Ne.symm hIdCreated, Ne.symm hIdUpdated]
  · simp only [List.mem_cons, List.not_mem_nil, or_false] at hName
    rw [managedSchemas, Entries.ofList, Entries.find?_putAll]
    rcases hName with rfl | rfl
    · simp [hIdCreated, Ne.symm hCreatedUpdated]
    · simp [hIdUpdated, hCreatedUpdated]

theorem mandatory?_eq_none_iff (policy : Policy) (name : String) :
    policy.mandatory? name = none ↔ ∀ rule ∈ policy.mandatory, rule.name ≠ name := by
  simp [Policy.mandatory?]

theorem mandatory?_of_mem {policy : Policy} {rule : MandatoryField} (hRule : rule ∈ policy.mandatory) :
    ∃ first, policy.mandatory? rule.name = some first := by
  rw [← Option.ne_none_iff_exists']
  exact fun hNone => (mandatory?_eq_none_iff policy rule.name).mp hNone rule hRule rfl

/-- The names of the fields: those that are managed, declared or mandatory. -/
theorem mem_names_fieldsOf (catalog : Catalog) (policy : Policy) (properties : List Property)
    (name : String) :
    name ∈ (catalog.fieldsOf policy true properties).names ↔ name ∈ policy.managed.names ∨
      (∃ property ∈ properties, property.name = name) ∨ ∃ rule ∈ policy.mandatory, rule.name = name := by
  rw [← not_iff_not, ← Entries.find?_eq_none_iff, find?_fieldsOf]
  by_cases hManaged : name ∈ policy.managed.names
  · simp [hManaged, find?_managedSchemas_eq_none_iff]
  · simp [hManaged, lastProperty?_eq_none_iff, mandatory?_eq_none_iff]

/-- Fields are put one after the other, so no name occurs twice. -/
theorem nodup_names_fieldsOf (catalog : Catalog) (policy : Policy) (properties : List Property) :
    (catalog.fieldsOf policy true properties).names.Nodup := by
  have hPassed : (managedSchemas policy).names.Nodup :=
    Entries.nodup_names_putAll (by simp [Entries.names]) _
  have hDeclared := List.foldlRecOn (motive := fun fields => (Entries.names fields).Nodup)
    (ownProperties policy properties)
    (fun fields property => fields.put property.name (catalog.schemaOfProperty policy true property))
    hPassed (fun fields hNodup property _ => Entries.nodup_names_put _ _ fields hNodup)
  refine List.foldlRecOn (motive := fun fields => (Entries.names fields).Nodup) policy.mandatory _
    hDeclared (fun fields hNodup rule _ => ?_)
  split
  · exact hNodup
  · exact Entries.nodup_names_put _ _ fields hNodup

variable {table : SchemaTable}

/-- A mandatory rule overrides the type of a property and keeps its optionality. -/
theorem accepts_schemaOfProperty_of_rule (catalog : Catalog) {policy : Policy} {property : Property}
    {rule : MandatoryField} (hRule : policy.mandatory? property.name = some rule)
    (candidate : Option Json) :
    Accepts table (catalog.schemaOfProperty policy true property) candidate ↔
      (∃ value, candidate = some (.string value) ∧ value ≠ "") ∨
        (candidate = none ∧ property.optional = true) := by
  have hOverride : override? policy true property = some rule := hRule
  cases hOptional : property.optional with
  | false => simp [schemaOfProperty, hOverride, hOptional, accepts_requiredText]
  | true =>
      simp only [schemaOfProperty, hOverride, hOptional, if_true, accepts_orAbsent, accepts_requiredText,
        and_true]
      exact or_comm

/-- Without a rule a property has the schema of its type. -/
theorem accepts_schemaOfProperty_of_no_rule (catalog : Catalog) {policy : Policy} {property : Property}
    (hNoRule : policy.mandatory? property.name = none) (candidate : Option Json) :
    Accepts table (catalog.schemaOfProperty policy true property) candidate ↔
      Accepts table (catalog.schemaOf property.name property.type) candidate ∨
        (candidate = none ∧ property.optional = true) := by
  have hOverride : override? policy true property = none := hNoRule
  cases hOptional : property.optional with
  | false => simp [schemaOfProperty, hOverride, hOptional]
  | true =>
      simp only [schemaOfProperty, hOverride, hOptional, if_true, accepts_orAbsent, and_true]
      exact or_comm

end Catalog

/-- The rules for the members of a document of an exported type: which names there may be, what stands
under the managed ones, what the mandatory ones ask for whatever their declared type, and what the other
declared ones ask for. Of several properties with one name the last one counts. -/
structure FollowsPolicy (catalog : Catalog) (policy : Policy) (table : SchemaTable)
    (properties : List Property) (members : Entries Json) : Prop where
  keys : ∀ name ∈ members.names, name ∈ policy.managed.names ∨
    (∃ property ∈ properties, property.name = name) ∨ ∃ rule ∈ policy.mandatory, rule.name = name
  id : members.find? policy.managed.id = none ∨
    ∃ value, members.find? policy.managed.id = some (.number value)
  timestamps : ∀ name ∈ [policy.managed.createdAt, policy.managed.updatedAt],
    members.find? name = none ∨ ∃ value, members.find? name = some (.string value)
  mandatory : ∀ rule ∈ policy.mandatory, rule.name ∉ policy.managed.names →
    (∃ value, members.find? rule.name = some (.string value) ∧ value ≠ "") ∨
      (members.find? rule.name = none ∧
        ∃ property, Catalog.lastProperty? properties rule.name = some property ∧ property.optional = true)
  declared : ∀ name property, Catalog.lastProperty? properties name = some property →
    name ∉ policy.managed.names → (∀ rule ∈ policy.mandatory, rule.name ≠ name) →
    (∃ document, members.find? name = some document ∧
        check table (catalog.schemaOf name property.type) (some document) = []) ∨
      (members.find? name = none ∧
        (property.optional = true ∨ check table (catalog.schemaOf name property.type) none = []))

section Meaning

variable {policy : Policy} (catalog : Catalog) (table : SchemaTable) (properties : List Property)

/-- The field of the identifier asks for a number or accepts absence, whatever is declared under its name. -/
theorem accepts_field_iff_of_id (hDistinct : policy.managed.names.Nodup) (candidate : Option Json) :
    (∀ schema, (catalog.fieldsOf policy true properties).find? policy.managed.id = some schema →
        Accepts table schema candidate) ↔
      candidate = none ∨ ∃ value, candidate = some (.number value) := by
  have hManaged : policy.managed.id ∈ policy.managed.names := List.mem_cons_self
  rw [Catalog.find?_fieldsOf, if_pos hManaged, (Catalog.find?_managedSchemas hDistinct).1]
  simp [accepts_optional, accepts_number]

/-- The field of a timestamp asks for a text or accepts absence. -/
theorem accepts_field_iff_of_timestamp (hDistinct : policy.managed.names.Nodup) {name : String}
    (hTimestamp : name ∈ [policy.managed.createdAt, policy.managed.updatedAt]) (candidate : Option Json) :
    (∀ schema, (catalog.fieldsOf policy true properties).find? name = some schema →
        Accepts table schema candidate) ↔
      candidate = none ∨ ∃ value, candidate = some (.string value) := by
  have hManaged : name ∈ policy.managed.names := List.mem_cons_of_mem _ hTimestamp
  rw [Catalog.find?_fieldsOf, if_pos hManaged, (Catalog.find?_managedSchemas hDistinct).2 name hTimestamp]
  simp [accepts_optional, accepts_text]

/-- The field under a name with a rule asks for a text that is not empty, or accepts absence if the last
property of the name is optional. -/
theorem accepts_field_iff_of_rule {name : String} {rule : MandatoryField}
    (hUnmanaged : name ∉ policy.managed.names) (hRule : policy.mandatory? name = some rule)
    (candidate : Option Json) :
    (∀ schema, (catalog.fieldsOf policy true properties).find? name = some schema →
        Accepts table schema candidate) ↔
      (∃ value, candidate = some (.string value) ∧ value ≠ "") ∨
        (candidate = none ∧
          ∃ property, Catalog.lastProperty? properties name = some property ∧ property.optional = true) := by
  rw [Catalog.find?_fieldsOf, if_neg hUnmanaged, hRule]
  cases hLast : Catalog.lastProperty? properties name with
  | none => simp [accepts_requiredText]
  | some property =>
      obtain ⟨-, rfl⟩ := Catalog.lastProperty?_some hLast
      simp [Catalog.accepts_schemaOfProperty_of_rule catalog hRule]

/-- The field under a name without a rule asks for what the type of the last property asks for, or accepts
absence if that property is optional. -/
theorem accepts_field_iff_of_no_rule {name : String}
    (hUnmanaged : name ∉ policy.managed.names) (hNoRule : policy.mandatory? name = none)
    (candidate : Option Json) :
    (∀ schema, (catalog.fieldsOf policy true properties).find? name = some schema →
        Accepts table schema candidate) ↔
      ∀ property, Catalog.lastProperty? properties name = some property →
        (∃ document, candidate = some document ∧
            check table (catalog.schemaOf name property.type) (some document) = []) ∨
          (candidate = none ∧
            (property.optional = true ∨ check table (catalog.schemaOf name property.type) none = [])) := by
  rw [Catalog.find?_fieldsOf, if_neg hUnmanaged, hNoRule]
  cases hLast : Catalog.lastProperty? properties name with
  | none => simp
  | some property =>
      obtain ⟨-, rfl⟩ := Catalog.lastProperty?_some hLast
      have hAccepts : Accepts table (catalog.schemaOfProperty policy true property) candidate ↔ _ :=
        Catalog.accepts_schemaOfProperty_of_no_rule catalog hNoRule candidate
      simp only [Accepts] at hAccepts
      cases candidate <;> simp [Accepts, hAccepts, or_comm]

/-- What the fields of an exported type ask of the members is what the policy and the declaration ask. -/
theorem followsPolicy_iff (hDistinct : policy.managed.names.Nodup) (members : Entries Json) :
    FollowsPolicy catalog policy table properties members ↔
      (∀ name schema, (catalog.fieldsOf policy true properties).find? name = some schema →
        Accepts table schema (members.find? name)) ∧
      ∀ name ∈ members.names, name ∈ (catalog.fieldsOf policy true properties).names := by
  constructor
  · intro hFollows
    refine ⟨fun name => ?_, fun name hName => ?_⟩
    · by_cases hManaged : name ∈ policy.managed.names
      · rcases List.mem_cons.mp hManaged with rfl | hTimestamp
        · rw [accepts_field_iff_of_id catalog table properties hDistinct]
          exact hFollows.id
        · rw [accepts_field_iff_of_timestamp catalog table properties hDistinct hTimestamp]
          exact hFollows.timestamps name hTimestamp
      · cases hRule : policy.mandatory? name with
        | some rule =>
            rw [accepts_field_iff_of_rule catalog table properties hManaged hRule]
            obtain rfl : rule.name = name := by simpa using List.find?_some hRule
            exact hFollows.mandatory rule (List.mem_of_find?_eq_some hRule) hManaged
        | none =>
            rw [accepts_field_iff_of_no_rule catalog table properties hManaged hRule]
            exact fun property hLast => hFollows.declared name property hLast hManaged
              ((Catalog.mandatory?_eq_none_iff policy name).mp hRule)
    · exact (Catalog.mem_names_fieldsOf catalog policy properties name).mpr (hFollows.keys name hName)
  · rintro ⟨hFields, hKeys⟩
    constructor
    case keys =>
      intro name hName
      exact (Catalog.mem_names_fieldsOf catalog policy properties name).mp (hKeys name hName)
    case id =>
      exact (accepts_field_iff_of_id catalog table properties hDistinct _).mp (hFields policy.managed.id)
    case timestamps =>
      intro name hName
      exact (accepts_field_iff_of_timestamp catalog table properties hDistinct hName _).mp (hFields name)
    case mandatory =>
      intro rule hRule hUnmanaged
      obtain ⟨first, hFirst⟩ := Catalog.mandatory?_of_mem hRule
      exact (accepts_field_iff_of_rule catalog table properties hUnmanaged hFirst _).mp (hFields rule.name)
    case declared =>
      intro name property hLast hUnmanaged hNoRule
      have hNone := (Catalog.mandatory?_eq_none_iff policy name).mpr hNoRule
      exact (accepts_field_iff_of_no_rule catalog table properties hUnmanaged hNone _).mp (hFields name)
        property hLast

end Meaning

section Messages

variable {table : SchemaTable} {fields : Entries Schema} {members : Entries Json} {name : String}

/-- What the checker of a member, or of its absence, finds is reported for the object. -/
theorem mem_check_object {schema : Schema} {strict : Bool} {violation : Violation}
    (hField : fields.find? name = some schema)
    (hViolation : violation ∈ checkerOf table table.size (members.find? name) [name] schema) :
    violation ∈ check table (.object fields strict) (some (.object members)) := by
  have hFields := @fieldViolations_eq_flatMap (absentChecker table table.size) (checkerOf table table.size)
    rfl [] fields members
  rw [check, checkerOf_eq_placeChecker]
  apply List.mem_append_left _
  rw [missingFor, hFields]
  exact List.mem_flatMap.mpr ⟨(name, schema), Entries.mem_of_find? hField, hViolation⟩

/-- The field under a name with a rule holds the message of the first rule for the name. -/
theorem find?_fieldsOf_of_rule (catalog : Catalog) {policy : Policy} (properties : List Property)
    {rule : MandatoryField} (hUnmanaged : name ∉ policy.managed.names)
    (hRule : policy.mandatory? name = some rule) :
    (catalog.fieldsOf policy true properties).find? name =
      some (if ∃ property, Catalog.lastProperty? properties name = some property ∧ property.optional = true
        then .optional (.text (some rule.message)) else .text (some rule.message)) := by
  rw [Catalog.find?_fieldsOf, if_neg hUnmanaged, hRule]
  cases hLast : Catalog.lastProperty? properties name with
  | none => simp
  | some property =>
      obtain ⟨-, rfl⟩ := Catalog.lastProperty?_some hLast
      have hOverride : Catalog.override? policy true property = some rule := hRule
      cases hOptional : property.optional <;>
        simp [Catalog.schemaOfProperty, hOverride, hOptional, Schema.orAbsent]

/-- A mandatory field that is missing, or an empty text, is reported under its own name with the message
of the first rule for the name. -/
theorem mem_check_of_mandatory (catalog : Catalog) {policy : Policy} (properties : List Property)
    {rule : MandatoryField} (hUnmanaged : name ∉ policy.managed.names)
    (hRule : policy.mandatory? name = some rule) :
    (members.find? name = none →
        (¬ ∃ property, Catalog.lastProperty? properties name = some property ∧ property.optional = true) →
      ⟨name, rule.message, .required⟩ ∈
        check table (.object (catalog.fieldsOf policy true properties) true) (some (.object members))) ∧
    (members.find? name = some (.string "") →
      ⟨name, rule.message, .tooSmall⟩ ∈
        check table (.object (catalog.fieldsOf policy true properties) true) (some (.object members))) := by
  have hField := find?_fieldsOf_of_rule catalog properties hUnmanaged hRule
  constructor
  · intro hMissing hRequired
    rw [if_neg hRequired] at hField
    apply mem_check_object hField
    rw [hMissing]
    exact List.mem_singleton.mpr rfl
  · intro hEmpty
    apply mem_check_object hField
    rw [hEmpty]
    split
    · exact List.mem_singleton.mpr rfl
    · exact List.mem_singleton.mpr rfl

end Messages

/-- The meaning of the validator of an exported type: it accepts exactly the objects that follow the policy
and the declaration, and a mandatory field that is missing or empty is reported with its message. A type
that is no object counts as one without properties. -/
theorem violations_exported_eq_nil_iff {policy : Policy} (hDistinct : policy.managed.names.Nodup)
    (declarations : List Declaration) {declaration : Declaration}
    (hExported : declaration ∈ (Catalog.ofDeclarations declarations).exported) (document : Json) :
    let catalog := Catalog.ofDeclarations declarations
    let artifacts := Artifacts.build policy catalog
    (artifacts.violations declaration.name document = [] ↔
      ∃ members, document = .object members ∧
        FollowsPolicy catalog policy artifacts.schemas declaration.properties members) ∧
    ∀ members, document = .object members → ∀ rule ∈ policy.mandatory, rule.name ∉ policy.managed.names →
      ∃ first, policy.mandatory? rule.name = some first ∧
        (Entries.find? rule.name members = none →
            (¬ ∃ property, Catalog.lastProperty? declaration.properties rule.name = some property ∧
              property.optional = true) →
          ⟨rule.name, first.message, .required⟩ ∈ artifacts.violations declaration.name document) ∧
        (Entries.find? rule.name members = some (.string "") →
          ⟨rule.name, first.message, .tooSmall⟩ ∈ artifacts.violations declaration.name document) := by
  intro catalog artifacts
  have hViolations : artifacts.violations declaration.name document =
      check artifacts.schemas (.object (catalog.fieldsOf policy true declaration.properties) true)
        (some document) :=
    Artifacts.violations_build_of_exported hExported document
  rw [hViolations]
  constructor
  · have hObject : Accepts artifacts.schemas
        (.object (catalog.fieldsOf policy true declaration.properties) true) (some document) ↔ _ :=
      accepts_closedObject (catalog.nodup_names_fieldsOf policy declaration.properties) document
    rw [Accepts] at hObject
    simp only [hObject, followsPolicy_iff catalog artifacts.schemas declaration.properties hDistinct]
  · rintro members rfl rule hRule hUnmanaged
    obtain ⟨first, hFirst⟩ := Catalog.mandatory?_of_mem hRule
    exact ⟨first, hFirst, mem_check_of_mandatory catalog declaration.properties hUnmanaged hFirst⟩

/-- A title declared twice, as a number and last as optional: the rule for titles replaces the type, the
last declaration decides about absence, and an empty title is reported with the message of the rule. -/
theorem violations_exported_twice_declared_title :
    let title : Bool → Property := fun optional => ⟨"title", .primitive .number, optional, false⟩
    let declaration : Declaration :=
      ⟨"Article", true, .object [title false, title true], Position.start⟩
    let catalog := Catalog.ofDeclarations [declaration]
    let artifacts := Artifacts.build Policy.standard catalog
    Policy.standard.managed.names.Nodup ∧ declaration ∈ catalog.exported ∧
      (artifacts.violations "Article" (.object [("title", .string ""), ("category", .string "news")]) = [] ↔
        ∃ members, Json.object [("title", .string ""), ("category", .string "news")] = .object members ∧
          FollowsPolicy catalog Policy.standard artifacts.schemas [title false, title true] members) ∧
      ⟨"title", "Title is required", .tooSmall⟩ ∈
        artifacts.violations "Article" (.object [("title", .string ""), ("category", .string "news")]) := by
  intro title declaration catalog artifacts
  have hDistinct : Policy.standard.managed.names.Nodup := by decide
  have hExported : declaration ∈ catalog.exported := List.mem_singleton.mpr rfl
  have hMeaning := violations_exported_eq_nil_iff hDistinct [declaration] hExported
    (.object [("title", .string ""), ("category", .string "news")])
  refine ⟨hDistinct, hExported, hMeaning.1, ?_⟩
  obtain ⟨first, hFirst, -, hEmpty⟩ := hMeaning.2 _ rfl ⟨"title", "Title is required"⟩ (by decide) (by decide)
  obtain rfl : ⟨"title", "Title is required"⟩ = first := Option.some.inj ((by decide : _ = _).trans hFirst)
  exact hEmpty rfl

end SchemaForge
