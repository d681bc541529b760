import SchemaForge.Proofs.RevisionHistory
import SchemaForge.Proofs.ServedTypes

/-! Compiling and revising each have their own names for the fields that the server manages. Revising keeps the
managed fields of the policy, and loses no other member of a patch, exactly if both have the same names. Where one of
the names differs, a type without properties is enough to show it. -/
namespace SchemaForge

namespace Artifacts

/-- Revising keeps the first fields as they are, and what a patch says about any other field stands in the revised
document. Fields of the second names are dropped from the patch. -/
def KeepsManaged (artifacts : Artifacts) (fields dropped : ManagedFields) : Prop :=
  ∀ key document patch revised, patch.members.names.Nodup →
    artifacts.revise dropped key document patch = .ok revised →
    (∀ name ∈ fields.names, revised.member? name = document.member? name) ∧
      ∀ name value, patch.member? name = some value → name ∉ fields.names → revised.member? name = some value

variable {artifacts : Artifacts} {managed : ManagedFields} {key typeName : String}

/-- What a patch says about a field that is not dropped stands in the revised document. -/
theorem member?_of_revise_of_named {document patch revised : Json} (hDistinct : patch.members.names.Nodup)
    (hRevise : artifacts.revise managed key document patch = .ok revised) {name : String} {value : Json}
    (hValue : patch.member? name = some value) (hOwn : name ∉ managed.names) : revised.member? name = some value := by
  obtain ⟨_, members, -, rfl, -, rfl, -⟩ := revise_eq_ok hRevise
  have hNodup : (effectiveMembers managed members).names.Nodup := by
    rw [names_effectiveMembers]
    exact hDistinct.filter _
  have hEffective : (name, value) ∈ effectiveMembers managed members := by
    apply List.mem_filter.mpr
    exact ⟨Entries.mem_of_find? hValue, by simpa [ManagedFields.contains] using hOwn⟩
  exact Entries.find?_putAll_of_mem hNodup hEffective _

/-- Where both have the same names, what is dropped from a patch is what is to be kept. -/
theorem keepsManaged_of_sameNames {fields : ManagedFields}
    (hSame : ∀ name, name ∈ fields.names ↔ name ∈ managed.names) : artifacts.KeepsManaged fields managed := by
  intro key document patch revised hDistinct hRevise
  constructor
  · intro name hName
    exact member?_of_revise hRevise (Or.inr (Or.inl ((hSame name).mp hName)))
  · intro name value hValue hOwn
    exact member?_of_revise_of_named hDistinct hRevise hValue fun hName => hOwn ((hSame name).mpr hName)

/-- On a type without readonly properties a patch is accepted if it has nothing to say, or if the revised document is
valid. -/
theorem revise_of_valid {document : Json} {members : Entries Json}
    (hType : artifacts.validators.find? key = some typeName) (hReadonly : artifacts.readonlyFields key = [])
    (hValid : effectiveMembers managed members = [] ∨
      artifacts.violations typeName (.object (document.members.putAll (effectiveMembers managed members))) = []) :
    artifacts.revise managed key document (.object members) =
      .ok (.object (document.members.putAll (effectiveMembers managed members))) := by
  refine revise_of_untouched hType (fun name _ => ?_) hValid
  rw [hReadonly]
  exact List.not_mem_nil

end Artifacts

def bareDeclaration : Declaration :=
  ⟨"A", true, .object [], Position.start⟩

def bareSource : String := "export type A = \x7b\x7d;"

theorem scan_bareSource : (Grammar.scan bareSource).outcome = .ok [bareDeclaration] := by
  rw [Grammar.scan, show tokenize bareSource = _ from tokenize_ofList _]
  rfl

namespace Artifacts

def bare (policy : Policy) : Artifacts :=
  build policy (Catalog.ofDeclarations [bareDeclaration])

/-- The type without properties compiles under every policy. -/
theorem outcome_ofText_bareSource (policy : Policy) (origin : String) :
    (Compilation.ofText policy origin bareSource).outcome = .ok (bare policy) := by
  rw [Compilation.outcome_ofText_of_scan policy origin bareSource scan_bareSource]
  rfl

theorem find?_validators_bare (policy : Policy) : (bare policy).validators.find? "a" = some "A" := by
  change (OrderedMap.ofList ((Catalog.ofDeclarations [bareDeclaration]).exported.map fun declaration =>
    (declaration.key, declaration.name))).find? "a" = some "A"
  decide +kernel

theorem readonlyFields_bare (policy : Policy) : (bare policy).readonlyFields "a" = [] := by
  change ((OrderedMap.ofList ((Catalog.ofDeclarations [bareDeclaration]).exported.map fun declaration =>
    (declaration.key, Catalog.readonlyNames declaration))).find? "a").getD [] = []
  decide +kernel

/-- The fields of such a type, all of which are managed or mandatory. -/
def bareFields (policy : Policy) : Entries Schema :=
  (Catalog.ofDeclarations [bareDeclaration]).fieldsOf policy true []

/-- A document of this type is checked against the managed and mandatory fields only. -/
theorem violations_bare (policy : Policy) (document : Json) :
    (bare policy).violations "A" document =
      check (bare policy).schemas (.object (bareFields policy) true) (some document) := by
  have hExported : bareDeclaration ∈ (Catalog.ofDeclarations [bareDeclaration]).exported := List.mem_singleton.mpr rfl
  exact violations_build_of_exported hExported document

/-- A value that a field of such a type accepts, one of two different ones. -/
def filler (first : Bool) : Schema → Json
  | .optional .number => .number (.integer (if first then 0 else 1))
  | _ => .string (if first then "x" else "y")

/-- Every field accepts both of its values. -/
theorem accepts_filler {policy : Policy} {table : SchemaTable} {name : String} {schema : Schema}
    (hField : (bareFields policy).find? name = some schema) (first : Bool) :
    Accepts table schema (some (filler first schema)) := by
  rw [bareFields, Catalog.find?_fieldsOf] at hField
  split at hField
  case isTrue hManaged =>
    have hGiven := (Entries.mem_putAll (Entries.mem_of_find? hField)).resolve_left (by simp)
    simp only [List.mem_cons, Prod.mk.injEq, List.not_mem_nil, or_false] at hGiven
    rcases hGiven with ⟨-, rfl⟩ | ⟨-, rfl⟩ | ⟨-, rfl⟩ <;>
      simp [filler, accepts_optional, accepts_number, accepts_text]
  case isFalse hOwn =>
    obtain ⟨rule, -, rfl⟩ : ∃ rule, policy.mandatory? name = some rule ∧ .text (some rule.message) = schema := by
      simpa [Catalog.lastProperty?] using hField
    cases first <;> simp [filler, accepts_requiredText]

/-- The two values differ, so a change from one to the other is seen. -/
theorem filler_ne (schema : Schema) : filler false schema ≠ filler true schema := by
  unfold filler
  split <;> simp

/-- A document in which every field of such a type has its first value. -/
def filledDocument (policy : Policy) : Json :=
  .object ((bareFields policy).map fun field => (field.1, filler true field.2))

/-- Every field of the type stands in the document, with its first value. -/
theorem find?_members_filledDocument (policy : Policy) (name : String) :
    (filledDocument policy).members.find? name = ((bareFields policy).find? name).map (filler true) :=
  Entries.find?_mapValues (filler true) name _

/-- The document stays valid if a field gets its second value. -/
theorem violations_bare_of_put {policy : Policy} {name : String} {schema : Schema}
    (hField : (bareFields policy).find? name = some schema) :
    (bare policy).violations "A" (.object ((filledDocument policy).members.put name (filler false schema))) = [] := by
  have hNodup : (bareFields policy).names.Nodup := Catalog.nodup_names_fieldsOf _ _ _
  have hNames : (filledDocument policy).members.names = (bareFields policy).names := Entries.names_mapValues _ _
  have hMem : name ∈ (filledDocument policy).members.names := by
    rw [hNames, ← Entries.find?_isSome_iff, hField, Option.isSome_some]
  rw [violations_bare]
  apply (accepts_closedObject hNodup _).mpr
  refine ⟨_, rfl, fun other target hTarget => ?_, fun other hOther => ?_⟩
  · rw [Entries.find?_put]
    split
    case isTrue hSame =>
      obtain rfl : schema = target := Option.some.inj (hField.symm.trans (hSame ▸ hTarget))
      exact accepts_filler hTarget false
    case isFalse =>
      rw [find?_members_filledDocument, hTarget]
      exact accepts_filler hTarget true
  · rw [Entries.names_put, if_pos hMem, hNames] at hOther
    exact hOther

/-- Already a type without properties shows a managed name of the policy that is not dropped: a patch changes it. -/
theorem mem_dropped_of_keepsManaged {policy : Policy} (hKeeps : (bare policy).KeepsManaged policy.managed managed)
    {name : String} (hName : name ∈ policy.managed.names) : name ∈ managed.names := by
  by_contra hOwn
  obtain ⟨schema, hField⟩ : ∃ schema, (bareFields policy).find? name = some schema := by
    rw [bareFields, Catalog.find?_fieldsOf, if_pos hName, ← Option.ne_none_iff_exists']
    exact fun hNone => (Catalog.find?_managedSchemas_eq_none_iff policy name).mp hNone hName
  have hEffective : effectiveMembers managed [(name, filler false schema)] = [(name, filler false schema)] := by
    simp [effectiveMembers, ManagedFields.contains, hOwn]
  have hRevise : (bare policy).revise managed "a" (filledDocument policy) (.object [(name, filler false schema)]) =
      .ok (.object ((filledDocument policy).members.put name (filler false schema))) := by
    rw [revise_of_valid (find?_validators_bare policy) (readonlyFields_bare policy), hEffective]
    · rfl
    · rw [hEffective]
      exact Or.inr (violations_bare_of_put hField)
  have hKept := (hKeeps "a" _ _ _ (by simp [Entries.names, Json.members]) hRevise).1 name hName
  rw [← Json.find?_members, ← Json.find?_members, find?_members_filledDocument, hField] at hKept
  have hChanged : Entries.find? name ((filledDocument policy).members.put name (filler false schema)) =
      some (filler false schema) := Entries.find?_put_self _ _ _
  exact filler_ne schema (Option.some.inj (hChanged.symm.trans hKept))

/-- It also shows a name that is dropped although the policy does not manage it: a patch with this name only has nothing
to say. -/
theorem mem_managed_of_keepsManaged {policy : Policy} (hKeeps : (bare policy).KeepsManaged policy.managed managed)
    {name : String} (hName : name ∈ managed.names) : name ∈ policy.managed.names := by
  by_contra hOwn
  have hEffective : effectiveMembers managed [(name, .null)] = [] := by
    simp [effectiveMembers, ManagedFields.contains, hName]
  have hRevise : (bare policy).revise managed "a" (.object []) (.object [(name, .null)]) = .ok (.object []) := by
    rw [revise_of_valid (find?_validators_bare policy) (readonlyFields_bare policy) (Or.inl hEffective), hEffective]
    rfl
  have hNull : (Json.object [(name, .null)]).member? name = some .null := by simp [Json.member?, Entries.find?]
  have hKept := (hKeeps "a" _ _ _ (by simp [Entries.names, Json.members]) hRevise).2 name .null hNull hOwn
  cases hKept

/-- Whatever source is compiled with a policy, revising with names to drop keeps the managed fields of the policy and
loses nothing else, exactly if the names are those of the policy. This is so with the names of the policy itself; with
the standard names it depends on the policy. -/
theorem keepsManaged_iff_sameNames (policy : Policy) (dropped : ManagedFields) :
    (∀ origin source artifacts, (Compilation.ofText policy origin source).outcome = .ok artifacts →
      artifacts.KeepsManaged policy.managed dropped) ↔
    ∀ name, name ∈ policy.managed.names ↔ name ∈ dropped.names := by
  constructor
  · intro hAll name
    have hKeeps := hAll Compilation.unnamedOrigin bareSource (bare policy) (outcome_ofText_bareSource policy _)
    exact ⟨mem_dropped_of_keepsManaged hKeeps, mem_managed_of_keepsManaged hKeeps⟩
  · intro hSame origin source artifacts _
    exact keepsManaged_of_sameNames hSame

def renamedPolicy : Policy :=
  { managed := { ManagedFields.standard with id := "_id" }, mandatory := [] }

/-- With the standard names to drop, a patch changes an identifier that has another name in the policy. -/
theorem revise_changes_renamed_id :
    (Compilation.ofText renamedPolicy Compilation.unnamedOrigin bareSource).outcome = .ok (bare renamedPolicy) ∧
      "_id" ∈ renamedPolicy.managed.names ∧
      (bare renamedPolicy).revise ManagedFields.standard "a" (.object [("_id", .number (.integer 1))])
          (.object [("_id", .number (.integer 5))]) = .ok (.object [("_id", .number (.integer 5))]) := by
  refine ⟨outcome_ofText_bareSource renamedPolicy _, by decide, ?_⟩
  rw [revise_of_valid (find?_validators_bare renamedPolicy) (readonlyFields_bare renamedPolicy)]
  · rfl
  · exact Or.inr (by decide +kernel)

end Artifacts

end SchemaForge
