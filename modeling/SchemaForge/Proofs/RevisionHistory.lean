import SchemaForge.Proofs.ExportedTypes
import SchemaForge.Revision

/-! Revising a document by one patch after the other, where a refused patch leaves the document as it is.
What one accepted patch can do is said once; from it follows what stays the same over any number of
patches: managed and readonly fields, fields that no accepted patch names, and validity. -/
namespace SchemaForge

theorem Json.find?_members (document : Json) (name : String) :
    document.members.find? name = document.member? name := by
  cases document <;> rfl

namespace Artifacts

section Runs

variable (artifacts : Artifacts) (managed : ManagedFields) (key : String)

/-- The document after a patch: the revised one, or the same one if the patch is refused. -/
def afterPatch (document patch : Json) : Json :=
  match artifacts.revise managed key document patch with
  | .ok revised => revised
  | .error _ => document

def afterPatches (document : Json) (patches : List Json) : Json :=
  patches.foldl (artifacts.afterPatch managed key) document

def acceptedPatches : Json → List Json → List Json
  | _, [] => []
  | document, patch :: rest =>
      match artifacts.revise managed key document patch with
      | .ok revised => patch :: acceptedPatches revised rest
      | .error _ => acceptedPatches document rest

end Runs

variable {artifacts : Artifacts} {managed : ManagedFields} {key : String}

/-- What an accepted patch is and does: it is an object whose effective members touch nothing readonly,
they are put over the document, and the result is valid unless they are none. -/
theorem revise_eq_ok {document patch revised : Json}
    (hRevise : artifacts.revise managed key document patch = .ok revised) :
    ∃ typeName members, artifacts.validators.find? key = some typeName ∧ patch = .object members ∧
      (∀ name ∈ (effectiveMembers managed members).names, name ∉ artifacts.readonlyFields key) ∧
      revised = .object (document.members.putAll (effectiveMembers managed members)) ∧
      (effectiveMembers managed members = [] ∨ artifacts.violations typeName revised = []) := by
  cases hType : artifacts.validators.find? key with
  | none => simp [revise, hType] at hRevise
  | some typeName =>
      cases patch with
      | object members =>
          simp only [revise, hType] at hRevise
          split at hRevise
          case isFalse => cases hRevise
          case isTrue hTouched =>
            have hUntouched : ∀ name ∈ (effectiveMembers managed members).names,
                name ∉ artifacts.readonlyFields key := by
              simpa [List.filter_eq_nil_iff, isReadonly] using hTouched
            split at hRevise
            case isTrue hEmpty =>
              cases hRevise
              exact ⟨typeName, members, rfl, rfl, hUntouched, rfl, Or.inl (by simpa using hEmpty)⟩
            case isFalse =>
              split at hRevise
              case h_1 hValid =>
                cases hRevise
                exact ⟨typeName, members, rfl, rfl, hUntouched, rfl, Or.inr hValid⟩
              case h_2 => cases hRevise
      | _ => simp [revise, hType] at hRevise

/-- A patch that touches nothing readonly is accepted if it has nothing to say, or if the revised document is valid. -/
theorem revise_of_untouched {typeName : String} {document : Json} {members : Entries Json}
    (hType : artifacts.validators.find? key = some typeName)
    (hUntouched : ∀ name ∈ (effectiveMembers managed members).names, name ∉ artifacts.readonlyFields key)
    (hValid : effectiveMembers managed members = [] ∨
      artifacts.violations typeName (.object (document.members.putAll (effectiveMembers managed members))) = []) :
    artifacts.revise managed key document (.object members) =
      .ok (.object (document.members.putAll (effectiveMembers managed members))) := by
  have hTouched : (effectiveMembers managed members).names.filter (artifacts.isReadonly key) = [] := by
    rw [List.filter_eq_nil_iff]
    intro name hName
    simpa [isReadonly] using hUntouched name hName
  simp only [revise, hType, hTouched, List.isEmpty_nil, if_true]
  rcases hValid with hEmpty | hNone
  · rw [if_pos (by rw [hEmpty]; rfl)]
  · rw [hNone, ite_self]

theorem names_effectiveMembers (managed : ManagedFields) (members : Entries Json) :
    (effectiveMembers managed members).names = members.names.filter fun name => !managed.contains name := by
  rw [Entries.names, Entries.names, List.filter_map]
  rfl

/-- What takes effect of a patch are its members that are not managed. -/
theorem mem_names_effectiveMembers {members : Entries Json} {name : String} :
    name ∈ (effectiveMembers managed members).names ↔ name ∈ members.names ∧ name ∉ managed.names := by
  rw [names_effectiveMembers, List.mem_filter]
  simp [ManagedFields.contains]

/-- An accepted patch changes a field only if it names it and the field is neither managed nor readonly. -/
theorem member?_of_revise {document patch revised : Json} {field : String}
    (hRevise : artifacts.revise managed key document patch = .ok revised)
    (hField : field ∈ artifacts.readonlyFields key ∨ field ∈ managed.names ∨ field ∉ patch.members.names) :
    revised.member? field = document.member? field := by
  obtain ⟨typeName, members, -, rfl, hUntouched, rfl, -⟩ := revise_eq_ok hRevise
  have hUnnamed : field ∉ (effectiveMembers managed members).names := by
    intro hNamed
    obtain ⟨hMem, hOwn⟩ := mem_names_effectiveMembers.mp hNamed
    rcases hField with hReadonly | hManaged | hAbsent
    · exact hUntouched field hNamed hReadonly
    · exact hOwn hManaged
    · exact hAbsent hMem
  rw [← document.find?_members]
  exact Entries.find?_putAll_of_notMem hUnnamed _

/-- A document is valid as it is, or not at all: nothing is changed by validating it. -/
theorem validate_eq_valid_iff (artifacts : Artifacts) (key : String) (document : Json) :
    artifacts.validate key document = .ok (.valid document) ↔
      ∃ typeName, artifacts.validators.find? key = some typeName ∧
        artifacts.violations typeName document = [] := by
  unfold validate
  cases artifacts.validators.find? key with
  | none => simp
  | some typeName =>
      cases hViolations : artifacts.violations typeName document <;>
        simp [Verdict.ofViolations, hViolations]

/-- Only objects are valid documents of a type that was built from declarations. -/
theorem object_of_validate_build {policy : Policy} {declarations : List Declaration} {document : Json}
    (hValid : (build policy (Catalog.ofDeclarations declarations)).validate key document =
      .ok (.valid document)) :
    document = .object document.members := by
  obtain ⟨typeName, hType, hNone⟩ := (validate_eq_valid_iff _ key document).mp hValid
  obtain ⟨declaration, hExported, -, rfl⟩ := exported_of_find?_validators hType
  rw [violations_build_of_exported hExported] at hNone
  obtain ⟨members, rfl, -⟩ := (accepts_closedObject (Catalog.nodup_names_fieldsOf _ _ _) document).mp hNone
  rfl

/-- A patch keeps valid documents valid. A patch without effective members is not checked, but then it
leaves the object as it is. -/
theorem validate_of_revise {policy : Policy} {declarations : List Declaration}
    {document patch revised : Json}
    (hRevise : (build policy (Catalog.ofDeclarations declarations)).revise managed key document patch =
      .ok revised)
    (hValid : (build policy (Catalog.ofDeclarations declarations)).validate key document =
      .ok (.valid document)) :
    (build policy (Catalog.ofDeclarations declarations)).validate key revised = .ok (.valid revised) := by
  obtain ⟨typeName, members, hType, -, -, hRevised, hEmpty | hNone⟩ := revise_eq_ok hRevise
  · have hObject := object_of_validate_build hValid
    have hSame : revised = document := by
      rw [hRevised, hEmpty]
      exact hObject.symm
    rw [hSame]
    exact hValid
  · exact (validate_eq_valid_iff _ key revised).mpr ⟨typeName, hType, hNone⟩

/-- Over any number of patches a field keeps its value if it is readonly, managed, or named by no patch
that is accepted. -/
theorem member?_afterPatches {field : String} (document : Json) (patches : List Json)
    (hField : field ∈ artifacts.readonlyFields key ∨ field ∈ managed.names ∨
      ∀ patch ∈ artifacts.acceptedPatches managed key document patches, field ∉ patch.members.names) :
    (artifacts.afterPatches managed key document patches).member? field = document.member? field := by
  induction patches generalizing document with
  | nil => rfl
  | cons patch rest ih =>
      rw [afterPatches, List.foldl_cons, afterPatch]
      cases hRevise : artifacts.revise managed key document patch with
      | error refusal =>
          rw [acceptedPatches, hRevise] at hField
          exact ih document hField
      | ok revised =>
          rw [acceptedPatches, hRevise] at hField
          have hStep : revised.member? field = document.member? field :=
            member?_of_revise hRevise (hField.imp_right (Or.imp_right fun hAll => hAll patch (by simp)))
          have hRest := ih revised (hField.imp_right (Or.imp_right fun hAll other hOther =>
            hAll other (List.mem_cons_of_mem _ hOther)))
          exact hRest.trans hStep

/-- Over any number of patches a valid document stays valid. -/
theorem validate_afterPatches {policy : Policy} {declarations : List Declaration} (document : Json)
    (patches : List Json)
    (hValid : (build policy (Catalog.ofDeclarations declarations)).validate key document =
      .ok (.valid document)) :
    let final := (build policy (Catalog.ofDeclarations declarations)).afterPatches managed key document patches
    (build policy (Catalog.ofDeclarations declarations)).validate key final = .ok (.valid final) := by
  induction patches generalizing document with
  | nil => exact hValid
  | cons patch rest ih =>
      rw [afterPatches, List.foldl_cons, afterPatch]
      cases hRevise : (build policy (Catalog.ofDeclarations declarations)).revise managed key document patch with
      | error refusal => exact ih document hValid
      | ok revised => exact ih revised (validate_of_revise hRevise hValid)

/-- The names of a patch that are readonly and not managed, in the order of the patch. -/
def touchedNames (artifacts : Artifacts) (managed : ManagedFields) (key : String) (members : Entries Json) :
    List String :=
  members.names.filter fun name => decide (name ∈ artifacts.readonlyFields key ∧ name ∉ managed.names)

/-- Managed names may be dropped before or after readonly ones are looked for. -/
theorem filter_names_effectiveMembers (members : Entries Json) :
    (effectiveMembers managed members).names.filter (artifacts.isReadonly key) =
      artifacts.touchedNames managed key members := by
  rw [names_effectiveMembers, List.filter_filter, touchedNames]
  apply List.filter_congr
  intro name _
  simp [isReadonly, ManagedFields.contains]

/-- A patch that touches a readonly field which is not managed is refused for that alone. -/
theorem revise_of_touched {document : Json} {members : Entries Json}
    (hKey : artifacts.validators.has key = true)
    (hTouched : ∃ name ∈ members.names, name ∈ artifacts.readonlyFields key ∧ name ∉ managed.names) :
    artifacts.revise managed key document (.object members) =
      .error (.readonly (artifacts.touchedNames managed key members)) := by
  obtain ⟨typeName, hType⟩ := Option.isSome_iff_exists.mp hKey
  have hNonempty : (artifacts.touchedNames managed key members).isEmpty = false := by
    obtain ⟨name, hName, hProtected⟩ := hTouched
    have hMem : name ∈ artifacts.touchedNames managed key members :=
      List.mem_filter.mpr ⟨hName, decide_eq_true hProtected⟩
    exact List.isEmpty_eq_false_iff_exists_mem.mpr ⟨name, hMem⟩
  have hFind : artifacts.validators.find? key = some typeName := hType
  simp only [revise, hFind, filter_names_effectiveMembers, hNonempty]
  rfl

/-- The guard over whole histories, with any names for the managed fields. At every point of a history
managed and readonly fields stand as they did at the start, so does every field that no accepted patch
names, and a document that was valid is still valid. A patch that touches readonly fields which are not
managed is refused with exactly those, whatever else is wrong with it. -/
theorem revision_history_invariant (policy : Policy) (declarations : List Declaration)
    (managed : ManagedFields) {key : String}
    (hKey : (build policy (Catalog.ofDeclarations declarations)).validators.has key = true)
    (start : Json) (patches : List Json) :
    let artifacts := build policy (Catalog.ofDeclarations declarations)
    (∀ count,
      let past := patches.take count
      let document := artifacts.afterPatches managed key start past
      (∀ field, field ∈ artifacts.readonlyFields key ∨ field ∈ managed.names →
        document.member? field = start.member? field) ∧
      (∀ field, (∀ patch ∈ artifacts.acceptedPatches managed key start past, field ∉ patch.members.names) →
        document.member? field = start.member? field) ∧
      (artifacts.validate key start = .ok (.valid start) →
        artifacts.validate key document = .ok (.valid document))) ∧
    ∀ (document : Json) (members : Entries Json),
      (∃ name ∈ members.names, name ∈ artifacts.readonlyFields key ∧ name ∉ managed.names) →
      artifacts.revise managed key document (.object members) =
        .error (.readonly (members.names.filter fun name =>
          decide (name ∈ artifacts.readonlyFields key ∧ name ∉ managed.names))) := by
  intro artifacts
  refine ⟨fun count => ⟨fun field hField => ?_, fun field hField => ?_, fun hValid => ?_⟩,
    fun document members hTouched => ?_⟩
  · exact member?_afterPatches start _ (hField.imp_right Or.inl)
  · exact member?_afterPatches start _ (Or.inr (Or.inr hField))
  · exact validate_afterPatches start _ hValid
  · exact revise_of_touched hKey hTouched

/-- A history with an accepted and a refused patch: the managed name in the first one is dropped, and the
second one is refused with the readonly name although its other member would be invalid too. -/
theorem revision_history_invariant_of_article :
    let declaration : Declaration :=
      ⟨"Article", true, .object [⟨"slug", .primitive .string, false, true⟩], Position.start⟩
    let artifacts := build Policy.standard (Catalog.ofDeclarations [declaration])
    let start : Json := .object [("slug", .string "first"), ("title", .string "A"), ("category", .string "B")]
    let patches : List Json := [.object [("title", .string "C"), ("id", .null)],
      .object [("title", .null), ("slug", .string "second")]]
    artifacts.validators.has "article" = true ∧
      (artifacts.afterPatches ManagedFields.standard "article" start patches).member? "slug" =
        some (.string "first") ∧
      artifacts.revise ManagedFields.standard "article" start
          (.object [("title", .null), ("slug", .string "second")]) = .error (.readonly ["slug"]) := by
  intro declaration artifacts start patches
  have hKey : artifacts.validators.has "article" = true := by decide
  have hInvariant := revision_history_invariant Policy.standard [declaration] ManagedFields.standard hKey
    start patches
  refine ⟨hKey, ?_, ?_⟩
  · exact (hInvariant.1 2).1 "slug" (Or.inl (by decide))
  · have hRefused := hInvariant.2 start [("title", .null), ("slug", .string "second")]
      ⟨"slug", by decide, by decide⟩
    have hNames : artifacts.touchedNames ManagedFields.standard "article"
        [("title", .null), ("slug", .string "second")] = ["slug"] := by decide
    exact hRefused.trans (congrArg (fun names => Except.error (Refusal.readonly names)) hNames)

end Artifacts

end SchemaForge
