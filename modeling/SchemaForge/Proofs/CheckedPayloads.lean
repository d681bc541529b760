import SchemaForge.Proofs.RevisionHistory
import SchemaForge.Proofs.SessionRuns

/-! What the command that checks a payload says yes to. With a patch for a document that is there, it prints the
revised document and succeeds. That document was checked by the validator of its type, except where the patch names
only fields that the server manages: such a patch has nothing to say, and the document stays as it is, valid or
not. -/
namespace SchemaForge

namespace Artifacts

/-- The revised document is valid, or it has the members that were there because the patch names only managed
fields. -/
def ValidOrUnchanged (artifacts : Artifacts) (managed : ManagedFields) (key : String)
    (document patch revised : Json) : Prop :=
  artifacts.validate key revised = .ok (.valid revised) ∨
    (∀ name ∈ patch.members.names, name ∈ managed.names) ∧ revised = .object document.members

/-- A patch is checked after it is put over the document, unless nothing of it is left. -/
theorem validOrUnchanged_of_revise {artifacts : Artifacts} {managed : ManagedFields} {key : String}
    {document patch revised : Json} (hRevise : artifacts.revise managed key document patch = .ok revised) :
    artifacts.ValidOrUnchanged managed key document patch revised := by
  obtain ⟨typeName, members, hType, rfl, -, hRevised, hEmpty | hValid⟩ := revise_eq_ok hRevise
  · right
    refine ⟨fun name hName => ?_, by rw [hRevised, hEmpty]; rfl⟩
    by_contra hOwn
    have hEffective : name ∈ (effectiveMembers managed members).names :=
      mem_names_effectiveMembers.mpr ⟨hName, hOwn⟩
    rw [hEmpty] at hEffective
    cases hEffective
  · left
    exact (validate_eq_valid_iff artifacts key revised).mpr ⟨typeName, hType, hValid⟩

end Artifacts

namespace Session

variable {printed later : String} {disk after : Disk}

def settingsWith (loaded : Settings) (input : Option String) : Settings :=
  loaded.override { source := input }

/-- A verdict on a patch that is not a failure is a revised document, or says why there is none. -/
theorem of_payloadVerdict_ok {artifacts : Artifacts} {managed : ManagedFields} {key path : String} {patch : Json}
    {verdict : Verdict}
    (hRun : (payloadVerdict artifacts managed key patch (some path) : Session (StateM Disk) Verdict).run printed disk =
      ((.ok verdict, later), after)) :
    later = printed ∧ after = disk ∧ ∃ document, Job.Yields disk (readDocument path) document ∧
      ((∃ violations, verdict = .invalid violations) ∨
        ∃ revised, artifacts.revise managed key document patch = .ok revised ∧ verdict = .valid revised) := by
  obtain ⟨document, hDocument, hVerdict⟩ := exists_of_perform_bind_ok (Job.readsOnly_readDocument path) hRun
  cases hRevise : artifacts.revise managed key document patch with
  | ok revised =>
      rw [hRevise] at hVerdict
      cases hVerdict
      exact ⟨rfl, rfl, document, hDocument, Or.inr ⟨revised, hRevise, rfl⟩⟩
  | error refusal =>
      rw [hRevise] at hVerdict
      cases refusal with
      | unknownType unknown => cases hVerdict
      | readonly fields => cases hVerdict
      | invalid violations =>
          cases hVerdict
          exact ⟨rfl, rfl, document, hDocument, Or.inl ⟨violations, rfl⟩⟩

/-- What a successful check of a patch read, and what it printed. -/
theorem of_payload_ok {typeName file existing : String} {input config : Option String}
    (hRun : (payload typeName file (some existing) input config : Session (StateM Disk) Unit).run printed disk =
      ((.ok (), later), after)) :
    after = disk ∧ ∃ loaded artifacts patch document revised,
      Job.Yields disk (Settings.load config) loaded ∧
      Job.Yields disk (compileSource (settingsWith loaded input)) artifacts ∧
      Job.Yields disk (readDocument file) patch ∧ Job.Yields disk (readDocument existing) document ∧
      artifacts.revise loaded.policy.managed (Text.lowerCase typeName) document patch = .ok revised ∧
      later = printed ++ (Verdict.valid revised).toJson.pretty ++ "\n" := by
  obtain ⟨settings, middle, between, hSettings, hRun⟩ := exists_of_bind_ok hRun
  obtain ⟨loaded, hLoaded, hSame⟩ := exists_of_perform_bind_ok (Job.readsOnly_load config) hSettings
  cases hSame
  obtain ⟨artifacts, hArtifacts, hRun⟩ := exists_of_perform_bind_ok (Job.readsOnly_compileSource _) hRun
  obtain ⟨patch, hPatch, hRun⟩ := exists_of_perform_bind_ok (Job.readsOnly_readDocument file) hRun
  obtain ⟨verdict, middle, between, hVerdict, hRun⟩ := exists_of_bind_ok hRun
  obtain ⟨rfl, rfl, document, hDocument, ⟨violations, rfl⟩ | ⟨revised, hRevise, rfl⟩⟩ :=
    of_payloadVerdict_ok hVerdict
  · obtain ⟨_, _, _, _, hThrown⟩ := exists_of_bind_ok hRun
    cases hThrown
  · obtain ⟨_, _, _, hSaid, hDone⟩ := exists_of_bind_ok hRun
    cases hSaid
    cases hDone
    exact ⟨rfl, loaded, artifacts, patch, document, revised, hLoaded, hArtifacts, hPatch, hDocument, hRevise, rfl⟩

end Session

namespace Command

/-- Whatever patch is accepted, the revised document is valid or has the members that were there. So is the document
that the command prints when it succeeds with a patch: it is the revision, by the managed fields of the settings, of
the document in one file by the patch in the other. -/
theorem accepted_update_valid_or_unchanged :
    (∀ {artifacts : Artifacts} {managed : ManagedFields} {key : String} {document patch revised : Json},
      artifacts.revise managed key document patch = .ok revised →
        artifacts.ValidOrUnchanged managed key document patch revised) ∧
    ∀ {typeName file existing : String} {input config : Option String} {disk after : Disk} {outcome : Outcome},
      (Command.payload typeName file (some existing) input config).runOn disk = (outcome, after) →
      outcome.exitCode = 0 →
        after = disk ∧ ∃ loaded artifacts patch document revised,
          Job.Yields disk (Settings.load config) loaded ∧
          Job.Yields disk (compileSource (Session.settingsWith loaded input)) artifacts ∧
          Job.Yields disk (readDocument file) patch ∧ Job.Yields disk (readDocument existing) document ∧
          outcome.output = (Verdict.valid revised).toJson.pretty ++ "\n" ∧
          artifacts.revise loaded.policy.managed (Text.lowerCase typeName) document patch = .ok revised ∧
          artifacts.ValidOrUnchanged loaded.policy.managed (Text.lowerCase typeName) document patch revised := by
  refine ⟨Artifacts.validOrUnchanged_of_revise, fun hRun hExit => ?_⟩
  obtain ⟨hSame, loaded, artifacts, patch, document, revised, hLoaded, hArtifacts, hPatch, hDocument, hRevise,
    hPrinted⟩ := Session.of_payload_ok (session_of_exitCode_eq_zero hRun hExit)
  refine ⟨hSame, loaded, artifacts, patch, document, revised, hLoaded, hArtifacts, hPatch, hDocument, ?_, hRevise,
    Artifacts.validOrUnchanged_of_revise hRevise⟩
  rw [hPrinted, String.empty_append]

/-- A disk with a source, a patch and a document. The settings are the standard ones. -/
def payloadDisk (source patch document : String) : Disk :=
  { nodes := [(["types.ts"], .file source), (["patch.json"], .file patch), (["old.json"], .file document)]
    home := [] }

/-- Checks the patch of such a disk for the type `A`. -/
def checkPatch : Command :=
  .payload "A" "patch.json" (some "old.json") none none

/-- A patch with an optional field and a managed one, over a valid document. -/
def numberedDisk : Disk :=
  payloadDisk "export type A = \x7b n?: number \x7d;" "\x7b\"n\": 1, \"id\": 7\x7d"
    "\x7b\"title\": \"t\", \"category\": \"c\"\x7d"

/-- The managed field of the patch is dropped, and what is left gives a valid document. -/
theorem accepted_update_valid_or_unchanged_numbered :
    (checkPatch.runOn numberedDisk).1.exitCode = 0 ∧
      ∃ loaded artifacts patch document revised,
        Job.Yields numberedDisk (Settings.load none) loaded ∧
        Job.Yields numberedDisk (compileSource (Session.settingsWith loaded none)) artifacts ∧
        Job.Yields numberedDisk (readDocument "patch.json") patch ∧
        Job.Yields numberedDisk (readDocument "old.json") document ∧
        (checkPatch.runOn numberedDisk).1.output = (Verdict.valid revised).toJson.pretty ++ "\n" ∧
        artifacts.revise loaded.policy.managed (Text.lowerCase "A") document patch = .ok revised ∧
        artifacts.ValidOrUnchanged loaded.policy.managed (Text.lowerCase "A") document patch revised := by
  have hExit : (checkPatch.runOn numberedDisk).1.exitCode = 0 := by decide +kernel
  generalize hRun : checkPatch.runOn numberedDisk = ended at hExit ⊢
  obtain ⟨outcome, after⟩ := ended
  exact ⟨hExit, (accepted_update_valid_or_unchanged.2 hRun hExit).2⟩

def emptyDisk : Disk :=
  payloadDisk "export type A = \x7b\x7d;" "\x7b\x7d" "\x7b\x7d"

/-- The violations that the validator of a type finds in a document, if the source of the disk compiles. -/
def violationsOn (disk : Disk) (key : String) (document : Json) : Option (List Violation) :=
  ((compileSource Settings.standard : Job (StateM Disk) Artifacts).run disk).1.toOption.bind fun artifacts =>
    (artifacts.validate key document).toOption.bind fun verdict =>
      match verdict with
      | .valid _ => none
      | .invalid violations => some violations

/-- The command says yes to a document that the validator refuses. -/
theorem checkPatch_accepts_refused_document :
    (checkPatch.runOn emptyDisk).1 = ⟨0, (Verdict.valid (.object [])).toJson.pretty ++ "\n", ""⟩ ∧
      violationsOn emptyDisk "a" (.object []) =
        some [⟨"title", "Title is required", .required⟩, ⟨"category", "Category is required", .required⟩] := by
  constructor
  · decide +kernel
  · decide +kernel

end Command

end SchemaForge
