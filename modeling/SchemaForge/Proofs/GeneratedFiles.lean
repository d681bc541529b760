import SchemaForge.Proofs.DiskChanges
import SchemaForge.Proofs.SessionRuns

/-! What generating a module leaves on the disk. The module is at the output, and apart from that there are at most new
directories. So the settings and the source are read as before, what would be generated is what the output holds, and
validating the output or generating again changes nothing. The settings may not be read as before if their name goes
up from a directory that was made for the output: then a settings file can be found that was not found at first. -/
namespace SchemaForge

namespace Job

variable {disk after : Disk}

/-- Making the directory of the output changes nothing but directories, whether it succeeds or not. -/
theorem gainsDirectories_makeParent (path : String) (disk : Disk) :
    disk.GainsDirectories ((makeParent path : Job (StateM Disk) Unit).run disk).2 := by
  unfold makeParent
  cases PathName.parent? path with
  | none => exact .refl disk
  | some parent =>
      dsimp only
      split
      case isTrue => exact .refl disk
      case isFalse =>
        rw [run_bind_of_ok (yields_present_iff.mpr rfl)]
        cases disk.present parent with
        | true => exact .refl disk
        | false =>
            rw [if_neg Bool.false_ne_true]
            exact disk.gainsDirectories_makeDirectories parent

/-- A delivery that succeeds leaves the text where the name leads to. -/
theorem exists_receives_of_replaceFile {path content : String} {delivery : Delivery}
    (hRun : (replaceFile path content : Job (StateM Disk) Delivery).run disk = (.ok delivery, after)) :
    ∃ location, disk.Receives path location content after := by
  obtain ⟨_, between, hParent, hRun⟩ := exists_of_bind_ok hRun
  obtain ⟨_, written, hWrite, hDone⟩ := exists_of_bind_ok hRun
  cases hDone
  have hGains := gainsDirectories_makeParent path disk
  rw [hParent] at hGains
  refine hGains.exists_receives ?_
  change ((writeOn path content between).1.mapError _, (writeOn path content between).2) = _ at hWrite
  rw [writeOn] at hWrite
  cases hText : between.writeText path content with
  | error cause =>
      rw [hText] at hWrite
      cases hWrite
  | ok changed =>
      rw [hText] at hWrite
      cases hWrite
      rfl

/-- Whether the output was there before or not, afterwards it holds the text. -/
theorem exists_receives_of_deliver {path content : String} {delivery : Delivery}
    (hRun : (deliver false path content : Job (StateM Disk) Delivery).run disk = (.ok delivery, after)) :
    ∃ location, disk.Receives path location content after := by
  obtain ⟨held, between, hRead, hRun⟩ := exists_of_bind_ok hRun
  obtain ⟨rfl, rfl⟩ : disk.readText path = held ∧ disk = between := by
    cases hRead
    exact ⟨rfl, rfl⟩
  cases hHeld : disk.readText path with
  | error cause =>
      rw [hHeld] at hRun
      exact exists_receives_of_replaceFile hRun
  | ok text =>
      simp only [hHeld] at hRun
      split at hRun
      case isTrue hSame =>
        cases hRun
        exact Disk.exists_receives_of_readText (hSame ▸ hHeld)
      case isFalse => exact exists_receives_of_replaceFile hRun

/-- An output that holds the text already is not written again. -/
theorem yields_deliver_unchanged {path content : String} (hHeld : disk.readText path = .ok content) :
    Yields disk (deliver false path content) (.unchanged path) := by
  have hRead : Yields disk (ExceptT.mk (Except.ok <$> FileStore.readText path)) (Except.ok content) :=
    congrArg (fun held => (Except.ok held, disk)) hHeld
  refine hRead.bind ?_
  dsimp only
  rw [if_pos rfl]
  exact yields_pure_iff.mpr rfl

/-- A preview says what would be written and leaves the disk alone. -/
theorem readsOnly_deliver_preview (path content : String) : ReadsOnly (deliver true path content) :=
  fun _ => rfl

end Job

namespace Disk.Receives

variable {disk after : Disk} {output text : String} {location : Location}
  (hReceives : disk.Receives output location text after)

include hReceives

/-- The settings are read as before, also where a settings file was missing and a directory is new. -/
theorem yields_load (hTree : disk.IsTree) {config : Option String}
    (hApart : disk.Apart after output (config.getD Settings.standardFile))
    (hClimbs : disk.ClimbsFrom after (disk.base (config.getD Settings.standardFile))
      (PathName.components (config.getD Settings.standardFile)))
    {loaded : Settings} (hLoaded : Job.Yields disk (Settings.load config) loaded) :
    Job.Yields after (Settings.load config) loaded := by
  rcases Job.yields_load_iff.mp hLoaded with ⟨hMissing, hStandard⟩ | ⟨-, held, hRead, hText⟩
  · exact Job.yields_load_iff.mpr (.inl ⟨hReceives.present_eq_false hTree hApart hClimbs hMissing, hStandard⟩)
  · have hAfter := hReceives.readText hApart hRead
    exact Job.yields_load_iff.mpr (.inr ⟨present_of_readText hAfter, held, hAfter, hText⟩)

/-- The source is read as before, so the module is the same. -/
theorem yields_generate {settings : Settings} (hApart : disk.Apart after output settings.source)
    {generation : Generation} (hGeneration : Job.Yields disk (generate settings) generation) :
    Job.Yields after (generate settings) generation := by
  obtain ⟨artifacts, hArtifacts, hDone⟩ := (Job.yields_bind_iff (Job.readsOnly_compileSource settings)).mp hGeneration
  obtain ⟨source, hSource, hOutcome⟩ := Job.yields_compileSource_iff.mp hArtifacts
  have hAfter := Job.yields_compileSource_iff.mpr ⟨source, hReceives.readText hApart hSource, hOutcome⟩
  exact hAfter.bind (Job.yields_pure_iff.mpr (Job.yields_pure_iff.mp hDone))

end Disk.Receives

namespace Session

variable {printed later : String} {disk after : Disk} {config : Option String} {loaded settings : Settings}
  {generation : Generation}

def generationLines (settings : Settings) (generation : Generation) (delivery : Delivery) : List String :=
  ["Compiling " ++ settings.source,
    "  Found " ++ toString generation.artifacts.schemas.size ++ " declaration(s), " ++
      toString generation.artifacts.validators.size ++ " exported"] ++ deliveryLines delivery

/-- What is generated and delivered decides what is printed. -/
theorem run_generateWith (hGeneration : Job.Yields disk (SchemaForge.generate settings) generation) {preview : Bool}
    {delivery : Delivery}
    (hDelivery : (deliver preview settings.outputPath generation.text : Job (StateM Disk) Delivery).run disk =
      (.ok delivery, after))
    (printed : String) :
    (generateWith settings preview : Session (StateM Disk) Unit).run printed disk =
      ((.ok (), printed ++ textOf (generationLines settings generation delivery)), after) := by
  rw [generateWith, run_bind_of_ok (run_say _ _ _), run_bind_of_ok (run_perform hGeneration _),
    run_bind_of_ok (run_say _ _ _), run_bind_of_ok (run_perform hDelivery _), run_sayAll]
  simp only [generationLines, textOf, List.cons_append, List.nil_append, String.append_assoc]

/-- A run that succeeds has generated a module and delivered it. -/
theorem of_generateWith_ok {preview : Bool}
    (hRun : (generateWith settings preview : Session (StateM Disk) Unit).run printed disk = ((.ok (), later), after)) :
    ∃ generation delivery, Job.Yields disk (SchemaForge.generate settings) generation ∧
      (deliver preview settings.outputPath generation.text : Job (StateM Disk) Delivery).run disk =
        (.ok delivery, after) := by
  obtain ⟨_, _, _, hSaid, hRun⟩ := exists_of_bind_ok hRun
  cases hSaid
  obtain ⟨generation, hGeneration, hRun⟩ := exists_of_perform_bind_ok (Job.readsOnly_generate settings) hRun
  obtain ⟨_, _, _, hSaid, hRun⟩ := exists_of_bind_ok hRun
  cases hSaid
  obtain ⟨delivery, middle, between, hDelivery, hRun⟩ := exists_of_bind_ok hRun
  rw [run_sayAll] at hRun
  cases hRun
  exact ⟨generation, delivery, hGeneration, (of_perform_ok hDelivery).1⟩

/-- An output that holds the module is found to be up to date. -/
theorem run_validate {input : Option String} {path : String} (hHeld : disk.readText path = .ok generation.text)
    (hLoaded : Job.Yields disk (Settings.load config) loaded)
    (hGeneration : Job.Yields disk (SchemaForge.generate (loaded.override { source := input })) generation)
    (printed : String) :
    (validate path input config : Session (StateM Disk) Unit).run printed disk =
      ((.ok (), printed ++ textOf ["Validating generated module...", "✓ Module is up-to-date"]), disk) := by
  have hPresent := Job.yields_present_iff.mpr (Disk.present_of_readText hHeld)
  rw [validate, run_bind_of_ok (run_say _ _ _), run_bind_of_ok (run_perform hPresent _), if_pos rfl,
    run_bind_of_ok (run_perform (Job.yields_access_readText_iff.mpr hHeld) _),
    run_bind_of_ok (run_settingsFor hLoaded _ _), run_bind_of_ok (run_perform hGeneration _), if_pos rfl, run_say]
  simp only [textOf, String.append_assoc, String.append_empty]

theorem readsOnly_generate_preview (input output config : Option String) :
    ReadsOnly (generate input output config true) := by
  refine (readsOnly_settingsFor config _).bind fun settings => (ReadsOnly.say _).bind fun _ => ?_
  refine (ReadsOnly.perform (Job.readsOnly_generate settings)).bind fun generation => (ReadsOnly.say _).bind fun _ => ?_
  exact (ReadsOnly.perform (Job.readsOnly_deliver_preview _ _)).bind fun delivery => ReadsOnly.sayAll _

end Session

namespace Command

/-- The settings with which a module is generated if a source and a directory may be given for it. -/
def generationSettings (loaded : Settings) (input output : Option String) : Settings :=
  loaded.override { source := input, outputDirectory := output }

/-- What is generated does not depend on where it goes. -/
theorem generate_generationSettings (loaded : Settings) (input output : Option String) :
    (SchemaForge.generate (generationSettings loaded input output) : Job (StateM Disk) Generation) =
      SchemaForge.generate (loaded.override { source := input }) :=
  rfl

/-- What is true after a module was generated: the output holds it, no other file was changed, made or removed, and
neither validating the output nor generating again finds anything to do. -/
structure Settled (input output config : Option String) (disk after : Disk) (settings : Settings)
    (generation : Generation) : Prop where
  generated : Job.Yields disk (SchemaForge.generate settings) generation
  held : after.readText settings.outputPath = .ok generation.text
  others : ∀ location, after.locate settings.outputPath ≠ .ok location → ∀ text,
    after.nodeAt? location = some (.file text) ↔ disk.nodeAt? location = some (.file text)
  validated : (Command.validate settings.outputPath input config).runOn after =
    (⟨0, Session.textOf ["Validating generated module...", "✓ Module is up-to-date"], ""⟩, after)
  repeated : (Command.generate input output config false false).runOn after =
    (⟨0, Session.textOf (Session.generationLines settings generation (.unchanged settings.outputPath)), ""⟩, after)

/-- A preview leaves the disk as it is. After a module was generated, where the source and the settings file are apart
from the output and the directories made for it and the name of the settings file does not go up from one of these,
everything is settled. -/
theorem generate_settles :
    (∀ (input output config : Option String) (disk : Disk),
      ((Command.generate input output config false true).runOn disk).2 = disk) ∧
    ∀ {input output config : Option String} {disk after : Disk} {outcome : Outcome} {loaded : Settings},
      disk.IsTree → Job.Yields disk (Settings.load config) loaded →
      (Command.generate input output config false false).runOn disk = (outcome, after) → outcome.exitCode = 0 →
      disk.Apart after (generationSettings loaded input output).outputPath
        (generationSettings loaded input output).source →
      disk.Apart after (generationSettings loaded input output).outputPath (config.getD Settings.standardFile) →
      disk.ClimbsFrom after (disk.base (config.getD Settings.standardFile))
        (PathName.components (config.getD Settings.standardFile)) →
        ∃ generation, Settled input output config disk after (generationSettings loaded input output) generation := by
  constructor
  · intro input output config disk
    obtain ⟨⟨result, after⟩, hSession⟩ :
      ∃ ended, (Session.generate input output config true : Session (StateM Disk) Unit).run "" disk = ended := ⟨_, rfl⟩
    have hSame : after = disk := by
      simpa [hSession] using Session.readsOnly_generate_preview input output config "" disk
    rw [runOn_eq (.generate input output config false true) hSession, hSame]
  · intro input output config disk after outcome loaded hTree hLoaded hRun hExit hSource hConfig hClimbs
    have hSession := session_of_exitCode_eq_zero hRun hExit
    change (Session.generate input output config false : Session (StateM Disk) Unit).run "" disk = _ at hSession
    rw [Session.generate, Session.run_bind_of_ok (Session.run_settingsFor hLoaded _ _)] at hSession
    obtain ⟨generation, delivery, hGeneration, hDelivery⟩ := Session.of_generateWith_ok hSession
    obtain ⟨location, hReceives⟩ := Job.exists_receives_of_deliver hDelivery
    -- From here on the first run is known only by what the disk received; the next commands read the same from it.
    have hLoadedAfter := hReceives.yields_load hTree hConfig hClimbs hLoaded
    have hGenerationAfter := hReceives.yields_generate hSource hGeneration
    refine ⟨generation, hGeneration, hReceives.readText_output, fun _ => hReceives.file_iff, ?_, ?_⟩
    · rw [generate_generationSettings] at hGenerationAfter
      have hValidated := Session.run_validate hReceives.readText_output hLoadedAfter hGenerationAfter ""
      rw [String.empty_append] at hValidated
      exact runOn_eq (.validate _ input config) hValidated
    · have hUnchanged := Job.yields_deliver_unchanged hReceives.readText_output
      have hRepeated := Session.run_generateWith hGenerationAfter hUnchanged ""
      rw [String.empty_append] at hRepeated
      refine runOn_eq (.generate input output config false false) (Eq.trans ?_ hRepeated)
      exact Session.run_bind_of_ok (Session.run_settingsFor hLoadedAfter _ _) _

/-- A source and a directory with nothing in it. -/
def plainDisk : Disk :=
  { nodes := [(["types.ts"], .file "export type A = \x7b\x7d;"), (["notes"], .directory)]
    home := [] }

/-- The module goes to a new directory in another one, and the name of the settings file, which is missing, goes up
from a directory that was there. -/
theorem generate_settles_in_new_directories :
    let output := some "gen/new"
    let config := some "notes/../other.toml"
    let settings := generationSettings Settings.standard none output
    let ended := (Command.generate none output config false false).runOn plainDisk
    ended.1.exitCode = 0 ∧ plainDisk.Apart ended.2 settings.outputPath settings.source ∧
      plainDisk.Apart ended.2 settings.outputPath "notes/../other.toml" ∧
      plainDisk.ClimbsFrom ended.2 (plainDisk.base "notes/../other.toml") (PathName.components "notes/../other.toml") ∧
      ∃ generation, Settled none output config plainDisk ended.2 settings generation := by
  intro output config settings ended
  have hEnded : ended.1.exitCode = 0 ∧ ended.2.locate "types.ts" = .ok ["types.ts"] ∧
      ended.2.locate "notes/../other.toml" = .ok ["other.toml"] ∧
      ended.2.locate settings.outputPath = .ok ["gen", "new", "schema.js"] ∧ ended.2.nodeAt? ["other.toml"] = none := by
    decide +kernel
  have hLoaded : Job.Yields plainDisk (Settings.load config) Settings.standard :=
    Job.yields_load_iff.mpr (.inl ⟨by decide +kernel, rfl⟩)
  have hRun : (Command.generate none output config false false).runOn plainDisk = ended := rfl
  clear_value ended
  obtain ⟨outcome, after⟩ := ended
  obtain ⟨hExit, hSource, hConfig, hOutput, hMissing⟩ := hEnded
  have hApartSource : plainDisk.Apart after settings.outputPath settings.source :=
    .of_locate hSource hOutput (by decide) fun hCreated => by cases hCreated.1
  have hApartConfig : plainDisk.Apart after settings.outputPath "notes/../other.toml" :=
    .of_locate hConfig hOutput (by decide) fun hCreated => by cases hMissing.symm.trans hCreated.2
  have hParts : plainDisk.base "notes/../other.toml" = [] ∧
      PathName.components "notes/../other.toml" = ["notes", "..", "other.toml"] := by
    decide +kernel
  have hClimbs : plainDisk.ClimbsFrom after (plainDisk.base "notes/../other.toml")
      (PathName.components "notes/../other.toml") := by
    rw [hParts.1, hParts.2]
    refine ⟨by simp, fun _ hCreated => ?_, by simp, trivial⟩
    cases hCreated.1
  exact ⟨hExit, hApartSource, hApartConfig, hClimbs,
    generate_settles.2 (by decide) hLoaded hRun hExit hApartSource hApartConfig hClimbs⟩

/-- A source and a settings file that cannot be read. -/
def unreadableDisk : Disk :=
  { nodes := [(["types.ts"], .file "export type A = \x7b\x7d;"), (["typeshape.toml"], .file "[")]
    home := [] }

/-- The name of the settings file goes up from the directory that is made for the output. The file is not found
before the directory is there, so the module is generated with the standard settings, and validating it fails. -/
theorem validate_refuses_generated_module :
    let config := some "gen/../typeshape.toml"
    let ended := (Command.generate none (some "gen") config false false).runOn unreadableDisk
    unreadableDisk.IsTree ∧ ended.1.exitCode = 0 ∧
      ended.2.locate "gen/schema.js" = .ok ["gen", "schema.js"] ∧ ended.2.locate "types.ts" = .ok ["types.ts"] ∧
      ended.2.locate "gen/../typeshape.toml" = .ok ["typeshape.toml"] ∧
      ((Command.validate "gen/schema.js" none config).runOn ended.2).1 =
        ⟨1, "Validating generated module...\n",
          "Error: Configuration error: Invalid TOML in gen/../typeshape.toml"⟩ := by
  decide +kernel

end Command

end SchemaForge
