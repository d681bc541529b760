import SchemaForge.Command.Run
import SchemaForge.Files.Disk

/-! Jobs and sessions on a disk. Most jobs only read, so what they yield depends on the disk and leaves it as it is; a
session that succeeds is taken apart into its steps, each of which succeeded. -/
namespace SchemaForge

/-- What compiling a file gives, once it is known what reading it gives. -/
def Compilation.ofReading (policy : Policy) (path : String) : Except FileError String → Compilation
  | .error cause => { outcome := .error (.sourceUnreadable path cause), warnings := [] }
  | .ok source => ofText policy path source

namespace Job

variable {α β : Type} {disk after : Disk}

/-- The job leaves every disk as it is. -/
def ReadsOnly (job : Job (StateM Disk) α) : Prop :=
  ∀ disk, (job.run disk).2 = disk

/-- The job yields the value on the disk, which it leaves as it is. -/
def Yields (disk : Disk) (job : Job (StateM Disk) α) (value : α) : Prop :=
  job.run disk = (.ok value, disk)

/-- A job that only reads leaves the disk it was run on, so a run of it says all. -/
theorem ReadsOnly.yields {job : Job (StateM Disk) α} (hReads : ReadsOnly job) {value : α}
    (hRun : job.run disk = (.ok value, after)) : after = disk ∧ Yields disk job value := by
  have hSame := hReads disk
  rw [hRun] at hSame
  obtain rfl : after = disk := hSame
  exact ⟨rfl, hRun⟩

/-- The second job starts on the disk that the first one leaves. -/
theorem run_bind_of_ok {first : Job (StateM Disk) α} {value : α} (hFirst : first.run disk = (.ok value, after))
    (next : α → Job (StateM Disk) β) : (first >>= next).run disk = (next value).run after := by
  change (first.run >>= ExceptT.bindCont next) disk = (next value).run after
  change (StateT.bind first.run (ExceptT.bindCont next)) disk = (next value).run after
  simp only [StateT.bind, hFirst]
  rfl

/-- After a failure the second job is not run, but what the first one wrote stays. -/
theorem run_bind_of_error {first : Job (StateM Disk) α} {failure : Failure}
    (hFirst : first.run disk = (.error failure, after)) (next : α → Job (StateM Disk) β) :
    (first >>= next).run disk = (.error failure, after) := by
  change (StateT.bind first.run (ExceptT.bindCont next)) disk = (.error failure, after)
  simp only [StateT.bind, hFirst]
  rfl

/-- A job that succeeds is put together from steps that succeed. -/
theorem exists_of_bind_ok {first : Job (StateM Disk) α} {next : α → Job (StateM Disk) β} {result : β}
    (hRun : (first >>= next).run disk = (.ok result, after)) :
    ∃ value between, first.run disk = (.ok value, between) ∧ (next value).run between = (.ok result, after) := by
  obtain ⟨⟨outcome, between⟩, hFirst⟩ : ∃ reached, first.run disk = reached := ⟨_, rfl⟩
  cases outcome with
  | error failure =>
      rw [run_bind_of_error hFirst] at hRun
      cases hRun
  | ok value =>
      rw [run_bind_of_ok hFirst] at hRun
      exact ⟨value, between, hFirst, hRun⟩

/-- Jobs that leave the disk as it is see the same disk one after the other. -/
theorem Yields.bind {first : Job (StateM Disk) α} {next : α → Job (StateM Disk) β} {value : α} {result : β}
    (hFirst : Yields disk first value) (hNext : Yields disk (next value) result) :
    Yields disk (first >>= next) result :=
  (run_bind_of_ok hFirst next).trans hNext

theorem ReadsOnly.bind {first : Job (StateM Disk) α} {next : α → Job (StateM Disk) β} (hFirst : ReadsOnly first)
    (hNext : ∀ value, ReadsOnly (next value)) : ReadsOnly (first >>= next) := by
  intro disk
  obtain ⟨⟨outcome, after⟩, hRun⟩ : ∃ result, first.run disk = result := ⟨_, rfl⟩
  have hSame := hFirst disk
  rw [hRun] at hSame
  cases outcome with
  | error failure =>
      rw [run_bind_of_error hRun]
      exact hSame
  | ok value =>
      rw [run_bind_of_ok hRun]
      exact (hNext value after).trans hSame

theorem ReadsOnly.pure (value : α) : ReadsOnly (pure value) :=
  fun _ => rfl

theorem ReadsOnly.throw (failure : Failure) : ReadsOnly (throw failure : Job (StateM Disk) α) :=
  fun _ => rfl

/-- A result that is computed without the disk leaves it alone. -/
theorem ReadsOnly.ofExcept {ε : Type} (describe : ε → Failure) (outcome : Except ε α) :
    ReadsOnly (ofExcept describe outcome) :=
  fun _ => rfl

theorem ReadsOnly.present (path : String) : ReadsOnly (present path) :=
  fun _ => rfl

/-- Reading a file leaves the disk alone, whether there is such a file or not. -/
theorem ReadsOnly.access_readText (describe : FileError → Failure) (path : String) :
    ReadsOnly (access describe (FileStore.readText path)) :=
  fun _ => rfl

theorem readsOnly_readDocument (path : String) : ReadsOnly (readDocument path) := by
  apply (ReadsOnly.access_readText _ path).bind
  intro text
  cases documentOfText? text with
  | none => exact ReadsOnly.throw _
  | some document => exact ReadsOnly.pure document

/-- Loading settings reads one file at most, and nothing is written. -/
theorem readsOnly_load (config : Option String) : ReadsOnly (Settings.load config) := by
  apply (ReadsOnly.present _).bind
  intro isPresent
  cases isPresent with
  | false => exact ReadsOnly.pure _
  | true =>
      apply (ReadsOnly.access_readText _ _).bind
      intro text
      cases Settings.ofText? text with
      | none => exact ReadsOnly.throw _
      | some settings => exact ReadsOnly.pure settings

/-- Compiling a file is compiling its text, or reporting that it could not be read. -/
theorem run_ofFile (policy : Policy) (path : String) :
    (ExceptT.mk (Except.ok <$> Compilation.ofFile policy path) : Job (StateM Disk) Compilation).run disk =
      (.ok (Compilation.ofReading policy path (disk.readText path)), disk) := by
  change (Except.ok <$> Compilation.ofFile policy path : StateM Disk _) disk = _
  simp only [Compilation.ofFile, Functor.map, StateT.map, bind, StateT.bind, FileStore.readText]
  cases disk.readText path with
  | error cause => rfl
  | ok text => rfl

theorem readsOnly_ofFile (policy : Policy) (path : String) :
    ReadsOnly (ExceptT.mk (Except.ok <$> Compilation.ofFile policy path)) := by
  intro disk
  rw [run_ofFile]

theorem readsOnly_compileSource (settings : Settings) : ReadsOnly (compileSource settings) :=
  (readsOnly_ofFile settings.policy settings.source).bind fun _ => ReadsOnly.ofExcept _ _

/-- The module is generated before anything is written. -/
theorem readsOnly_generate (settings : Settings) : ReadsOnly (generate settings) :=
  (readsOnly_compileSource settings).bind fun _ => ReadsOnly.pure _

/-- On a disk that is left as it is, yielding a value is a matter of the outcome only. -/
theorem yields_iff {job : Job (StateM Disk) α} {outcome : Except Failure α} (hRun : job.run disk = (outcome, disk))
    {value : α} : Yields disk job value ↔ outcome = .ok value := by
  rw [Yields, hRun]
  exact ⟨fun hSame => (Prod.mk.inj hSame).1, fun hOutcome => by rw [hOutcome]⟩

/-- After a step that only reads, a job yields what the rest yields with the value of that step. -/
theorem yields_bind_iff {first : Job (StateM Disk) α} (hFirst : ReadsOnly first) {next : α → Job (StateM Disk) β}
    {result : β} :
    Yields disk (first >>= next) result ↔ ∃ value, Yields disk first value ∧ Yields disk (next value) result := by
  constructor
  · intro hRun
    obtain ⟨value, between, hValue, hNext⟩ := exists_of_bind_ok hRun
    obtain ⟨rfl, hYields⟩ := hFirst.yields hValue
    exact ⟨value, hYields, hNext⟩
  · rintro ⟨value, hYields, hNext⟩
    exact hYields.bind hNext

theorem yields_pure_iff {value result : α} : Yields disk (pure value) result ↔ value = result :=
  (yields_iff rfl).trans (by simp)

theorem not_yields_throw {failure : Failure} {value : α} : ¬ Yields disk (throw failure) value := by
  intro hYields
  cases hYields

theorem yields_present_iff {name : String} {isPresent : Bool} :
    Yields disk (present name) isPresent ↔ disk.present name = isPresent :=
  (yields_iff rfl).trans (by simp)

/-- Describing an error otherwise does not make a success of it. -/
theorem mapError_eq_ok_iff {ε : Type} {describe : ε → Failure} {outcome : Except ε α} {value : α} :
    outcome.mapError describe = .ok value ↔ outcome = .ok value := by
  cases outcome with
  | error cause =>
      change Except.error (describe cause) = Except.ok value ↔ Except.error cause = Except.ok value
      simp
  | ok result =>
      change (Except.ok result : Except Failure α) = Except.ok value ↔ Except.ok result = Except.ok value
      simp

theorem yields_access_readText_iff {describe : FileError → Failure} {name text : String} :
    Yields disk (access describe (FileStore.readText name)) text ↔ disk.readText name = .ok text :=
  (yields_iff rfl).trans mapError_eq_ok_iff

theorem yields_ofExcept_iff {ε : Type} {describe : ε → Failure} {outcome : Except ε α} {value : α} :
    Yields disk (ofExcept describe outcome) value ↔ outcome = .ok value :=
  (yields_iff rfl).trans mapError_eq_ok_iff

/-- Settings are read from the file of the name, or they are the standard ones if there is none. -/
theorem yields_load_iff {config : Option String} {loaded : Settings} :
    Yields disk (Settings.load config) loaded ↔
      disk.present (config.getD Settings.standardFile) = false ∧ Settings.standard = loaded ∨
      disk.present (config.getD Settings.standardFile) = true ∧
        ∃ text, disk.readText (config.getD Settings.standardFile) = .ok text ∧ Settings.ofText? text = some loaded := by
  rw [Settings.load, yields_bind_iff (ReadsOnly.present _)]
  simp only [yields_present_iff, exists_eq_left']
  cases disk.present (config.getD Settings.standardFile) with
  | false => simp [yields_pure_iff]
  | true =>
      simp only [if_true]
      rw [yields_bind_iff (ReadsOnly.access_readText _ _)]
      simp only [yields_access_readText_iff, Bool.true_eq_false, false_and, false_or, true_and]
      refine exists_congr fun text => and_congr_right fun _ => ?_
      cases Settings.ofText? text with
      | none => simpa using not_yields_throw
      | some settings => simpa using yields_pure_iff

/-- A source compiles where its file can be read and the text compiles. -/
theorem yields_compileSource_iff {settings : Settings} {artifacts : Artifacts} :
    Yields disk (compileSource settings) artifacts ↔ ∃ text, disk.readText settings.source = .ok text ∧
      (Compilation.ofText settings.policy settings.source text).outcome = .ok artifacts := by
  rw [compileSource, yields_bind_iff (readsOnly_ofFile settings.policy settings.source)]
  simp only [yields_iff (run_ofFile settings.policy settings.source), Except.ok.injEq, exists_eq_left',
    yields_ofExcept_iff]
  cases disk.readText settings.source with
  | error cause => simp [Compilation.ofReading]
  | ok text => simp [Compilation.ofReading]

end Job

namespace Session

variable {α β : Type} {printed later : String} {disk after : Disk}

/-- What was printed so far and the disk are handed on, whatever the outcome is. -/
theorem run_bind {first : Session (StateM Disk) α} {outcome : Except Failure α}
    (hFirst : first.run printed disk = ((outcome, later), after)) (next : α → Session (StateM Disk) β) :
    (first >>= next).run printed disk =
      (ExceptT.bindCont next outcome : StateT String (StateM Disk) _) later after := by
  change StateT.bind first.run (ExceptT.bindCont next) printed disk = _
  simp only [StateT.bind]
  change StateT.bind (first.run printed) _ disk = _
  simp only [StateT.bind, hFirst]
  rfl

/-- After a step that succeeds a session goes on with its value. -/
theorem run_bind_of_ok {first : Session (StateM Disk) α} {value : α}
    (hFirst : first.run printed disk = ((.ok value, later), after)) (next : α → Session (StateM Disk) β) :
    (first >>= next).run printed disk = (next value).run later after :=
  run_bind hFirst next

/-- A session that succeeds is put together from steps that succeed. -/
theorem exists_of_bind_ok {first : Session (StateM Disk) α} {next : α → Session (StateM Disk) β} {result : β}
    (hRun : (first >>= next).run printed disk = ((.ok result, later), after)) :
    ∃ value middle between, first.run printed disk = ((.ok value, middle), between) ∧
      (next value).run middle between = ((.ok result, later), after) := by
  obtain ⟨⟨⟨outcome, middle⟩, between⟩, hFirst⟩ : ∃ reached, first.run printed disk = reached := ⟨_, rfl⟩
  rw [run_bind hFirst] at hRun
  cases outcome with
  | error failure => cases hRun
  | ok value => exact ⟨value, middle, between, hFirst, hRun⟩

/-- A job within a session prints nothing. -/
theorem run_perform {job : Job (StateM Disk) α} {outcome : Except Failure α} (hJob : job.run disk = (outcome, after))
    (printed : String) : (perform job).run printed disk = ((outcome, printed), after) := by
  change StateT.map (·, printed) job.run disk = _
  simp only [StateT.map, hJob]
  rfl

theorem of_perform_ok {job : Job (StateM Disk) α} {value : α}
    (hRun : (perform job).run printed disk = ((.ok value, later), after)) :
    job.run disk = (.ok value, after) ∧ later = printed := by
  obtain ⟨⟨outcome, between⟩, hJob⟩ : ∃ reached, job.run disk = reached := ⟨_, rfl⟩
  rw [run_perform hJob] at hRun
  cases hRun
  exact ⟨hJob, rfl⟩

/-- The session leaves every disk as it is, whether it succeeds or not. -/
def ReadsOnly (session : Session (StateM Disk) α) : Prop :=
  ∀ printed disk, (session.run printed disk).2 = disk

/-- A session that fails early has not written either. -/
theorem ReadsOnly.bind {first : Session (StateM Disk) α} {next : α → Session (StateM Disk) β} (hFirst : ReadsOnly first)
    (hNext : ∀ value, ReadsOnly (next value)) : ReadsOnly (first >>= next) := by
  intro printed disk
  obtain ⟨⟨⟨outcome, later⟩, after⟩, hRun⟩ : ∃ reached, first.run printed disk = reached := ⟨_, rfl⟩
  have hSame : after = disk := by simpa [hRun] using hFirst printed disk
  rw [run_bind hRun]
  cases outcome with
  | error failure => exact hSame
  | ok value => exact (hNext value later after).trans hSame

theorem ReadsOnly.perform {job : Job (StateM Disk) α} (hJob : job.ReadsOnly) : ReadsOnly (perform job) := by
  intro printed disk
  obtain ⟨⟨outcome, after⟩, hRun⟩ : ∃ reached, job.run disk = reached := ⟨_, rfl⟩
  have hSame : after = disk := by simpa [hRun] using hJob disk
  rw [run_perform hRun]
  exact hSame

theorem ReadsOnly.say (line : String) : ReadsOnly (say line) :=
  fun _ _ => rfl

/-- The induction is over the lines; printing one leaves the disk alone. -/
theorem ReadsOnly.sayAll (lines : List String) : ReadsOnly (sayAll lines) := by
  induction lines with
  | nil => exact fun _ _ => rfl
  | cons line rest ih => exact (ReadsOnly.say line).bind fun _ => ih

/-- A job that only reads is a step from which the session goes on as it was. -/
theorem exists_of_perform_bind_ok {job : Job (StateM Disk) α} (hReads : job.ReadsOnly)
    {next : α → Session (StateM Disk) β} {result : β}
    (hRun : (perform job >>= next).run printed disk = ((.ok result, later), after)) :
    ∃ value, Job.Yields disk job value ∧ (next value).run printed disk = ((.ok result, later), after) := by
  obtain ⟨value, middle, between, hFirst, hNext⟩ := exists_of_bind_ok hRun
  obtain ⟨hJob, rfl⟩ := of_perform_ok hFirst
  obtain ⟨rfl, hYields⟩ := hReads.yields hJob
  exact ⟨value, hYields, hNext⟩

def textOf : List String → String
  | [] => ""
  | line :: rest => line ++ "\n" ++ textOf rest

theorem run_say (line printed : String) (disk : Disk) :
    (say line : Session (StateM Disk) Unit).run printed disk = ((.ok (), printed ++ line ++ "\n"), disk) :=
  rfl

/-- The lines are appended to what was printed, each with a line feed. -/
theorem run_sayAll (lines : List String) (printed : String) (disk : Disk) :
    (sayAll lines : Session (StateM Disk) Unit).run printed disk = ((.ok (), printed ++ textOf lines), disk) := by
  induction lines generalizing printed with
  | nil =>
      rw [textOf, String.append_empty]
      rfl
  | cons line rest ih =>
      rw [sayAll, run_bind_of_ok (run_say line printed disk), ih, textOf]
      simp only [String.append_assoc]

/-- The settings of a run are those of the file with the arguments put over them. -/
theorem run_settingsFor {config : Option String} {loaded : Settings}
    (hLoaded : Job.Yields disk (Settings.load config) loaded) (overrides : SettingOverrides) (printed : String) :
    (settingsFor config overrides : Session (StateM Disk) Settings).run printed disk =
      ((.ok (loaded.override overrides), printed), disk) := by
  rw [settingsFor, run_bind_of_ok (run_perform hLoaded printed)]
  rfl

theorem readsOnly_settingsFor (config : Option String) (overrides : SettingOverrides) :
    ReadsOnly (settingsFor config overrides) :=
  (ReadsOnly.perform (Job.readsOnly_load config)).bind fun _ _ _ => rfl

end Session

namespace Command

def runOn (command : Command) (disk : Disk) : Outcome × Disk :=
  (command.run : StateM Disk Outcome) disk

/-- The outcome of a command is read off the run of its session from nothing printed. -/
theorem runOn_eq (command : Command) {disk after : Disk} {result : Except Failure Unit × String}
    (hSession : (command.session : Session (StateM Disk) Unit).run "" disk = (result, after)) :
    command.runOn disk = (Outcome.ofSession result, after) := by
  simp only [runOn, Command.run, bind, StateT.bind, hSession]
  rfl

/-- The exit code is zero only if the session of the command succeeds. -/
theorem session_of_exitCode_eq_zero {command : Command} {disk after : Disk} {outcome : Outcome}
    (hRun : command.runOn disk = (outcome, after)) (hExit : outcome.exitCode = 0) :
    (command.session : Session (StateM Disk) Unit).run "" disk = ((.ok (), outcome.output), after) := by
  obtain ⟨⟨⟨result, printed⟩, reached⟩, hSession⟩ :
      ∃ ended, (command.session : Session (StateM Disk) Unit).run "" disk = ended := ⟨_, rfl⟩
  rw [runOn_eq command hSession] at hRun
  cases hRun
  cases result with
  | ok done => exact hSession
  | error failure => cases failure <;> cases hExit

end Command

end SchemaForge
