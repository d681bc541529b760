import Mathlib.Data.List.Forall2
import Mathlib.Data.List.Range
import SchemaForge.Proofs.DiskChanges
import SchemaForge.Proofs.OrderedMap
import SchemaForge.Proofs.SessionRuns

/-! What the command that checks data files says. Each type that is served has one file. A file that is there but cannot
be read, or holds a text that is neither blank nor a document, ends the check at once, whatever was found in the files
before it. If there is no such file, every file has its report, and the files at fault are counted. -/
namespace SchemaForge

def dataFile (directory key : String) : String :=
  PathName.join directory (key ++ ".json")

/-- The file can be read if it is there, and its text is blank or a document. -/
def Disk.Legible (disk : Disk) (path : String) : Prop :=
  disk.present path = true → ∃ text, disk.readText path = .ok text ∧
    (Text.isBlankText text = true ∨ ∃ document, Json.parse? text = some document)

namespace Artifacts

/-- The file is missing or blank, or it holds an array of documents that the type accepts. -/
def SoundFile (artifacts : Artifacts) (disk : Disk) (key path : String) : Prop :=
  disk.present path = false ∨ ∃ text, disk.readText path = .ok text ∧
    (Text.isBlankText text = true ∨ ∃ elements, Json.parse? text = some (.array elements) ∧
      ∀ element ∈ elements, artifacts.validate key element = .ok (.valid element))

/-- The file holds a document that is no array, or an array with an element that the type refuses. -/
def FaultyFile (artifacts : Artifacts) (disk : Disk) (key path : String) : Prop :=
  ∃ text document, disk.readText path = .ok text ∧ Text.isBlankText text = false ∧
    Json.parse? text = some document ∧
    ∀ elements, document = .array elements →
      ∃ element ∈ elements, ∃ violations, artifacts.validate key element = .ok (.invalid violations)

/-- The findings are the elements that the type refuses, in their order, each with its identifier and what the type
finds wrong with it. -/
structure RefusedAmong (artifacts : Artifacts) (key : String) (elements : List Json) (findings : List Finding) :
    Prop where
  ordered : (findings.map Finding.index).Pairwise (· < ·)
  exact : ∀ finding, finding ∈ findings ↔ ∃ element, elements[finding.index]? = some element ∧
    artifacts.validate key element = .ok (.invalid finding.violations) ∧ finding.id = element.member? "id"

variable {artifacts : Artifacts} {key : String}

/-- A type that is served accepts a document as it is or finds violations, and fails in no other way. -/
theorem validate_cases (hKey : key ∈ artifacts.validators.names) (element : Json) :
    artifacts.validate key element = .ok (.valid element) ∨
      ∃ violations, artifacts.validate key element = .ok (.invalid violations) := by
  obtain ⟨typeName, hType⟩ := (artifacts.validators.mem_names_iff_find? key).mp hKey
  unfold validate
  rw [hType]
  dsimp only
  cases artifacts.violations typeName element with
  | nil => exact .inl rfl
  | cons violation rest => exact .inr ⟨_, rfl⟩

def finding? (artifacts : Artifacts) (key : String) (place : Json × Nat) : Option Finding :=
  match artifacts.validate key place.1 with
  | .ok (.invalid violations) => some ⟨place.2, place.1.member? "id", violations⟩
  | _ => none

/-- A finding has the index and the identifier of its element, and the violations that the type finds in it. -/
theorem finding?_eq_some_iff {place : Json × Nat} {finding : Finding} :
    artifacts.finding? key place = some finding ↔ finding.index = place.2 ∧
      artifacts.validate key place.1 = .ok (.invalid finding.violations) ∧ finding.id = place.1.member? "id" := by
  obtain ⟨index, id, violations⟩ := finding
  unfold finding?
  split
  · rename_i found hVerdict
    simp only [hVerdict, Option.some.injEq, Finding.mk.injEq, Except.ok.injEq, Verdict.invalid.injEq]
    constructor
    · rintro ⟨rfl, rfl, rfl⟩
      exact ⟨rfl, rfl, rfl⟩
    · rintro ⟨rfl, rfl, rfl⟩
      exact ⟨rfl, rfl, rfl⟩
  · rename_i hOther
    constructor
    · intro hNone
      cases hNone
    · rintro ⟨-, hVerdict, -⟩
      exact absurd hVerdict (hOther violations)

/-- The induction is over the elements: the loop collects the findings with their indices. -/
theorem findingsFrom_eq (hKey : key ∈ artifacts.validators.names) (index : Nat) (elements : List Json) :
    artifacts.findingsFrom key index elements = .ok ((elements.zipIdx index).filterMap (artifacts.finding? key)) := by
  induction elements generalizing index with
  | nil => rfl
  | cons element rest ih =>
      rw [findingsFrom, ih, List.zipIdx_cons, List.filterMap_cons, finding?]
      rcases validate_cases hKey element with hValid | ⟨violations, hInvalid⟩
      · rw [hValid]
        rfl
      · rw [hInvalid]
        rfl

/-- The findings come in the order of the elements, and none is left out. -/
theorem refusedAmong_findings (elements : List Json) :
    artifacts.RefusedAmong key elements (elements.zipIdx.filterMap (artifacts.finding? key)) where
  ordered := by
    have hPlaces : elements.zipIdx.Pairwise fun first second => first.2 < second.2 := by
      rw [← List.pairwise_map, List.zipIdx_map_snd]
      exact List.pairwise_lt_range'
    rw [List.pairwise_map]
    refine hPlaces.filterMap _ fun first second hBefore finding hFirst other hSecond => ?_
    rw [(finding?_eq_some_iff.mp hFirst).1, (finding?_eq_some_iff.mp hSecond).1]
    exact hBefore
  exact finding := by
    rw [List.mem_filterMap]
    constructor
    · rintro ⟨place, hPlace, hFinding⟩
      obtain ⟨hIndex, hVerdict, hId⟩ := finding?_eq_some_iff.mp hFinding
      exact ⟨place.1, hIndex ▸ List.mem_zipIdx_iff_getElem?.mp hPlace, hVerdict, hId⟩
    · rintro ⟨element, hElement, hVerdict, hId⟩
      exact ⟨(element, finding.index), List.mem_zipIdx_iff_getElem?.mpr hElement,
        finding?_eq_some_iff.mpr ⟨rfl, hVerdict, hId⟩⟩

/-- There are findings exactly if an element is refused. -/
theorem RefusedAmong.ne_nil_iff {elements : List Json} {findings : List Finding}
    (hRefused : artifacts.RefusedAmong key elements findings) :
    findings ≠ [] ↔
      ∃ element ∈ elements, ∃ violations, artifacts.validate key element = .ok (.invalid violations) := by
  constructor
  · intro hSome
    obtain ⟨finding, hFinding⟩ := List.exists_mem_of_ne_nil findings hSome
    obtain ⟨element, hElement, hVerdict, -⟩ := (hRefused.exact finding).mp hFinding
    exact ⟨element, List.mem_of_getElem? hElement, finding.violations, hVerdict⟩
  · rintro ⟨element, hMem, violations, hVerdict⟩
    obtain ⟨index, hElement⟩ := List.getElem?_of_mem hMem
    have hFinding := (hRefused.exact ⟨index, element.member? "id", violations⟩).mpr ⟨element, hElement, hVerdict, rfl⟩
    exact List.ne_nil_of_mem hFinding

/-- The outcome tells what a document that stands in a data file is: whether it is an array, whether it is at fault, and
of an array how many elements it has and which of them are refused. -/
structure Tells (artifacts : Artifacts) (key : String) (document : Json) (outcome : DataOutcome) : Prop where
  present : outcome ≠ .missing
  notAnArray : outcome = .notAnArray ↔ ∀ elements, document ≠ .array elements
  faulty : outcome.isFailure = true ↔ ∀ elements, document = .array elements →
    ∃ element ∈ elements, ∃ violations, artifacts.validate key element = .ok (.invalid violations)
  findings : ∀ count findings, outcome = .checked count findings →
    ∃ elements, document = .array elements ∧ count = elements.length ∧ artifacts.RefusedAmong key elements findings

/-- Whatever document stands in a file, the check has an outcome, and that tells what the document is. -/
theorem exists_checkData (hKey : key ∈ artifacts.validators.names) (document : Json) :
    ∃ outcome, artifacts.checkData key document = .ok outcome ∧ artifacts.Tells key document outcome := by
  cases document with
  | array elements =>
      have hRefused : artifacts.RefusedAmong key elements (elements.zipIdx.filterMap (artifacts.finding? key)) :=
        refusedAmong_findings elements
      refine ⟨.checked elements.length (elements.zipIdx.filterMap (artifacts.finding? key)), ?_, by simp, by simp,
        ?_, ?_⟩
      · rw [checkData, findingsFrom_eq hKey]
        rfl
      · simp only [Json.array.injEq, forall_eq', ← hRefused.ne_nil_iff, DataOutcome.isFailure, Bool.not_eq_true',
          ne_eq, List.isEmpty_eq_false_iff]
      · rintro count findings ⟨⟩
        exact ⟨elements, rfl, rfl, hRefused⟩
  | _ => exact ⟨.notAnArray, rfl, by simp, by simp, by simp [DataOutcome.isFailure], by simp⟩

/-- The report on the data file of a type: whether the file is missing, holds no array or is at fault, and for an array
how many elements it has and which of them are refused. -/
structure ReportedOn (artifacts : Artifacts) (disk : Disk) (directory key : String) (report : DataReport) : Prop where
  ofType : report.key = key
  ofFile : report.path = dataFile directory key
  missing : report.outcome = .missing ↔ disk.present (dataFile directory key) = false
  notAnArray : report.outcome = .notAnArray ↔ ∃ text document, disk.readText (dataFile directory key) = .ok text ∧
    documentOfText? text = some document ∧ ∀ elements, document ≠ .array elements
  faulty : report.outcome.isFailure = true ↔ artifacts.FaultyFile disk key (dataFile directory key)
  findings : ∀ count findings, report.outcome = .checked count findings →
    ∃ text elements, disk.readText (dataFile directory key) = .ok text ∧
      documentOfText? text = some (.array elements) ∧ count = elements.length ∧
      artifacts.RefusedAmong key elements findings

end Artifacts

/-- A blank file counts as one without documents. -/
theorem documentOfText?_of_blank {text : String} (hBlank : Text.isBlankText text = true) :
    documentOfText? text = some (.array []) :=
  if_pos hBlank

theorem documentOfText?_of_not_blank {text : String} (hBlank : Text.isBlankText text = false) :
    documentOfText? text = Json.parse? text := by
  rw [documentOfText?, hBlank, if_neg Bool.false_ne_true]

/-- A file that can be read is legible if its text is a document or blank. -/
theorem legible_iff {disk : Disk} {path text : String} (hText : disk.readText path = .ok text) :
    disk.Legible path ↔ ∃ document, documentOfText? text = some document := by
  have hPresent := Disk.present_of_readText hText
  simp only [Disk.Legible, hPresent, hText, true_imp_iff, Except.ok.injEq, exists_eq_left']
  cases hBlank : Text.isBlankText text with
  | true => simp [documentOfText?_of_blank hBlank]
  | false => simp [documentOfText?_of_not_blank hBlank]

namespace Job

variable {disk : Disk} {α : Type}

theorem yields_readDocument {path text : String} {document : Json} (hText : disk.readText path = .ok text)
    (hDocument : documentOfText? text = some document) : Yields disk (readDocument path) document := by
  refine (yields_access_readText_iff.mpr hText).bind ?_
  rw [hDocument]
  exact yields_pure_iff.mpr rfl

theorem run_readDocument_of_unreadable {path : String} {cause : FileError} (hText : disk.readText path = .error cause) :
    (readDocument path : Job (StateM Disk) Json).run disk = (.error (.documentUnreadable path cause), disk) := by
  refine run_bind_of_error ?_ _
  change ((disk.readText path).mapError _, disk) = _
  rw [hText]
  rfl

/-- A text that is no document is a failure that names the file. -/
theorem run_readDocument_of_invalid {path text : String} (hText : disk.readText path = .ok text)
    (hNone : documentOfText? text = none) :
    (readDocument path : Job (StateM Disk) Json).run disk = (.error (.documentInvalid path), disk) := by
  rw [readDocument, run_bind_of_ok (yields_access_readText_iff.mpr hText), hNone]
  rfl

/-- A job on each of some names, each of which succeeds on the disk or fails. All of them are done if each of them is
fine; otherwise the first that is not fine decides. -/
theorem mapM_cases {job : String → Job (StateM Disk) α} {fine : String → Prop} {tells : String → α → Prop}
    {trouble : Failure → Prop} {names : List String}
    (hJobs : ∀ name ∈ names, (fine name ∧ ∃ value, Yields disk (job name) value ∧ tells name value) ∨
      (¬ fine name ∧ ∃ failure, (job name).run disk = (.error failure, disk) ∧ trouble failure)) :
    ((∀ name ∈ names, fine name) ∧ ∃ values, Yields disk (names.mapM job) values ∧ List.Forall₂ tells names values) ∨
      ((∃ name ∈ names, ¬ fine name) ∧
        ∃ failure, (names.mapM job).run disk = (.error failure, disk) ∧ trouble failure) := by
  induction names with
  | nil => exact .inl ⟨by simp, [], yields_pure_iff.mpr rfl, .nil⟩
  | cons name rest ih =>
      obtain ⟨hFirst, hRest⟩ := List.forall_mem_cons.mp hJobs
      rw [List.mapM_cons]
      rcases hFirst with ⟨hFine, value, hValue, hTells⟩ | ⟨hNot, failure, hFailure, hTrouble⟩
      · rcases ih hRest with ⟨hAll, values, hValues, hTold⟩ | ⟨⟨other, hOther, hNot⟩, failure, hFailure, hTrouble⟩
        · refine .inl ⟨List.forall_mem_cons.mpr ⟨hFine, hAll⟩, value :: values, ?_, .cons hTells hTold⟩
          exact hValue.bind (hValues.bind (yields_pure_iff.mpr rfl))
        · refine .inr ⟨⟨other, List.mem_cons_of_mem _ hOther, hNot⟩, failure, ?_, hTrouble⟩
          rw [run_bind_of_ok hValue, run_bind_of_error hFailure]
      · exact .inr ⟨⟨name, List.mem_cons_self, hNot⟩, failure, run_bind_of_error hFailure _, hTrouble⟩

end Job

namespace Artifacts

variable {artifacts : Artifacts} {disk : Disk} {directory key path : String}

theorem not_faultyFile_of_missing (hMissing : disk.present path = false) : ¬ artifacts.FaultyFile disk key path := by
  rintro ⟨text, _, hText, -⟩
  rw [Disk.present_of_readText hText] at hMissing
  cases hMissing

/-- A legible file is at fault unless it holds an array all of whose elements are accepted. -/
theorem faultyFile_iff {text : String} {document : Json} (hText : disk.readText path = .ok text)
    (hDocument : documentOfText? text = some document) :
    artifacts.FaultyFile disk key path ↔ ∀ elements, document = .array elements →
      ∃ element ∈ elements, ∃ violations, artifacts.validate key element = .ok (.invalid violations) := by
  simp only [FaultyFile, hText, Except.ok.injEq, exists_and_left, exists_eq_left']
  cases hBlank : Text.isBlankText text with
  | true =>
      obtain rfl : .array [] = document := Option.some.inj ((documentOfText?_of_blank hBlank).symm.trans hDocument)
      simp
  | false =>
      rw [documentOfText?_of_not_blank hBlank] at hDocument
      simp [hDocument]

/-- A file that is legible and not at fault is sound, and no other. -/
theorem soundFile_iff (hKey : key ∈ artifacts.validators.names) :
    artifacts.SoundFile disk key path ↔ disk.Legible path ∧ ¬ artifacts.FaultyFile disk key path := by
  constructor
  · rintro (hMissing | ⟨text, hText, hBlank | ⟨elements, hParsed, hValid⟩⟩)
    · exact ⟨fun hPresent => by simp [hMissing] at hPresent, not_faultyFile_of_missing hMissing⟩
    · refine ⟨fun _ => ⟨text, hText, .inl hBlank⟩, fun hFaulty => ?_⟩
      simpa using (faultyFile_iff hText (documentOfText?_of_blank hBlank)).mp hFaulty [] rfl
    · refine ⟨fun _ => ⟨text, hText, .inr ⟨_, hParsed⟩⟩, ?_⟩
      rintro ⟨other, document, hOther, -, hDocument, hRefused⟩
      rw [hText] at hOther
      cases hOther
      rw [hParsed] at hDocument
      cases hDocument
      obtain ⟨element, hMem, violations, hVerdict⟩ := hRefused elements rfl
      rw [hValid element hMem] at hVerdict
      cases hVerdict
  · rintro ⟨hLegible, hFaultless⟩
    by_cases hPresent : disk.present path = true
    · obtain ⟨text, hText, hBlank | ⟨document, hParsed⟩⟩ := hLegible hPresent
      · exact .inr ⟨text, hText, .inl hBlank⟩
      · cases hBlank : Text.isBlankText text with
        | true => exact .inr ⟨text, hText, .inl hBlank⟩
        | false =>
            rw [faultyFile_iff hText ((documentOfText?_of_not_blank hBlank).trans hParsed)] at hFaultless
            push Not at hFaultless
            obtain ⟨elements, rfl, hAccepted⟩ := hFaultless
            refine .inr ⟨text, hText, .inr ⟨elements, hParsed, fun element hMem => ?_⟩⟩
            rcases validate_cases hKey element with hValid | ⟨violations, hInvalid⟩
            · exact hValid
            · exact absurd hInvalid (hAccepted element hMem violations)
    · exact .inl (Bool.eq_false_iff.mpr hPresent)

/-- A missing file is reported as such, and nothing else is said about it. -/
theorem reportedOn_of_missing (hMissing : disk.present (dataFile directory key) = false) :
    artifacts.ReportedOn disk directory key ⟨key, dataFile directory key, .missing⟩ where
  ofType := rfl
  ofFile := rfl
  missing := iff_of_true rfl hMissing
  notAnArray := by
    refine iff_of_false (fun hOutcome => by cases hOutcome) ?_
    rintro ⟨text, _, hText, -⟩
    rw [Disk.present_of_readText hText] at hMissing
    cases hMissing
  faulty := by simpa [DataOutcome.isFailure] using not_faultyFile_of_missing hMissing
  findings _ _ hOutcome := by cases hOutcome

/-- What the outcome tells of the document is what the report says about the file. -/
theorem reportedOn_of_tells {text : String} {document : Json} {outcome : DataOutcome}
    (hText : disk.readText (dataFile directory key) = .ok text) (hDocument : documentOfText? text = some document)
    (hTells : artifacts.Tells key document outcome) :
    artifacts.ReportedOn disk directory key ⟨key, dataFile directory key, outcome⟩ where
  ofType := rfl
  ofFile := rfl
  missing := iff_of_false hTells.present (by simp [Disk.present_of_readText hText])
  notAnArray := by simp [hTells.notAnArray, hText, hDocument]
  faulty := hTells.faulty.trans (faultyFile_iff hText hDocument).symm
  findings count findings hChecked := by
    obtain ⟨elements, rfl, hCount, hRefused⟩ := hTells.findings count findings hChecked
    exact ⟨text, elements, hText, hDocument, hCount, hRefused⟩

/-- A file that is legible has its report; any other ends the check. -/
theorem checkFile_cases (hKey : key ∈ artifacts.validators.names) :
    (disk.Legible (dataFile directory key) ∧ ∃ report,
        Job.Yields disk (artifacts.checkFile directory key) report ∧
        artifacts.ReportedOn disk directory key report) ∨
      (¬ disk.Legible (dataFile directory key) ∧ ∃ failure,
        (artifacts.checkFile directory key : Job (StateM Disk) DataReport).run disk = (.error failure, disk) ∧
        failure.exitCode = 1) := by
  have hAsked : Job.Yields disk (Job.present (dataFile directory key)) (disk.present (dataFile directory key)) :=
    Job.yields_present_iff.mpr rfl
  rw [checkFile]
  cases hPresent : disk.present (dataFile directory key) with
  | false =>
      rw [hPresent] at hAsked
      refine .inl ⟨fun h => by simp [hPresent] at h, _, hAsked.bind rfl, reportedOn_of_missing hPresent⟩
  | true =>
      rw [hPresent] at hAsked
      cases hText : disk.readText (dataFile directory key) with
      | error cause =>
          refine .inr ⟨fun hLegible => ?_, .documentUnreadable (dataFile directory key) cause, ?_, rfl⟩
          · obtain ⟨text, hOther, -⟩ := hLegible hPresent
            rw [hText] at hOther
            cases hOther
          · exact (Job.run_bind_of_ok hAsked _).trans
              (Job.run_bind_of_error (Job.run_readDocument_of_unreadable hText) _)
      | ok text =>
          rw [legible_iff hText]
          cases hDocument : documentOfText? text with
          | none =>
              refine .inr ⟨by simp, .documentInvalid (dataFile directory key), ?_, rfl⟩
              exact (Job.run_bind_of_ok hAsked _).trans
                (Job.run_bind_of_error (Job.run_readDocument_of_invalid hText hDocument) _)
          | some document =>
              obtain ⟨outcome, hOutcome, hTells⟩ := exists_checkData hKey document
              refine .inl ⟨⟨document, rfl⟩, _, ?_, reportedOn_of_tells hText hDocument hTells⟩
              exact hAsked.bind ((Job.yields_readDocument hText hDocument).bind
                ((Job.yields_ofExcept_iff.mpr hOutcome).bind (Job.yields_pure_iff.mpr rfl)))

/-- The files at fault are as many as the reports that say so. -/
theorem exists_faulty {keys : List String} {reports : List DataReport}
    (hReports : List.Forall₂ (artifacts.ReportedOn disk directory) keys reports) :
    ∃ faulty : List String, faulty.Sublist keys ∧
      (∀ key ∈ keys, key ∈ faulty ↔ artifacts.FaultyFile disk key (dataFile directory key)) ∧
      faulty.length = reports.countP fun report => report.outcome.isFailure := by
  induction hReports with
  | nil => exact ⟨[], .slnil, by simp, rfl⟩
  | @cons key report keys reports hReport _ ih =>
      obtain ⟨faulty, hSublist, hFaulty, hLength⟩ := ih
      rw [List.countP_cons]
      by_cases hFault : report.outcome.isFailure = true
      · have hFirst := hReport.faulty.mp hFault
        refine ⟨key :: faulty, hSublist.cons_cons key, ?_, by rw [if_pos hFault, List.length_cons, hLength]⟩
        refine List.forall_mem_cons.mpr ⟨by simpa using hFirst, fun other hOther => ?_⟩
        rw [List.mem_cons, hFaulty other hOther, or_iff_right_iff_imp]
        rintro rfl
        exact hFirst
      · have hFirst : ¬ artifacts.FaultyFile disk key (dataFile directory key) := fun h => hFault (hReport.faulty.mpr h)
        refine ⟨faulty, hSublist.cons key, ?_, by rw [if_neg hFault, Nat.add_zero, hLength]⟩
        refine List.forall_mem_cons.mpr ⟨iff_of_false (fun hMem => ?_) hFirst, hFaulty⟩
        exact hFirst ((hFaulty key (hSublist.subset hMem)).mp hMem)

end Artifacts

namespace Session

variable {disk : Disk} {input dataDirectory config : Option String} {loaded : Settings} {artifacts : Artifacts}

/-- The settings with which data files are checked if a source and a directory may be given for it. -/
def checkSettings (loaded : Settings) (input dataDirectory : Option String) : Settings :=
  loaded.override { source := input, dataDirectory := dataDirectory }

/-- The result of a check and the lines that it prints, once it is known what looking at the files gives. -/
def checkEnd (directory : String) : Except Failure (List DataReport) → Except Failure Unit × List String
  | .error failure => (.error failure, ["Checking data in " ++ directory])
  | .ok reports =>
      let lines := ("Checking data in " ++ directory) :: reports.flatMap reportLines
      let failed := reports.countP fun report => report.outcome.isFailure
      if failed = 0 then (.ok (), lines ++ ["✓ All data files are valid"])
      else (.error (.objected (.dataFilesInvalid failed)), lines)

theorem textOf_append (first second : List String) : textOf (first ++ second) = textOf first ++ textOf second := by
  induction first with
  | nil => rw [List.nil_append, textOf, String.empty_append]
  | cons line rest ih => simp only [List.cons_append, textOf, ih, String.append_assoc]

/-- Once the settings and the source are read, the files decide. -/
theorem run_check (hLoaded : Job.Yields disk (Settings.load config) loaded)
    (hCompiled : Job.Yields disk (compileSource (checkSettings loaded input dataDirectory)) artifacts)
    {outcome : Except Failure (List DataReport)}
    (hFiles : (artifacts.checkFiles (checkSettings loaded input dataDirectory).dataDirectory :
      Job (StateM Disk) (List DataReport)).run disk = (outcome, disk)) :
    (check input dataDirectory config : Session (StateM Disk) Unit).run "" disk =
      (((checkEnd (checkSettings loaded input dataDirectory).dataDirectory outcome).1,
        textOf (checkEnd (checkSettings loaded input dataDirectory).dataDirectory outcome).2), disk) := by
  have hSettings : (settingsFor config { source := input, dataDirectory := dataDirectory } :
      Session (StateM Disk) Settings).run "" disk = ((.ok (checkSettings loaded input dataDirectory), ""), disk) :=
    run_settingsFor hLoaded _ _
  rw [check, run_bind_of_ok hSettings, run_bind_of_ok (run_say _ _ _), run_bind_of_ok (run_perform hCompiled _),
    run_bind (run_perform hFiles _)]
  cases outcome with
  | error failure =>
      rw [checkEnd, textOf, textOf, String.empty_append, String.append_empty]
      rfl
  | ok reports =>
      refine (run_bind_of_ok (run_sayAll _ _ _) _).trans ?_
      simp only [checkEnd]
      cases reports.countP fun report => report.outcome.isFailure with
      | zero =>
          rw [if_pos rfl]
          refine (run_say _ _ _).trans ?_
          simp only [textOf_append, textOf, String.empty_append, String.append_empty, String.append_assoc]
      | succ failed =>
          rw [if_neg (Nat.succ_ne_zero failed)]
          simp only [textOf, String.empty_append]
          rfl

end Session

namespace Command

/-- What the check of data files leads to. It succeeds if all of them are sound, objects if all are legible and some are
at fault, and breaks off if some are not legible. If it objects, it says how many are at fault. Unless it breaks off, it
prints a report on each of them, which tells the elements that are refused and why. The disk stays as it is. -/
structure ChecksData (artifacts : Artifacts) (disk : Disk) (directory : String) (outcome : Outcome) (after : Disk) :
    Prop where
  succeeds : outcome.exitCode = 0 ↔
    ∀ key ∈ artifacts.validators.names, artifacts.SoundFile disk key (dataFile directory key)
  objects : outcome.exitCode = 2 ↔
    (∀ key ∈ artifacts.validators.names, disk.Legible (dataFile directory key)) ∧
      ∃ key ∈ artifacts.validators.names, artifacts.FaultyFile disk key (dataFile directory key)
  breaks : outcome.exitCode = 1 ↔ ∃ key ∈ artifacts.validators.names, ¬ disk.Legible (dataFile directory key)
  counts : outcome.exitCode = 2 → ∃ faulty : List String, faulty.Sublist artifacts.validators.names ∧
    (∀ key ∈ artifacts.validators.names, key ∈ faulty ↔ artifacts.FaultyFile disk key (dataFile directory key)) ∧
    outcome.complaint = "Error: Validation failed: " ++ toString faulty.length ++ " data file(s) failed validation"
  reports : outcome.exitCode ≠ 1 → ∃ reports, Job.Yields disk (artifacts.checkFiles directory) reports ∧
    List.Forall₂ (artifacts.ReportedOn disk directory) artifacts.validators.names reports ∧
    outcome.output = Session.textOf (Session.checkEnd directory (.ok reports)).2
  unchanged : after = disk

section Verdict

variable {disk : Disk} {directory : String} {artifacts : Artifacts} {reports : List DataReport}

/-- Some file is at fault exactly if the list of those at fault is not empty. -/
theorem exists_faultyFile_iff {faulty : List String} (hSublist : faulty.Sublist artifacts.validators.names)
    (hFaulty : ∀ key ∈ artifacts.validators.names,
      key ∈ faulty ↔ artifacts.FaultyFile disk key (dataFile directory key)) :
    (∃ key ∈ artifacts.validators.names, artifacts.FaultyFile disk key (dataFile directory key)) ↔ faulty ≠ [] := by
  constructor
  · rintro ⟨key, hKey, hFault⟩
    exact List.ne_nil_of_mem ((hFaulty key hKey).mpr hFault)
  · intro hSome
    obtain ⟨key, hMem⟩ := List.exists_mem_of_ne_nil faulty hSome
    have hKey := hSublist.subset hMem
    exact ⟨key, hKey, (hFaulty key hKey).mp hMem⟩

/-- If all files have reports, these decide. -/
theorem checksData_of_reports (hReports : Job.Yields disk (artifacts.checkFiles directory) reports)
    (hTold : List.Forall₂ (artifacts.ReportedOn disk directory) artifacts.validators.names reports)
    (hLegible : ∀ key ∈ artifacts.validators.names, disk.Legible (dataFile directory key)) :
    ChecksData artifacts disk directory
      (Outcome.ofSession ((Session.checkEnd directory (.ok reports)).1,
        Session.textOf (Session.checkEnd directory (.ok reports)).2)) disk := by
  obtain ⟨faulty, hSublist, hFaulty, hLength⟩ := Artifacts.exists_faulty hTold
  have hSome := exists_faultyFile_iff hSublist hFaulty
  have hSound : (∀ key ∈ artifacts.validators.names, artifacts.SoundFile disk key (dataFile directory key)) ↔
      ¬ ∃ key ∈ artifacts.validators.names, artifacts.FaultyFile disk key (dataFile directory key) := by
    push Not
    refine forall₂_congr fun key hKey => ?_
    rw [Artifacts.soundFile_iff hKey, and_iff_right (hLegible key hKey)]
  have hWhole : ¬ ∃ key ∈ artifacts.validators.names, ¬ disk.Legible (dataFile directory key) := by
    push Not
    exact hLegible
  have hResult : (Session.checkEnd directory (.ok reports)).1 =
      if faulty.length = 0 then .ok () else .error (.objected (.dataFilesInvalid faulty.length)) := by
    rw [hLength, Session.checkEnd]
    split <;> rfl
  generalize hText : Session.textOf (Session.checkEnd directory (.ok reports)).2 = printed
  rw [hResult]
  by_cases hNone : faulty = []
  · rw [if_pos (by rw [hNone, List.length_nil])]
    have hFaultless := mt hSome.mp (not_not.mpr hNone)
    have hCode : (Outcome.ofSession (.ok (), printed)).exitCode = 0 := rfl
    exact {
      succeeds := iff_of_true hCode (hSound.mpr hFaultless)
      objects := iff_of_false (by rw [hCode]; decide) fun hObjects => hFaultless hObjects.2
      breaks := iff_of_false (by rw [hCode]; decide) hWhole
      counts := fun hOther => absurd (hCode.symm.trans hOther) (by decide)
      reports := fun _ => ⟨reports, hReports, hTold, hText.symm⟩
      unchanged := rfl }
  · rw [if_neg (mt List.eq_nil_of_length_eq_zero hNone)]
    have hFault := hSome.mpr hNone
    have hCode : (Outcome.ofSession
        (.error (.objected (.dataFilesInvalid faulty.length)), printed)).exitCode = 2 := rfl
    exact {
      succeeds := iff_of_false (by rw [hCode]; decide) fun hAll => hSound.mp hAll hFault
      objects := iff_of_true hCode ⟨hLegible, hFault⟩
      breaks := iff_of_false (by rw [hCode]; decide) hWhole
      counts := fun _ => ⟨faulty, hSublist, hFaulty, rfl⟩
      reports := fun _ => ⟨reports, hReports, hTold, hText.symm⟩
      unchanged := rfl }

/-- A file that is not legible decides alone. -/
theorem checksData_of_failure {failure : Failure} (hTrouble : failure.exitCode = 1)
    (hIllegible : ∃ key ∈ artifacts.validators.names, ¬ disk.Legible (dataFile directory key)) (printed : String) :
    ChecksData artifacts disk directory (Outcome.ofSession (.error failure, printed)) disk := by
  have hCode : (Outcome.ofSession (.error failure, printed)).exitCode = 1 := hTrouble
  obtain ⟨key, hKey, hNot⟩ := hIllegible
  exact {
    succeeds := iff_of_false (by rw [hCode]; decide) fun hAll =>
      hNot ((Artifacts.soundFile_iff hKey).mp (hAll key hKey)).1
    objects := iff_of_false (by rw [hCode]; decide) fun hAll => hNot (hAll.1 key hKey)
    breaks := iff_of_true hCode ⟨key, hKey, hNot⟩
    counts := fun hOther => absurd (hCode.symm.trans hOther) (by decide)
    reports := fun hOther => absurd hCode hOther
    unchanged := rfl }

end Verdict

/-- Whatever the settings, the source and the files are, if the source compiles, the files decide what the check of data
files leads to. -/
theorem check_decided_by_data_files {input dataDirectory config : Option String} {disk : Disk} {loaded : Settings}
    {artifacts : Artifacts} (hLoaded : Job.Yields disk (Settings.load config) loaded)
    (hCompiled : Job.Yields disk (compileSource (Session.checkSettings loaded input dataDirectory)) artifacts) :
    ChecksData artifacts disk (Session.checkSettings loaded input dataDirectory).dataDirectory
      ((Command.check input dataDirectory config).runOn disk).1
      ((Command.check input dataDirectory config).runOn disk).2 := by
  rcases Job.mapM_cases fun key hKey => Artifacts.checkFile_cases hKey with
    ⟨hLegible, reports, hReports, hTold⟩ | ⟨hIllegible, failure, hFailure, hTrouble⟩
  · rw [runOn_eq (.check input dataDirectory config) (Session.run_check hLoaded hCompiled hReports)]
    exact checksData_of_reports hReports hTold hLegible
  · rw [runOn_eq (.check input dataDirectory config) (Session.run_check hLoaded hCompiled hFailure)]
    exact checksData_of_failure hTrouble hIllegible _

/-- Two types. Of the documents of the first, the second one has no title; the file of the other type is blank. -/
def mixedDisk : Disk :=
  { nodes := [(["types.ts"], .file "export type A = \x7b\x7d; export type B = \x7b\x7d;"), (["database"], .directory),
      (["database", "a.json"],
        .file "[\x7b\"title\": \"t\", \"category\": \"c\"\x7d, \x7b\"category\": \"c\"\x7d]"),
      (["database", "b.json"], .file " \n")]
    home := [] }

/-- One of two files is at fault, which the exit code and the complaint tell. -/
theorem check_decided_by_mixed_files :
    ∃ artifacts, Job.Yields mixedDisk (Settings.load none) Settings.standard ∧
      Job.Yields mixedDisk (compileSource (Session.checkSettings Settings.standard none none)) artifacts ∧
      ((Command.check none none none).runOn mixedDisk).1.exitCode = 2 ∧
      ((Command.check none none none).runOn mixedDisk).1.complaint =
        "Error: Validation failed: 1 data file(s) failed validation" ∧
      ChecksData artifacts mixedDisk (Session.checkSettings Settings.standard none none).dataDirectory
        ((Command.check none none none).runOn mixedDisk).1 ((Command.check none none none).runOn mixedDisk).2 := by
  have hLoaded : Job.Yields mixedDisk (Settings.load none) Settings.standard :=
    Job.yields_load_iff.mpr (.inl ⟨by decide +kernel, rfl⟩)
  have hEnded : ((Command.check none none none).runOn mixedDisk).1.exitCode = 2 ∧
      ((Command.check none none none).runOn mixedDisk).1.complaint =
        "Error: Validation failed: 1 data file(s) failed validation" := by
    decide +kernel
  have hSome : ((compileSource (Session.checkSettings Settings.standard none none) :
      Job (StateM Disk) Artifacts).run mixedDisk).1.toOption.isSome = true := by
    decide +kernel
  obtain ⟨⟨outcome, after⟩, hRun⟩ : ∃ ended, (compileSource (Session.checkSettings Settings.standard none none) :
      Job (StateM Disk) Artifacts).run mixedDisk = ended := ⟨_, rfl⟩
  rw [hRun] at hSome
  cases outcome with
  | error failure => cases hSome
  | ok artifacts =>
      obtain ⟨-, hCompiled⟩ := (Job.readsOnly_compileSource _).yields hRun
      exact ⟨artifacts, hLoaded, hCompiled, hEnded.1, hEnded.2, check_decided_by_data_files hLoaded hCompiled⟩

end Command

end SchemaForge
