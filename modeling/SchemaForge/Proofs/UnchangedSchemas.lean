import SchemaForge.Proofs.CheckedPayloads
import SchemaForge.Proofs.GeneratedFiles
import SchemaForge.Proofs.ModuleReading
import SchemaForge.Proofs.ReportedUnknowns
import SchemaForge.Proofs.ScanSteps

/-! Nothing about schemas is lost in generated code. Schemas with the same expression are the same, and so are the
schemas behind a module that validating finds up to date and those it was generated from. The names of compiled
declarations are words, since a heading takes its name from one token, and a module starts and ends with characters that
are not trimmed. -/
namespace SchemaForge

open Lexeme

section Words

namespace Lexeme

theorem isWord_takeWhile {c : Char} (hStart : startsWord c = true) (rest : List Char) :
    isWord (String.ofList (c :: rest.takeWhile continuesWord)) = true := by
  rw [isWord, String.toList_ofList]
  exact Bool.and_eq_true_iff.mpr ⟨hStart, List.all_takeWhile⟩

theorem isWord_of_kind_read {c : Char} {rest : List Char} {word : String}
    (hKind : (read c rest).kind = some (.word word)) : isWord word = true := by
  obtain ⟨hStart, hRead⟩ := read_of_kind_word hKind
  rw [hRead] at hKind
  cases hKind
  exact isWord_takeWhile hStart rest

theorem isWord_of_mem_readFrom {taken : Nat} {chars : List Char} {lexeme : Lexeme} {word : String}
    (hMem : lexeme ∈ readFrom taken chars) (hKind : lexeme.kind = some (.word word)) : isWord word = true := by
  induction chars generalizing taken with
  | nil => cases hMem
  | cons c rest ih =>
      cases taken with
      | succ taken => exact ih hMem
      | zero =>
          rcases List.mem_cons.mp hMem with rfl | hFurther
          · exact isWord_of_kind_read hKind
          · exact ih hFurther

end Lexeme

theorem isWord_of_mem_tokenize {source word : String} {token : Token} (hMem : token ∈ tokenize source)
    (hKind : token.kind = .word word) : isWord word = true := by
  have hKinds : TokenKind.word word ∈ (tokenize source).map Token.kind := hKind ▸ List.mem_map_of_mem hMem
  rw [map_kind_tokenize] at hKinds
  obtain ⟨lexeme, hLexeme, hSame⟩ := List.mem_filterMap.mp hKinds
  exact isWord_of_mem_readFrom hLexeme hSame

namespace Grammar

/-- The name of a heading is one of the tokens. -/
theorem exists_word_of_heading? {tokens following : List Token} {heading : Heading}
    (hHeading : heading? tokens = some (heading, following)) : ∃ token ∈ tokens, token.kind = .word heading.name := by
  rw [heading?_eq] at hHeading
  obtain ⟨first, second, next, rest, hWords, -⟩ := namedHeading?_eq_some_iff.mp hHeading
  have hSuffix := (skipWord_suffix "declare" _).trans (skipWord_suffix "export" tokens)
  rw [hWords] at hSuffix
  exact ⟨⟨.word heading.name, second⟩, hSuffix.subset (by simp), rfl⟩

/-- So is the name of every declaration that is found. -/
theorem Scans.exists_word {final : Position} {depth later : Nat} {tokens left : List Token} {found : List Declaration}
    (hScans : Scans final depth tokens found later left) {declaration : Declaration} (hMem : declaration ∈ found) :
    ∃ token ∈ tokens, token.kind = .word declaration.name := by
  induction hScans with
  | here depth tokens => cases hMem
  | pass hNone further ih =>
      obtain ⟨token, hToken, hKind⟩ := ih hMem
      exact ⟨token, List.mem_cons_of_mem _ hToken, hKind⟩
  | find hHeading hFirst further ih =>
      rcases List.mem_cons.mp hMem with rfl | hFurther
      · rw [declaration_apply, Reader.bind_pure_eq_done_iff] at hFirst
        obtain ⟨contents, -, rfl⟩ := hFirst
        exact exists_word_of_heading? hHeading
      · obtain ⟨token, hToken, hKind⟩ := ih hFurther
        exact ⟨token, List.mem_cons_of_mem _ ((behind_suffix hHeading hFirst).subset hToken), hKind⟩

/-- The names of declarations that are found are words, as they were tokens. -/
theorem isWord_of_scan {source : String} {declarations : List Declaration}
    (hScan : (scan source).outcome = .ok declarations) {declaration : Declaration} (hMem : declaration ∈ declarations) :
    isWord declaration.name = true := by
  obtain ⟨later, hScans⟩ := exists_scans_of_outcome hScan
  obtain ⟨token, hToken, hKind⟩ := hScans.exists_word hMem
  exact isWord_of_mem_tokenize hToken hKind

end Grammar

/-- What is compiled from a source is well named. -/
theorem Artifacts.wellNamed_of_ofText {policy : Policy} {origin source : String} {artifacts : Artifacts}
    (hCompiled : (Compilation.ofText policy origin source).outcome = .ok artifacts) : artifacts.WellNamed := by
  obtain ⟨declarations, hScan, rfl, -⟩ := Compilation.exists_scan_of_ofText hCompiled
  exact wellNamed_build policy declarations fun _ => Grammar.isWord_of_scan hScan

end Words

section Trimming

/-- A line feed at the end is all that trimming takes off a line. -/
theorem trimBlanks_line {first last : Char} (hFirst : Text.isBlank first = false) (hLast : Text.isBlank last = false)
    (middle : List Char) :
    Text.trimBlanks (first :: (middle ++ [last, '\n'])) = first :: (middle ++ [last]) := by
  have hFeed : Text.isBlank '\n' = true := by decide
  have hReverse : (first :: (middle ++ [last, '\n'])).reverse = '\n' :: last :: (middle.reverse ++ [first]) := by simp
  rw [Text.trimBlanks, List.dropWhile_cons, hFirst, if_neg Bool.false_ne_true, hReverse, List.dropWhile_cons, hFeed,
    if_pos rfl, List.dropWhile_cons, hLast, if_neg Bool.false_ne_true]
  simp

namespace Artifacts

/-- The module ends with a semicolon and a line feed. -/
theorem suffix_servingText (artifacts : Artifacts) : [';', '\n'] <:+ artifacts.servingText.toList := by
  have hClosing : [';', '\n'] <:+ "\x7d;\n".toList := by decide
  have hMap (lines : List String) : [';', '\n'] <:+ (mapDefinition "readonlyProperties" lines).toList := by
    unfold mapDefinition
    rw [String.toList_append]
    exact hClosing.trans (List.suffix_append _ _)
  unfold servingText
  rw [String.toList_append, String.toList_append]
  exact ((hMap _).trans (List.suffix_append _ _)).trans (List.suffix_append _ _)

theorem exists_toList_moduleText (artifacts : Artifacts) (label : String) :
    ∃ middle, (artifacts.moduleText label).toList = '/' :: (middle ++ [';', '\n']) := by
  have hBegins : Begins ['/'] (artifacts.moduleText label) := by
    rw [moduleText_eq_label]
    exact ((begins_ofList (by decide)).append _).append _
  have hEnding : [';', '\n'] <:+ (artifacts.moduleText label).toList := by
    rw [moduleText_eq, String.toList_append, definitionsText_eq, String.toList_append]
    exact (artifacts.suffix_servingText.trans (List.suffix_append _ _)).trans (List.suffix_append _ _)
  obtain ⟨rest, hRest⟩ := hBegins
  obtain ⟨front, hFront⟩ := hEnding
  cases front with
  | nil => exact absurd (hRest.trans hFront.symm) (by simp)
  | cons c middle =>
      obtain ⟨rfl, -⟩ := List.cons.inj (hRest.trans hFront.symm)
      exact ⟨middle, hFront.symm⟩

/-- Trimming takes the last line feed off a module and nothing else. -/
theorem trim_moduleText (artifacts : Artifacts) (label : String) :
    Text.trim (artifacts.moduleText label) ++ "\n" = artifacts.moduleText label := by
  obtain ⟨middle, hChars⟩ := exists_toList_moduleText artifacts label
  rw [Text.trim, hChars, trimBlanks_line (by decide) (by decide), ← String.toList_inj, hChars, String.toList_append,
    String.toList_ofList]
  simp

/-- Trimming takes the same line feed off all modules, so it makes no two of them the same. -/
theorem moduleText_eq_of_trim_eq {old new : Artifacts} {label label' : String}
    (hSame : Text.trim (old.moduleText label) = Text.trim (new.moduleText label')) :
    old.moduleText label = new.moduleText label' := by
  rw [← trim_moduleText old, hSame, trim_moduleText]

end Artifacts

end Trimming

section Validating

/-- A module is generated from what the source compiles to and the label of the source. -/
theorem Job.yields_generate_iff {disk : Disk} {settings : Settings} {generation : Generation} :
    Yields disk (generate settings) generation ↔ ∃ artifacts, Yields disk (compileSource settings) artifacts ∧
      (⟨artifacts, artifacts.moduleText (PathName.label settings.source)⟩ : Generation) = generation := by
  rw [generate, yields_bind_iff (readsOnly_compileSource settings)]
  simp only [yields_pure_iff]

/-- A successful validation read the module and found it to be what would be generated, blanks aside. -/
theorem Session.of_validate_ok {path : String} {input config : Option String} {printed later : String}
    {disk after : Disk}
    (hRun : (validate path input config : Session (StateM Disk) Unit).run printed disk = ((.ok (), later), after)) :
    ∃ text loaded generation, disk.readText path = .ok text ∧ Job.Yields disk (Settings.load config) loaded ∧
      Job.Yields disk (SchemaForge.generate (settingsWith loaded input)) generation ∧
      Text.trim text = Text.trim generation.text := by
  obtain ⟨_, _, _, hSaid, hRun⟩ := exists_of_bind_ok hRun
  cases hSaid
  obtain ⟨isPresent, -, hRun⟩ := exists_of_perform_bind_ok (Job.ReadsOnly.present path) hRun
  cases isPresent with
  | false => cases hRun
  | true =>
      obtain ⟨text, hText, hRun⟩ := exists_of_perform_bind_ok (Job.ReadsOnly.access_readText _ path) hRun
      obtain ⟨settings, _, _, hSettings, hRun⟩ := exists_of_bind_ok hRun
      obtain ⟨loaded, hLoaded, hSame⟩ := exists_of_perform_bind_ok (Job.readsOnly_load config) hSettings
      cases hSame
      obtain ⟨generation, hGeneration, hRun⟩ := exists_of_perform_bind_ok (Job.readsOnly_generate _) hRun
      refine ⟨text, loaded, generation, Job.yields_access_readText_iff.mp hText, hLoaded, hGeneration, ?_⟩
      by_contra hOther
      rw [if_neg hOther] at hRun
      obtain ⟨_, _, _, -, hRun⟩ := exists_of_bind_ok hRun
      obtain ⟨_, _, _, -, hThrown⟩ := exists_of_bind_ok hRun
      cases hThrown

/-- Two modules that are the same up to blanks around them were generated from the same schemas, whenever and from
wherever they were generated. -/
theorem find?_eq_of_trim_text_eq {earlier disk : Disk} {settings settings' : Settings} {before now : Generation}
    (hBefore : Job.Yields earlier (generate settings) before) (hNow : Job.Yields disk (generate settings') now)
    (hNumbers : Binary64.WrittenApart before.artifacts.schemas.numbers now.artifacts.schemas.numbers)
    (hSame : Text.trim before.text = Text.trim now.text) (name : String) :
    before.artifacts.schemas.find? name = now.artifacts.schemas.find? name := by
  have hNamed {disk : Disk} {settings : Settings} {artifacts : Artifacts}
      (hArtifacts : Job.Yields disk (compileSource settings) artifacts) : artifacts.WellNamed := by
    obtain ⟨text, -, hCompiled⟩ := Job.yields_compileSource_iff.mp hArtifacts
    exact Artifacts.wellNamed_of_ofText hCompiled
  obtain ⟨old, hOld, rfl⟩ := Job.yields_generate_iff.mp hBefore
  obtain ⟨new, hNew, rfl⟩ := Job.yields_generate_iff.mp hNow
  have hTexts := Artifacts.moduleText_eq_of_trim_eq hSame
  exact (hNamed hOld).find?_eq_of_moduleText_eq (hNamed hNew) hNumbers hTexts name

/-- Schemas whose references are words and whose numbers are written apart have different expressions unless they are
the same. A module that was generated before, from whatever disk and with whatever settings, is found up to date only
if the schemas it was generated from are those that are compiled now. -/
theorem generated_code_tells_schemas :
    (∀ {first second : Schema} {defined : List String} {depth : Nat},
      first.RefersOnlyTo (isWord · = true) → second.RefersOnlyTo (isWord · = true) →
      Binary64.WrittenApart first.numbers second.numbers →
      first.expression defined depth = second.expression defined depth → first = second) ∧
    ∀ {path text : String} {input config : Option String} {earlier disk after : Disk} {settings : Settings}
      {before : Generation} {outcome : Outcome},
      Job.Yields earlier (generate settings) before →
      disk.readText path = .ok text → Text.trim text = Text.trim before.text →
      (Command.validate path input config).runOn disk = (outcome, after) → outcome.exitCode = 0 →
        ∃ loaded now, Job.Yields disk (Settings.load config) loaded ∧
          Job.Yields disk (generate (Session.settingsWith loaded input)) now ∧
          (Binary64.WrittenApart before.artifacts.schemas.numbers now.artifacts.schemas.numbers →
            ∀ name, before.artifacts.schemas.find? name = now.artifacts.schemas.find? name) := by
  constructor
  · intro first second defined depth hWords hWords' hNumbers hSame
    exact Schema.Comparable.eq_of_expression_eq ⟨hWords, hWords', hNumbers⟩ hSame
  · intro path text input config earlier disk after settings before outcome hBefore hText hTrim hRun hExit
    obtain ⟨held, loaded, now, hHeld, hLoaded, hNow, hUpToDate⟩ :=
      Session.of_validate_ok (Command.session_of_exitCode_eq_zero hRun hExit)
    obtain rfl : text = held := Except.ok.inj (hText.symm.trans hHeld)
    exact ⟨loaded, now, hLoaded, hNow, fun hNumbers =>
      find?_eq_of_trim_text_eq hBefore hNow hNumbers (hTrim.symm.trans hUpToDate)⟩

theorem Session.settingsWith_none (loaded : Settings) : settingsWith loaded none = loaded :=
  rfl

/-- A module that is what would be generated is found up to date. -/
theorem exitCode_validate {path : String} {input config : Option String} {disk : Disk} {loaded : Settings}
    {generation : Generation} (hHeld : disk.readText path = .ok generation.text)
    (hLoaded : Job.Yields disk (Settings.load config) loaded)
    (hGenerated : Job.Yields disk (generate (Session.settingsWith loaded input)) generation) :
    ((Command.validate path input config).runOn disk).1.exitCode = 0 := by
  have hValidated := Session.run_validate hHeld hLoaded hGenerated ""
  rw [Command.runOn_eq (.validate path input config) hValidated]
  simp only [Outcome.ofSession]

/-- Two types that refer to each other, with a number, a key in quotes and further elements. -/
def ringSource : String :=
  "export type A = \x7b \"a-b\"?: 1; t: [B, ...string[]] \x7d; type B = \x7b x: A[] \x7d;"

def remarkedSource : String :=
  "export type A = \x7b \"a-b\"?: 1; t: [B, ...string[]] \x7d; type B = \x7b x: A[] \x7d; // checked"

/-- The remark gives no token, so both sources compile to the same. -/
theorem outcome_remarkedSource (policy : Policy) (origin : String) :
    (Compilation.ofText policy origin remarkedSource).outcome =
      (Compilation.ofText policy origin ringSource).outcome := by
  have hTokens : tokenize remarkedSource = tokenize ringSource :=
    (tokenize_ofList _).trans (Eq.trans (by decide +kernel) (tokenize_ofList _).symm)
  have hScan : Grammar.scan remarkedSource = Grammar.scan ringSource := by rw [Grammar.scan, hTokens, Grammar.scan]
  unfold Compilation.ofText Compilation.exportingDeclarationsOf Compilation.declarationsOf
  rw [hScan]

def moduleDisk (source text : String) : Disk :=
  { nodes := [(["types.ts"], .file source), (["schema.js"], .file text)]
    home := [] }

/-- The same is generated from both sources. -/
theorem exists_generation_ring : ∃ generation,
    (∀ text, Job.Yields (moduleDisk ringSource text) (generate Settings.standard) generation) ∧
      (∀ text, Job.Yields (moduleDisk remarkedSource text) (generate Settings.standard) generation) ∧
      generation.artifacts.schemas.numbers = [Binary64.ofNat 1] := by
  have hNumbers : (Compilation.ofText Policy.standard "types.ts" ringSource).outcome.toOption.map
      (fun artifacts => artifacts.schemas.numbers) = some [Binary64.ofNat 1] := by
    decide +kernel
  have hRemarked := outcome_remarkedSource Policy.standard "types.ts"
  generalize hOutcome : (Compilation.ofText Policy.standard "types.ts" ringSource).outcome = outcome
    at hNumbers hRemarked
  cases outcome with
  | error failure => cases hNumbers
  | ok artifacts =>
      refine ⟨⟨artifacts, artifacts.moduleText (PathName.label "types.ts")⟩, fun text => ?_, fun text => ?_,
        Option.some.inj hNumbers⟩
      · exact Job.yields_generate_iff.mpr ⟨artifacts, Job.yields_compileSource_iff.mpr ⟨_, rfl, hOutcome⟩, rfl⟩
      · exact Job.yields_generate_iff.mpr ⟨artifacts, Job.yields_compileSource_iff.mpr ⟨_, rfl, hRemarked⟩, rfl⟩

/-- A remark in the source leaves the module up to date. The two expressions that are compared begin alike. -/
theorem generated_code_tells_schemas_remarked :
    (Schema.optional (.tuple [.any] none)).expression [] 0 ≠
        (Schema.tuple [.any] (some (.optional .any))).expression [] 0 ∧
      ∃ before now, Job.Yields (moduleDisk ringSource "") (generate Settings.standard) before ∧
        ((Command.validate "schema.js" none none).runOn (moduleDisk remarkedSource before.text)).1.exitCode = 0 ∧
        Job.Yields (moduleDisk remarkedSource before.text) (generate Settings.standard) now ∧
        before.artifacts.schemas.numbers = [Binary64.ofNat 1] ∧ now.artifacts.schemas.numbers = [Binary64.ofNat 1] ∧
        ∀ name, before.artifacts.schemas.find? name = now.artifacts.schemas.find? name := by
  constructor
  · have hNothing {α : Type} {P : α → Prop} : ∀ x ∈ ([] : List α), P x := by simp
    intro hSame
    refine absurd (generated_code_tells_schemas.1 ?_ ?_ ?_ hSame) (by simp)
    · exact hNothing
    · exact hNothing
    · exact hNothing
  · obtain ⟨before, hRing, hRemarked, hNumbers⟩ := exists_generation_ring
    have hNow : Job.Yields (moduleDisk remarkedSource before.text)
        (generate (Session.settingsWith Settings.standard none)) before := by
      rw [Session.settingsWith_none]
      exact hRemarked before.text
    have hHeld : (moduleDisk remarkedSource before.text).readText "schema.js" = .ok before.text := rfl
    have hStandard : Job.Yields (moduleDisk remarkedSource before.text) (Settings.load none) Settings.standard :=
      Job.yields_load_iff.mpr (.inl ⟨rfl, rfl⟩)
    have hExit := exitCode_validate hHeld hStandard hNow
    refine ⟨before, before, hRing "", hExit, hRemarked before.text, hNumbers, hNumbers, ?_⟩
    generalize hRun : (Command.validate "schema.js" none none).runOn (moduleDisk remarkedSource before.text) = ended
      at hExit
    obtain ⟨outcome, after⟩ := ended
    obtain ⟨loaded, now, hLoaded, hYields, hSame⟩ := generated_code_tells_schemas.2 (hRing "") hHeld rfl hRun hExit
    obtain rfl : loaded = Settings.standard := Except.ok.inj (Prod.mk.inj (hLoaded.symm.trans hStandard)).1
    obtain rfl : now = before := Except.ok.inj (Prod.mk.inj (hYields.symm.trans hNow)).1
    refine hSame ?_
    rw [hNumbers]
    intro x hX y hY _
    rw [List.mem_singleton.mp hX, List.mem_singleton.mp hY]

end Validating

end SchemaForge
