import SchemaForge.Proofs.EmittedModule
import SchemaForge.Proofs.ExpressionReading

/-! A module says all about the schemas it was generated from. Its constants come first, each on its own, and what
follows them starts with a function or the map of validators, which is no constant of a schema. The heading names the
source, and no line below it starts with a slash as its own second line does, so it is clear where the name ends. -/
namespace SchemaForge

open Lexeme

namespace SchemaTable

def numbers (table : SchemaTable) : List Binary64 :=
  table.values.flatMap Schema.numbers

theorem numbers_subset {table : SchemaTable} {name : String} {schema : Schema}
    (hFind : table.find? name = some schema) : schema.numbers ⊆ table.numbers := by
  have hMem := (OrderedMap.mem_entries_iff_find? table name schema).mpr hFind
  exact fun x hX => List.mem_flatMap.mpr ⟨schema, List.mem_map_of_mem hMem, hX⟩

end SchemaTable

namespace Artifacts

section Constants

variable {old new : Artifacts} {defined : List String}

/-- The schemas of well-named artifacts can be compared as far as their numbers can. -/
theorem WellNamed.comparable (hOld : old.WellNamed) (hNew : new.WellNamed)
    (hNumbers : Binary64.WrittenApart old.schemas.numbers new.schemas.numbers)
    {name name' : String} {schema schema' : Schema} (hFind : old.schemas.find? name = some schema)
    (hFind' : new.schemas.find? name' = some schema') : Schema.Comparable schema schema' where
  words target hTarget := hOld.word target (hOld.closed name schema hFind target hTarget)
  words' target hTarget := hNew.word target (hNew.closed name' schema' hFind' target hTarget)
  numbers x hX y hY := hNumbers x (SchemaTable.numbers_subset hFind hX) y (SchemaTable.numbers_subset hFind' hY)

def constantOpening (exported : Bool) : String :=
  "\n" ++ (if exported then "export " else "") ++ "const "

/-- The definition of a constant is its opening, its name, the expression of its schema and an end. -/
theorem constantDefinition_of_find? {name : String} {schema : Schema} (hFind : old.schemas.find? name = some schema) :
    old.constantDefinition defined name =
      constantOpening (old.isExported name) ++ constantName name ++ " = " ++ schema.expression defined 0 ++ ";\n" := by
  rw [constantDefinition, hFind]
  rfl

/-- Whether a constant is exported is seen from its first characters. -/
theorem readsBack_constantOpening (exported exported' : Bool) {follows : List Char → Prop} :
    ReadsBack follows (constantOpening exported) (constantOpening exported') (exported = exported') := by
  cases exported <;> cases exported'
  · exact .same _ rfl
  · exact .of_take_ne 2 (by decide) (by decide) (by decide)
  · exact .of_take_ne 2 (by decide) (by decide) (by decide)
  · exact .same _ rfl

/-- A definition gives back the name and the schema. The name is a word, so it ends in front of the blank behind
it. -/
theorem readsBack_constantDefinition {name name' : String} {schema schema' : Schema} {follows : List Char → Prop}
    (hWord : isWord name = true) (hWord' : isWord name' = true) (hComparable : Schema.Comparable schema schema')
    (hFind : old.schemas.find? name = some schema) (hFind' : new.schemas.find? name' = some schema') :
    ReadsBack follows (old.constantDefinition defined name) (new.constantDefinition defined name')
      (name = name' ∧ schema = schema') := by
  rw [constantDefinition_of_find? hFind, constantDefinition_of_find? hFind']
  have hOpening : ReadsBack Anything (constantOpening (old.isExported name)) (constantOpening (new.isExported name'))
      (old.isExported name = new.isExported name') := readsBack_constantOpening _ _
  have hName := hOpening.append (fun _ => readsBack_constantName hWord hWord') (fun _ _ => trivial) fun _ _ => trivial
  have hEquals : ReadsBack Anything (constantOpening (old.isExported name) ++ constantName name ++ " = ")
      (constantOpening (new.isExported name') ++ constantName name' ++ " = ") (name = name') :=
    hName.before fun _ => stops_of_startsWith (by decide : continuesWord ' ' = false) rfl
  have hValue := hComparable.readsBack defined 0
  have hWhole : ReadsBack (endsWord · = true) _ _ (name = name' ∧ schema = schema') :=
    hEquals.append (fun hSame => hValue.mono (fun _ hRest => hRest) fun hSame' => ⟨hSame, hSame'⟩)
      (fun _ _ => trivial) fun _ _ => trivial
  exact hWhole.before fun _ => rfl

/-- What stands behind the constants of the schemas: a function or the map of validators. -/
def AfterConstants (rest : List Char) : Prop :=
  "\nexport function validate".toList <+: rest ∨ ("\nexport const " ++ "validators" ++ " = \x7b\n").toList <+: rest

/-- A definition starts with its opening, whatever stands behind it. -/
theorem begins_constantDefinition {name : String} {schema : Schema} (hFind : old.schemas.find? name = some schema)
    (defined : List String) (behind : String) :
    Begins (constantOpening (old.isExported name)).toList (old.constantDefinition defined name ++ behind) := by
  rw [constantDefinition_of_find? hFind]
  have hOpening : Begins (constantOpening (old.isExported name)).toList (constantOpening (old.isExported name)) :=
    List.prefix_refl _
  exact ((((hOpening.append _).append _).append _).append _).append _

/-- A function is not taken for a constant: the keywords differ. -/
theorem readsBack_function_constantDefinition {name : String} {schema : Schema}
    (hFind : old.schemas.find? name = some schema) (behind : String) :
    ReadsBack Anything "\nexport function validate" (old.constantDefinition defined name ++ behind) False := by
  have hBegins := begins_constantDefinition hFind defined behind
  cases hExported : old.isExported name with
  | false =>
      rw [hExported] at hBegins
      exact (begins_ofList (by decide) : Begins "\nexport".toList _).readsBack hBegins (by decide) (by decide)
  | true =>
      rw [hExported] at hBegins
      exact (begins_ofList (by decide) : Begins "\nexport functi".toList _).readsBack hBegins (by decide) (by decide)

/-- The constant of a schema has another name than the map of validators. -/
theorem readsBack_map_constantDefinition {name : String} {schema : Schema} (hWord : isWord name = true)
    (hFind : old.schemas.find? name = some schema) (behind : String) :
    ReadsBack Anything ("\nexport const " ++ "validators" ++ " = \x7b\n")
      (old.constantDefinition defined name ++ behind) False := by
  cases hExported : old.isExported name with
  | false =>
      have hBegins := begins_constantDefinition hFind defined behind
      rw [hExported] at hBegins
      have hExport : Begins "\nexport".toList ("\nexport const " ++ "validators" ++ " = \x7b\n") :=
        ((begins_ofList (by decide)).append _).append _
      exact hExport.readsBack hBegins (by decide) (by decide)
  | true =>
      have hNames : ReadsBack (Stops continuesWord) "validators" (constantName name) False :=
        (readsBack_word (by decide) (isWord_constantName hWord)).mono (fun _ hRest => hRest) fun hSame =>
          constantName_ne (by decide) name hSame.symm
      rw [constantDefinition_of_find? hFind, hExported]
      simp only [String.append_assoc]
      refine (hNames.append False.elim ?_ ?_).after "\nexport const "
      · exact fun rest _ => (begins_ofList (by decide) : Begins [' '] _).stops (by decide) rest
      · exact fun rest _ => ((begins_ofList (by decide) : Begins [' '] " = ").append _).stops (by decide) rest

/-- What stands behind the constants does not start with another constant. -/
theorem readsBack_afterConstants {name : String} {schema : Schema} (hWord : isWord name = true)
    (hFind : old.schemas.find? name = some schema) (behind : String) {alike : Prop} :
    ReadsBack AfterConstants "" (old.constantDefinition defined name ++ behind) alike := by
  intro rest rest' hRest hRest' hSame
  rcases hRest with ⟨further, rfl⟩ | ⟨further, rfl⟩
  · exact (readsBack_function_constantDefinition hFind behind further rest' trivial trivial hSame).1.elim
  · exact (readsBack_map_constantDefinition hWord hFind behind further rest' trivial trivial hSame).1.elim

/-- The induction is over the names. Definitions that are written alike have the same names and the same schemas, one
by one; where one list ends, what stands behind the constants ends the other. -/
theorem readsBack_constantDefinitions (hOld : old.WellNamed) (hNew : new.WellNamed)
    (hNumbers : Binary64.WrittenApart old.schemas.numbers new.schemas.numbers)
    {names names' : List String} (hNames : names ⊆ old.schemas.names) (hNames' : names' ⊆ new.schemas.names) :
    ReadsBack AfterConstants (old.constantDefinitions defined names) (new.constantDefinitions defined names')
      (names = names' ∧ ∀ name ∈ names, old.schemas.find? name = new.schemas.find? name) := by
  induction names generalizing defined names' with
  | nil =>
      cases names' with
      | nil => exact .same _ ⟨rfl, by simp⟩
      | cons name' names' =>
          obtain ⟨hName', -⟩ := List.cons_subset.mp hNames'
          obtain ⟨schema', hFind'⟩ := (new.schemas.mem_names_iff_find? name').mp hName'
          exact readsBack_afterConstants (hNew.word name' hName') hFind' _
  | cons name names ih =>
      obtain ⟨hName, hFurther⟩ := List.cons_subset.mp hNames
      obtain ⟨schema, hFind⟩ := (old.schemas.mem_names_iff_find? name).mp hName
      have hWord := hOld.word name hName
      cases names' with
      | nil => exact (readsBack_afterConstants hWord hFind _).symm id
      | cons name' names' =>
          obtain ⟨hName', hFurther'⟩ := List.cons_subset.mp hNames'
          obtain ⟨schema', hFind'⟩ := (new.schemas.mem_names_iff_find? name').mp hName'
          have hComparable := hOld.comparable hNew hNumbers hFind hFind'
          have hFirst : ReadsBack Anything (old.constantDefinition defined name) (new.constantDefinition defined name')
              (name = name' ∧ schema = schema') :=
            readsBack_constantDefinition hWord (hNew.word name' hName') hComparable hFind hFind'
          refine hFirst.append (fun hSame => ?_) (fun _ _ => trivial) fun _ _ => trivial
          obtain ⟨rfl, rfl⟩ := hSame
          have hOthers := @ih (name :: defined) names' hFurther hFurther'
          refine hOthers.mono (fun _ hRest => hRest) fun hSame => ?_
          exact ⟨by rw [hSame.1], List.forall_mem_cons.mpr ⟨hFind.trans hFind'.symm, hSame.2⟩⟩

end Constants

section Definitions

def servingText (artifacts : Artifacts) : String :=
  "".intercalate (artifacts.catalog.exported.map fun declaration => functionDefinition declaration.name) ++
  (mapDefinition "validators" (artifacts.validators.entries.map validatorLine) ++
  mapDefinition "readonlyProperties" (artifacts.readonly.entries.map readonlyLine))

/-- The text of the definitions is that of the constants, in the order of their dependencies, and what serves them. -/
theorem definitionsText_eq (artifacts : Artifacts) : artifacts.definitionsText =
    artifacts.constantDefinitions [] artifacts.schemas.dependencyOrder ++ artifacts.servingText :=
  rfl

theorem join_cons (text : String) (texts : List String) :
    "".intercalate (text :: texts) = text ++ "".intercalate texts := by
  cases texts with
  | nil => simp
  | cons next texts => rw [String.intercalate_cons_cons, String.append_empty]

/-- The pieces of a function, bracketed to the right, so that its start is a piece of its own. -/
theorem functionDefinition_eq (name : String) : functionDefinition name =
    "\nexport function validate" ++ (name ++ ("(data) \x7b\n" ++ ("  const result = " ++ (constantName name ++
      (".safeParse(data);\n" ++ functionEnding))))) := by
  delta functionDefinition functionEnding
  simp only [String.append_assoc]

theorem begins_functionDefinition (name : String) :
    Begins "\nexport function validate".toList (functionDefinition name) := by
  have hOpening : Begins "\nexport function validate".toList "\nexport function validate" := List.prefix_refl _
  rw [functionDefinition_eq]
  exact hOpening.append _

theorem begins_mapDefinition (name : String) (lines : List String) :
    Begins ("\nexport const " ++ name ++ " = \x7b\n").toList (mapDefinition name lines) := by
  have hOpening : Begins ("\nexport const " ++ name ++ " = \x7b\n").toList ("\nexport const " ++ name ++ " = \x7b\n") :=
    List.prefix_refl _
  unfold mapDefinition
  exact (hOpening.append _).append _

/-- The functions and maps start in a way no constant does, even if there is no function. -/
theorem afterConstants_servingText (artifacts : Artifacts) : AfterConstants artifacts.servingText.toList := by
  rw [servingText]
  cases artifacts.catalog.exported with
  | nil =>
      rw [List.map_nil, String.intercalate_nil, String.empty_append]
      exact Or.inr ((begins_mapDefinition _ _).append _)
  | cons declaration declarations =>
      rw [List.map_cons, join_cons]
      exact Or.inl (((begins_functionDefinition _).append _).append _)

/-- What is defined in a module tells the schemas. -/
theorem WellNamed.find?_eq_of_definitionsText_eq {old new : Artifacts} (hOld : old.WellNamed) (hNew : new.WellNamed)
    (hNumbers : Binary64.WrittenApart old.schemas.numbers new.schemas.numbers)
    (hSame : old.definitionsText = new.definitionsText) (name : String) :
    old.schemas.find? name = new.schemas.find? name := by
  rw [definitionsText_eq, definitionsText_eq, ← String.toList_inj, String.toList_append, String.toList_append] at hSame
  have hRead := @readsBack_constantDefinitions old new [] hOld hNew hNumbers _ _
    old.schemas.dependencyOrder_subset_names new.schemas.dependencyOrder_subset_names
  obtain ⟨⟨hOrder, hSchemas⟩, -⟩ := hRead _ _ old.afterConstants_servingText new.afterConstants_servingText hSame
  by_cases hName : name ∈ old.schemas.dependencyOrder
  · exact hSchemas name hName
  · have hNone : name ∉ old.schemas.names ∧ name ∉ new.schemas.names := by
      rw [← old.schemas.dependencyOrder_perm_names.mem_iff, ← new.schemas.dependencyOrder_perm_names.mem_iff, ← hOrder]
      exact ⟨hName, hName⟩
    have hOldNone := (Entries.find?_eq_none_iff name old.schemas.entries).mpr hNone.1
    have hNewNone := (Entries.find?_eq_none_iff name new.schemas.entries).mpr hNone.2
    exact hOldNone.trans hNewNone.symm

end Definitions

end Artifacts

section Lines

/-- No line starts with a slash. The flag tells if one starts with the first character. -/
def noSlashLines : Bool → List Char → Bool
  | _, [] => true
  | starts, c :: rest => !(starts && c == '/') && noSlashLines (c == '\n') rest

/-- Text that may stand at the start of a line may stand anywhere. -/
theorem noSlashLines_of_true {chars : List Char} (hChars : noSlashLines true chars = true) (starts : Bool) :
    noSlashLines starts chars = true := by
  cases chars with
  | nil => rfl
  | cons c rest =>
      obtain ⟨hFirst, hRest⟩ := Bool.and_eq_true_iff.mp hChars
      cases starts with
      | true => exact hChars
      | false => exact hRest

/-- Where the second text may stand at the start of a line, the end of the first does not matter. -/
theorem noSlashLines_append {chars next : List Char} {starts : Bool} (hChars : noSlashLines starts chars = true)
    (hNext : noSlashLines true next = true) : noSlashLines starts (chars ++ next) = true := by
  induction chars generalizing starts with
  | nil => exact noSlashLines_of_true hNext starts
  | cons c rest ih =>
      obtain ⟨hFirst, hRest⟩ := Bool.and_eq_true_iff.mp hChars
      exact Bool.and_eq_true_iff.mpr ⟨hFirst, ih hRest⟩

/-- Text on one line starts no further line, so it may hold any slashes if it does not start the line itself. -/
theorem noSlashLines_of_feed_notMem {chars : List Char} (hFeed : '\n' ∉ chars) : noSlashLines false chars = true := by
  induction chars with
  | nil => rfl
  | cons c rest ih =>
      obtain ⟨hFirst, hRest⟩ := not_or.mp (mt List.mem_cons.mpr hFeed)
      have hOther : (c == '\n') = false := beq_false_of_ne (Ne.symm hFirst)
      rw [noSlashLines, hOther, ih hRest]
      rfl

/-- A line that starts with a slash is found, whatever stands before and behind it. -/
theorem noSlashLines_eq_false (starts : Bool) (chars behind : List Char) :
    noSlashLines starts (chars ++ '\n' :: '/' :: behind) = false := by
  induction chars generalizing starts with
  | nil => simp [noSlashLines]
  | cons c chars ih => rw [List.cons_append, noSlashLines, ih, Bool.and_false]

def NoSlashLine (text : String) : Prop :=
  noSlashLines true text.toList = true

namespace NoSlashLine

variable {text next : String}

theorem ofList {chars : List Char} (hChars : noSlashLines true chars = true) :
    NoSlashLine (String.ofList chars) := by
  rw [NoSlashLine, String.toList_ofList]
  exact hChars

/-- Lines of a joined text are lines of its parts, or start in the first and go on in the second. -/
theorem append (hText : NoSlashLine text) (hNext : NoSlashLine next) : NoSlashLine (text ++ next) := by
  rw [NoSlashLine, String.toList_append]
  exact noSlashLines_append hText hNext

theorem enclose {opening closing : List Char} (hText : NoSlashLine text)
    (hOpening : noSlashLines true opening = true) (hClosing : noSlashLines true closing = true) :
    NoSlashLine (String.ofList opening ++ text ++ String.ofList closing) :=
  ((ofList hOpening).append hText).append (ofList hClosing)

/-- The text stands on one line. -/
theorem of_line (hHead : text.toList.head? ≠ some '/') (hFeed : '\n' ∉ text.toList) : NoSlashLine text := by
  rw [NoSlashLine]
  cases hChars : text.toList with
  | nil => rfl
  | cons c rest =>
      rw [hChars] at hHead hFeed
      obtain ⟨hFirst, hRest⟩ := not_or.mp (mt List.mem_cons.mpr hFeed)
      have hSlash : (c == '/') = false := beq_false_of_ne fun hSame => hHead (congrArg some hSame)
      have hOther : (c == '\n') = false := beq_false_of_ne (Ne.symm hFirst)
      rw [noSlashLines, hSlash, hOther, noSlashLines_of_feed_notMem hRest]
      rfl

/-- Text of characters of one kind has no such line if neither a slash nor a line feed is of this kind. -/
theorem of_all {kind : Char → Bool} (hAll : text.toList.all kind = true) (hSlash : kind '/' = false)
    (hFeed : kind '\n' = false) : NoSlashLine text := by
  have hNot {c : Char} (hKind : kind c = false) : c ∉ text.toList := by
    intro hMem
    rw [List.all_eq_true.mp hAll c hMem] at hKind
    cases hKind
  exact of_line (fun hHead => hNot hSlash (List.mem_of_mem_head? hHead)) (hNot hFeed)

theorem intercalate {separator : String} (hSeparator : NoSlashLine separator) {texts : List String}
    (hTexts : ∀ text ∈ texts, NoSlashLine text) : NoSlashLine (separator.intercalate texts) := by
  induction texts with
  | nil => exact ofList rfl
  | cons text texts ih =>
      obtain ⟨hText, hFurther⟩ := List.forall_mem_cons.mp hTexts
      cases texts with
      | nil =>
          rw [String.intercalate_singleton]
          exact hText
      | cons next texts =>
          rw [String.intercalate_cons_cons]
          exact (hText.append hSeparator).append (ih hFurther)

end NoSlashLine

/-- A control character is written as the code of it, which is no line feed. -/
theorem feed_notMem_code : ∀ value < 0x20,
    '\n' ∉ ['\\', 'u', '0', '0', Text.hexDigit (value / 16), Text.hexDigit (value % 16)] := by
  decide

theorem notMem_ite {p : Prop} [Decidable p] {c : Char} {first second : List Char} (hFirst : c ∉ first)
    (hSecond : ¬ p → c ∉ second) : c ∉ if p then first else second := by
  by_cases hCase : p
  · rwa [if_pos hCase]
  · rw [if_neg hCase]
    exact hSecond hCase

/-- A line feed is always escaped. -/
theorem feed_notMem_escapeChar (c : Char) : '\n' ∉ Text.escapeChar c := by
  unfold Text.escapeChar
  refine notMem_ite (by decide) fun _ => notMem_ite (by decide) fun _ => notMem_ite (by decide) fun hFeed => ?_
  refine notMem_ite (by decide) fun _ => notMem_ite (by decide) fun _ => notMem_ite (by decide) fun _ => ?_
  refine notMem_ite (by decide) fun _ => ?_
  by_cases hControl : c.toNat < 0x20
  · rw [if_pos hControl]
    exact feed_notMem_code c.toNat hControl
  · rw [if_neg hControl]
    exact fun hMem => hFeed (List.mem_singleton.mp hMem).symm

/-- A quoted text is on one line, as line feeds in it are escaped, and starts with a quote. -/
theorem noSlashLine_quoted (text : String) : NoSlashLine (Text.quoted text) := by
  refine .of_line (by rw [head?_quoted]; decide) ?_
  rw [Text.quoted, String.toList_ofList]
  simp [feed_notMem_escapeChar]

theorem noSlashLine_commaList {texts : List String} (hTexts : ∀ text ∈ texts, NoSlashLine text) :
    NoSlashLine (commaList texts) :=
  .intercalate (.ofList rfl) hTexts

theorem noSlashLine_commaList_quoted (texts : List String) : NoSlashLine (commaList (texts.map Text.quoted)) :=
  noSlashLine_commaList (List.forall_mem_map.mpr fun text _ => noSlashLine_quoted text)

/-- Words have neither slashes nor line feeds. -/
theorem noSlashLine_word {name : String} (hWord : isWord name = true) : NoSlashLine name :=
  .of_all (all_continuesWord_of_isWord hWord) (by decide) (by decide)

/-- A key is a word or quoted. -/
theorem noSlashLine_fieldKey (name : String) : NoSlashLine (fieldKey name) := by
  unfold fieldKey
  split_ifs with hWord
  · exact noSlashLine_word hWord
  · exact noSlashLine_quoted name

theorem noSlashLine_indent (depth : Nat) : NoSlashLine (indent depth) := by
  have hBlanks : ((indent depth).toList.all fun c => c == ' ') = true := by simp [indent]
  exact .of_all hBlanks (by decide) (by decide)

theorem Literal.noSlashLine_code (literal : Literal) : NoSlashLine literal.code := by
  cases literal with
  | text value => exact noSlashLine_quoted value
  | number value => exact .of_all value.all_isNumberChar_literalText (by decide) (by decide)
  | bool value => cases value <;> exact .ofList rfl
  | null => exact .ofList rfl

namespace Schema

variable {defined : List String}

/-- A field starts with its indentation and key, and its expression holds no such line either. -/
theorem noSlashLine_fieldLines {depth : Nat} {fields : List (String × Schema)}
    (hFields : ∀ field ∈ fields, NoSlashLine (field.2.expression defined depth)) :
    NoSlashLine (fieldLines defined depth fields) := by
  induction fields with
  | nil => exact .ofList rfl
  | cons field fields ih =>
      obtain ⟨hField, hFurther⟩ := List.forall_mem_cons.mp hFields
      have hKey := (noSlashLine_indent depth).append (noSlashLine_fieldKey field.1)
      have hLine : NoSlashLine
          (indent depth ++ fieldKey field.1 ++ ": " ++ field.2.expression defined depth ++ ",\n") :=
        .append (.append (.append hKey (.ofList rfl)) hField) (.ofList rfl)
      exact hLine.append (ih hFurther)

theorem noSlashLine_expressions {depth : Nat} {schemas : List Schema}
    (hSchemas : ∀ schema ∈ schemas, NoSlashLine (schema.expression defined depth)) :
    NoSlashLine (commaList (expressions defined depth schemas)) := by
  rw [expressions_eq_map]
  exact noSlashLine_commaList (List.forall_mem_map.mpr hSchemas)

/-- The induction is over the parts of the schema. Only texts that the source gives could hold a slash, and these are
quoted. -/
theorem noSlashLine_expression {schema : Schema} (hWords : schema.RefersOnlyTo (isWord · = true)) (depth : Nat) :
    NoSlashLine (schema.expression defined depth) := by
  induction schema using induction_parts generalizing depth with
  | text required =>
      cases required with
      | none => exact .ofList rfl
      | some message =>
          have hMessage := noSlashLine_quoted message
          show NoSlashLine ("z.string(\x7b required_error: " ++ _ ++ " \x7d).min(1, " ++ _ ++ ")")
          exact ((hMessage.enclose rfl rfl).append hMessage).append (.ofList rfl)
  | number => exact .ofList rfl
  | boolean => exact .ofList rfl
  | dateTime => exact .ofList rfl
  | literal value =>
      show NoSlashLine ("z.literal(" ++ _ ++ ")")
      exact value.noSlashLine_code.enclose rfl rfl
  | enumeration values message =>
      have hValues := noSlashLine_commaList_quoted values
      show NoSlashLine ("z.enum([" ++ _ ++ "], \x7b errorMap: () => (\x7b message: " ++ _ ++ " \x7d) \x7d)")
      exact ((hValues.enclose rfl rfl).append (noSlashLine_quoted message)).append (.ofList rfl)
  | union options message ih =>
      have hOptions := noSlashLine_expressions fun option hMem =>
        ih option hMem (refersOnlyTo_union.mp hWords option hMem) depth
      show NoSlashLine ("z.union([" ++ _ ++
        "], \x7b errorMap: (issue, ctx) => (\x7b message: issue.code === 'invalid_union' ? " ++ _ ++
        " : ctx.defaultError \x7d) \x7d)")
      exact ((hOptions.enclose rfl rfl).append (noSlashLine_quoted message)).append (.ofList rfl)
  | array element ih =>
      show NoSlashLine ("z.array(" ++ _ ++ ")")
      exact (ih hWords depth).enclose rfl rfl
  | tuple items rest ihItems ihRest =>
      obtain ⟨hItemWords, hRestWords⟩ := refersOnlyTo_tuple.mp hWords
      have hItems := noSlashLine_expressions fun item hMem => ihItems item hMem (hItemWords item hMem) depth
      cases rest with
      | none =>
          show NoSlashLine ("z.tuple([" ++ _ ++ "])" ++ "")
          exact (hItems.enclose rfl rfl).append (.ofList rfl)
      | some schema =>
          show NoSlashLine ("z.tuple([" ++ _ ++ "])" ++ (".rest(" ++ _ ++ ")"))
          have hRest := ihRest schema rfl (hRestWords schema rfl) depth
          exact (hItems.enclose rfl rfl).append (hRest.enclose rfl rfl)
  | object fields strict ih =>
      have hFields := noSlashLine_fieldLines fun field hMem =>
        ih field hMem (refersOnlyTo_object.mp hWords field hMem) (depth + 1)
      have hBody : NoSlashLine
          (if fields.isEmpty then "" else "\n" ++ fieldLines defined (depth + 1) fields ++ indent depth) := by
        split_ifs
        · exact .ofList rfl
        · exact .append (.append (.ofList rfl) hFields) (noSlashLine_indent depth)
      show NoSlashLine ("z.object(\x7b" ++ _ ++ "\x7d)" ++ _)
      refine (hBody.enclose rfl rfl).append ?_
      split_ifs
      · exact .ofList rfl
      · exact .ofList rfl
  | record => exact .ofList rfl
  | optional inner ih =>
      show NoSlashLine (_ ++ ".optional()")
      exact (ih hWords depth).append (.ofList rfl)
  | reference name =>
      have hName := noSlashLine_word (isWord_constantName (hWords name (List.mem_singleton_self name)))
      by_cases hDefined : name ∈ defined
      · rw [expression_reference_of_mem hDefined]
        exact hName
      · rw [expression_reference_of_notMem hDefined]
        exact hName.enclose rfl rfl
  | any => exact .ofList rfl

end Schema

namespace Artifacts

/-- A definition starts with a keyword, and neither its name nor its expression holds such a line. -/
theorem noSlashLine_constantDefinitions {artifacts : Artifacts} (hNamed : artifacts.WellNamed) {names : List String}
    (hNames : names ⊆ artifacts.schemas.names) (defined : List String) :
    NoSlashLine (artifacts.constantDefinitions defined names) := by
  induction names generalizing defined with
  | nil => exact .ofList rfl
  | cons name names ih =>
      obtain ⟨hName, hFurther⟩ := List.cons_subset.mp hNames
      obtain ⟨schema, hFind⟩ := (artifacts.schemas.mem_names_iff_find? name).mp hName
      have hWords : schema.RefersOnlyTo (isWord · = true) := fun target hTarget =>
        hNamed.word target (hNamed.closed name schema hFind target hTarget)
      have hOpening : NoSlashLine (constantOpening (artifacts.isExported name)) := by
        unfold constantOpening
        split_ifs <;> exact .enclose (.ofList rfl) rfl rfl
      have hConstant := noSlashLine_word (isWord_constantName (hNamed.word name hName))
      have hExpression : NoSlashLine (schema.expression defined 0) := Schema.noSlashLine_expression hWords 0
      have hDefinition : NoSlashLine (artifacts.constantDefinition defined name) := by
        rw [constantDefinition_of_find? hFind]
        exact .append (.append (.append (hOpening.append hConstant) (.ofList rfl)) hExpression) (.ofList rfl)
      exact hDefinition.append (ih hFurther (name :: defined))

theorem noSlashLine_functionEnding : NoSlashLine functionEnding :=
  .append (.ofList rfl) <|
  .append (.ofList rfl) <|
  .append (.ofList rfl) <|
  .append (.ofList rfl) <|
  .append (.ofList rfl) <|
  .append (.ofList rfl) <|
  .append (.ofList rfl) <|
  .append (.ofList rfl) <|
  .append (.ofList rfl) <|
  .append (.ofList rfl) <|
  .ofList rfl

theorem noSlashLine_functionDefinition {name : String} (hWord : isWord name = true) :
    NoSlashLine (functionDefinition name) := by
  have hName := noSlashLine_word hWord
  have hConstant := noSlashLine_word (isWord_constantName hWord)
  rw [functionDefinition_eq]
  exact .append (.ofList rfl) (hName.append (.append (.ofList rfl) (.append (.ofList rfl) (hConstant.append
    (.append (.ofList rfl) noSlashLine_functionEnding)))))

/-- The lines of a map are those of its entries between two that are always the same. -/
theorem noSlashLine_mapDefinition {name : String} (hWord : isWord name = true) {lines : List String}
    (hLines : ∀ line ∈ lines, NoSlashLine line) : NoSlashLine (mapDefinition name lines) :=
  .append (.append ((noSlashLine_word hWord).enclose rfl rfl) (.intercalate (.ofList rfl) hLines)) (.ofList rfl)

theorem noSlashLine_validatorLine {entry : String × String} (hWord : isWord entry.2 = true) :
    NoSlashLine (validatorLine entry) := by
  have hKey := (noSlashLine_indent 1).append (noSlashLine_quoted entry.1)
  exact .append (.append (.append hKey (.ofList rfl)) (noSlashLine_word hWord)) (.ofList rfl)

theorem noSlashLine_readonlyLine (entry : String × List String) : NoSlashLine (readonlyLine entry) := by
  have hKey := (noSlashLine_indent 1).append (noSlashLine_quoted entry.1)
  exact .append (.append (.append hKey (.ofList rfl)) (noSlashLine_commaList_quoted entry.2)) (.ofList rfl)

/-- Below the comments at its head no line of a module starts with a slash. -/
theorem WellNamed.noSlashLine_definitionsText {artifacts : Artifacts} (hNamed : artifacts.WellNamed) :
    NoSlashLine artifacts.definitionsText := by
  have hWord {declaration : Declaration} (hMem : declaration ∈ artifacts.catalog.exported) :
      isWord declaration.name = true :=
    hNamed.word _ (hNamed.exported declaration hMem).1
  have hConstants := noSlashLine_constantDefinitions hNamed artifacts.schemas.dependencyOrder_subset_names []
  have hFunctions : NoSlashLine
      ("".intercalate (artifacts.catalog.exported.map fun declaration => functionDefinition declaration.name)) :=
    .intercalate (.ofList rfl)
      (List.forall_mem_map.mpr fun declaration hMem => noSlashLine_functionDefinition (hWord hMem))
  have hValidators : NoSlashLine (mapDefinition "validators" (artifacts.validators.entries.map validatorLine)) := by
    refine noSlashLine_mapDefinition (by decide) (List.forall_mem_map.mpr fun entry hMem => ?_)
    obtain ⟨declaration, hExported, hName⟩ := hNamed.served entry hMem
    exact noSlashLine_validatorLine (hName ▸ hWord hExported)
  have hReadonly : NoSlashLine (mapDefinition "readonlyProperties" (artifacts.readonly.entries.map readonlyLine)) :=
    noSlashLine_mapDefinition (by decide) (List.forall_mem_map.mpr fun entry _ => noSlashLine_readonlyLine entry)
  exact hConstants.append (hFunctions.append (hValidators.append hReadonly))

end Artifacts

section Heading

/-- The text ends the name of a source: its second line starts with a slash, as no line after that does. -/
def EndsLabel (rest : List Char) : Prop :=
  ∃ behind, rest = '\n' :: '/' :: behind ∧ noSlashLines false ('/' :: behind) = true

/-- A line that starts with a slash ends a label, if no line below does. -/
theorem NoSlashLine.endsLabel {below : String} (hBelow : NoSlashLine below) {chars : List Char}
    (hChars : noSlashLines false ('/' :: chars) = true) : EndsLabel ('\n' :: ('/' :: chars ++ below.toList)) :=
  ⟨chars ++ below.toList, rfl, noSlashLines_append hChars hBelow⟩

/-- Two ends of one text that both end a label are the same: the line with the slash is the last such line in both. -/
theorem EndsLabel.eq_nil {more rest : List Char} (hBefore : EndsLabel (more ++ rest)) (hRest : EndsLabel rest) :
    more = [] := by
  obtain ⟨before, hChars, hLater⟩ := hBefore
  obtain ⟨behind, rfl, -⟩ := hRest
  cases more with
  | nil => rfl
  | cons c more =>
      have hSplit : '/' :: before = more ++ '\n' :: '/' :: behind := (List.cons.inj hChars).2.symm
      rw [hSplit, noSlashLines_eq_false] at hLater
      cases hLater

/-- The label may hold anything, even line feeds and slashes. It is recovered from its end. -/
theorem readsBack_label (label label' : String) : ReadsBack EndsLabel label label' (label = label') := by
  have hLonger {label label' : String} {more rest rest' : List Char} (hRest : EndsLabel rest) (hRest' : EndsLabel rest')
      (hLabel : label'.toList = label.toList ++ more) (hBehind : rest = more ++ rest') :
      label = label' ∧ rest = rest' := by
    obtain rfl : more = [] := (hBehind ▸ hRest).eq_nil hRest'
    exact ⟨String.toList_inj.mp (by simpa using hLabel.symm), hBehind⟩
  intro rest rest' hRest hRest' hSame
  rcases List.append_eq_append_iff.mp hSame with ⟨more, hLabel, hBehind⟩ | ⟨more, hLabel, hBehind⟩
  · exact hLonger hRest hRest' hLabel hBehind
  · obtain ⟨hFound, hFurther⟩ := hLonger hRest' hRest hLabel hBehind
    exact ⟨hFound.symm, hFurther.symm⟩

namespace Artifacts

def belowLabel (artifacts : Artifacts) : String :=
  "\n" ++ ("// Do not edit manually\n\n" ++ ("import \x7b z \x7d from 'zod';\n" ++ artifacts.definitionsText))

/-- The name of the source stands in the first line, between texts that are the same in all modules of these
schemas. -/
theorem moduleText_eq_label (artifacts : Artifacts) (label : String) :
    artifacts.moduleText label = "// Auto-generated by typeshape from " ++ label ++ artifacts.belowLabel := by
  rw [moduleText_eq]
  delta moduleHeader belowLabel
  simp only [String.append_assoc]

/-- The second comment line is the last line of a module that starts with a slash. -/
theorem WellNamed.endsLabel {artifacts : Artifacts} (hNamed : artifacts.WellNamed) :
    EndsLabel artifacts.belowLabel.toList := by
  have hBelow : NoSlashLine ("import \x7b z \x7d from 'zod';\n" ++ artifacts.definitionsText) :=
    .append (.ofList rfl) hNamed.noSlashLine_definitionsText
  have hFirst : "\n".toList = ['\n'] := rfl
  have hSecond : "// Do not edit manually\n\n".toList = '/' :: "/ Do not edit manually\n\n".toList := rfl
  rw [belowLabel, String.toList_append, String.toList_append, hFirst, hSecond]
  exact hBelow.endsLabel rfl

/-- The name of the source ends where the heading goes on, so the definitions are known from the text. -/
theorem WellNamed.definitionsText_eq_of_moduleText_eq {old new : Artifacts} (hOld : old.WellNamed)
    (hNew : new.WellNamed) {label label' : String} (hSame : old.moduleText label = new.moduleText label') :
    old.definitionsText = new.definitionsText := by
  have hLabel : ReadsBack EndsLabel _ _ (label = label') :=
    (readsBack_label label label').after "// Auto-generated by typeshape from "
  have hTexts : ("// Auto-generated by typeshape from " ++ label).toList ++ old.belowLabel.toList =
      ("// Auto-generated by typeshape from " ++ label').toList ++ new.belowLabel.toList := by
    rw [← String.toList_append, ← String.toList_append, ← moduleText_eq_label, ← moduleText_eq_label, hSame]
  obtain ⟨-, hBehind⟩ := hLabel _ _ hOld.endsLabel hNew.endsLabel hTexts
  simpa only [belowLabel, String.append_right_inj] using String.toList_inj.mp hBehind

/-- The text of a module tells its schemas, whatever the source is called. -/
theorem WellNamed.find?_eq_of_moduleText_eq {old new : Artifacts} (hOld : old.WellNamed) (hNew : new.WellNamed)
    (hNumbers : Binary64.WrittenApart old.schemas.numbers new.schemas.numbers)
    {label label' : String} (hSame : old.moduleText label = new.moduleText label') (name : String) :
    old.schemas.find? name = new.schemas.find? name :=
  hOld.find?_eq_of_definitionsText_eq hNew hNumbers (hOld.definitionsText_eq_of_moduleText_eq hNew hSame) name

end Artifacts

end Heading

end Lines

end SchemaForge
