import SchemaForge.Emission.Module
import SchemaForge.Proofs.ModuleTokens

/-! The parts of an emitted module as texts: constants, functions, the two maps and the line that names the
source. Each is cut into its tokens whatever follows it, so the definitions of a module are those of its
parts. -/
namespace SchemaForge

open Lexeme

section Texts

variable {name : String}

theorem isWord_validate (hWord : isWord name = true) : isWord ("validate" ++ name) = true :=
  isWord_append (by decide) (all_continuesWord_of_isWord hWord)

/-- A word before a fixed text that does not go on with it. -/
theorem cuts_word {word : String} {chars : List Char} {kinds : List TokenKind} (hWord : isWord word = true)
    (hEnds : endsApart chars = true := by decide) (hStops : stopsWord chars = true := by rfl)
    (hKinds : kindsOf chars = kinds := by rfl) :
    Cuts (word ++ String.ofList chars) (.word word :: kinds) := by
  have hCuts := (wordApart_of_isOneWord hWord).append_ofList hEnds hStops hKinds
  rwa [kindsOf_isOneWord hWord] at hCuts

/-- The definition of a constant is cut into its words, the tokens of the expression and a semicolon. -/
theorem cuts_constantDefinition (artifacts : Artifacts) {defined : List String} {known : String → Prop}
    {schema : Schema} (hFind : artifacts.schemas.find? name = some schema) (hWord : isWord name = true)
    (hCode : IsCode defined known (schema.expression defined 0)) :
    Cuts (artifacts.constantDefinition defined name) (constantKinds (artifacts.isExported name) (constantName name)
      (kindsOf (schema.expression defined 0).toList)) := by
  have hMarked : Cuts ("\n" ++ if artifacts.isExported name then "export " else "")
      (if artifacts.isExported name then [.word "export"] else []) := by
    have hLine : Cuts "\n" [] := cuts_ofList
    split
    · exact hLine.append cuts_ofList
    · exact hLine.append cuts_empty
  have hStart : Cuts "const " [.word "const"] := cuts_ofList
  have hName : Cuts (constantName name ++ " = ") [.word (constantName name), .mark .equals] :=
    cuts_word (isWord_constantName hWord)
  have hValue : Cuts (schema.expression defined 0 ++ ";\n")
      (kindsOf (schema.expression defined 0).toList ++ [.mark .semicolon]) := hCode.apart.append_ofList
  have hAll := ((hMarked.append hStart).append hName).append hValue
  simp only [Artifacts.constantDefinition, hFind]
  simpa only [constantKinds, String.append_assoc, List.append_assoc, List.cons_append, List.nil_append] using hAll

/-- The text is cut into tokens that define nothing. -/
def CutsQuietly (text : String) : Prop :=
  ∃ kinds, (∀ kind ∈ kinds, kind.isDefining = false) ∧ Cuts text kinds

/-- Texts that define nothing define nothing one after the other. -/
theorem CutsQuietly.append {first second : String} (hFirst : CutsQuietly first) (hSecond : CutsQuietly second) :
    CutsQuietly (first ++ second) := by
  obtain ⟨firstKinds, hFirstKinds, hFirst⟩ := hFirst
  obtain ⟨secondKinds, hSecondKinds, hSecond⟩ := hSecond
  exact ⟨_, List.forall_mem_append.mpr ⟨hFirstKinds, hSecondKinds⟩, hFirst.append hSecond⟩

theorem cutsQuietly_ofList {chars : List Char} (hEnds : endsApart chars = true := by decide)
    (hKinds : ∀ kind ∈ kindsOf chars, kind.isDefining = false := by decide) : CutsQuietly (String.ofList chars) :=
  ⟨_, hKinds, cuts_ofList hEnds rfl⟩

def functionEnding : String :=
  "  if (result.success) \x7b\n" ++
  ("    return \x7b valid: true, data: result.data \x7d;\n" ++
  ("  \x7d\n" ++
  ("  return \x7b\n" ++
  ("    valid: false,\n" ++
  ("    errors: result.error.errors.map((err) => (\x7b\n" ++
  ("      field: err.path.join('.'),\n" ++
  ("      message: err.message,\n" ++
  ("    \x7d)),\n" ++
  ("  \x7d;\n" ++
  "\x7d\n")))))))))

theorem cutsQuietly_functionEnding : CutsQuietly functionEnding :=
  .append cutsQuietly_ofList <|
  .append cutsQuietly_ofList <|
  .append cutsQuietly_ofList <|
  .append cutsQuietly_ofList <|
  .append cutsQuietly_ofList <|
  .append cutsQuietly_ofList <|
  .append cutsQuietly_ofList <|
  .append cutsQuietly_ofList <|
  .append cutsQuietly_ofList <|
  .append cutsQuietly_ofList <|
  cutsQuietly_ofList

/-- All functions have the same ending, which defines nothing. -/
theorem exists_cuts_functionDefinition : ∃ ending, (∀ kind ∈ ending, kind.isDefining = false) ∧
    ∀ name, isWord name = true → Cuts (Artifacts.functionDefinition name) (functionKinds name ending) := by
  obtain ⟨ending, hKinds, hEnding⟩ := cutsQuietly_functionEnding
  refine ⟨ending, hKinds, fun name hWord => ?_⟩
  have hStart : Cuts "\nexport function " [.word "export", .word "function"] := cuts_ofList
  have hName : Cuts ("validate" ++ name ++ "(data) \x7b\n") [.word ("validate" ++ name), .mark .openParen,
      .word "data", .mark .closeParen, .mark .openBrace] :=
    cuts_word (isWord_validate hWord)
  have hResult : Cuts "  const result = " [.word "const", .word "result", .mark .equals] := cuts_ofList
  have hCheck : Cuts (constantName name ++ ".safeParse(data);\n") (checkKinds name ++ [.mark .semicolon]) :=
    cuts_word (isWord_constantName hWord)
  have hAll := (((hStart.append hName).append hResult).append hCheck).append hEnding
  have hText : Artifacts.functionDefinition name = "\nexport function " ++ ("validate" ++ name ++ "(data) \x7b\n") ++
      "  const result = " ++ (constantName name ++ ".safeParse(data);\n") ++ functionEnding := by
    delta Artifacts.functionDefinition functionEnding
    rw [show "\nexport function validate" = "\nexport function " ++ "validate" by decide]
    simp only [String.append_assoc]
  rw [hText]
  simpa only [functionKinds, validatorOpening, List.append_assoc, List.cons_append, List.nil_append] using hAll

/-- A line comment is passed over. -/
theorem cuts_lineComment {chars : List Char} {text : String} (hChars : '\n' ∉ chars) (hText : '\n' ∉ text.toList) :
    Cuts (String.ofList ('/' :: '/' :: chars) ++ text ++ "\n") [] := by
  intro rest
  have hLine : (chars ++ text.toList ++ '\n' :: rest).takeWhile (· ≠ '\n') = chars ++ text.toList := by
    rw [List.takeWhile_append_of_pos]
    · simp
    · intro c hMem
      apply decide_eq_true
      rintro rfl
      exact (List.mem_append.mp hMem).elim hChars hText
  have hRead : read '/' (('/' :: (chars ++ text.toList)) ++ '\n' :: rest) =
      ⟨'/' :: '/' :: (chars ++ text.toList), none⟩ := by
    rw [List.cons_append, show read '/' = ofSlash from rfl, ofSlash, hLine]
  have hFeed : Text.isBlank '\n' = true := by decide
  have hKinds := (kindsOf_of_read hRead).trans (kindsOf_blank hFeed rest)
  simpa [String.toList_append] using hKinds

/-- The lines of a map are cut one by one. The induction is over them. -/
theorem cuts_lines {α : Type} {text : α → String} {line : α → List TokenKind} {entries : List α}
    (hLines : ∀ entry ∈ entries, Cuts (text entry) (line entry)) :
    Cuts ("".intercalate (entries.map text)) (entries.map line).flatten := by
  induction entries with
  | nil => exact cuts_empty
  | cons first entries ih =>
      obtain ⟨hFirst, hFurther⟩ := List.forall_mem_cons.mp hLines
      cases entries with
      | nil => simpa using hFirst
      | cons second entries => simpa [String.intercalate_cons_cons] using hFirst.append (ih hFurther)

/-- A map is an exported constant whose value is enclosed in braces. -/
theorem cuts_mapDefinition (hWord : isWord name = true) {α : Type} {text : α → String} {line : α → List TokenKind}
    {entries : List α} (hLines : ∀ entry ∈ entries, Cuts (text entry) (line entry)) :
    Cuts (Artifacts.mapDefinition name (entries.map text)) (constantKinds true name (mapValue (entries.map line))) := by
  have hStart : Cuts "\nexport const " [.word "export", .word "const"] := cuts_ofList
  have hName : Cuts (name ++ " = \x7b\n") [.word name, .mark .equals, .mark .openBrace] := cuts_word hWord
  have hEnd : Cuts "\x7d;\n" [.mark .closeBrace, .mark .semicolon] := cuts_ofList
  have hAll := ((hStart.append hName).append (cuts_lines hLines)).append hEnd
  delta Artifacts.mapDefinition
  simpa only [constantKinds, mapValue, String.append_assoc, List.append_assoc,
    List.cons_append, List.nil_append, if_true] using hAll

theorem cuts_validatorLine {entry : String × String} (hWord : isWord entry.2 = true) :
    Cuts (Artifacts.validatorLine entry) (validatorLineKinds entry) := by
  have hColon : Cuts ": " [.mark .colon] := cuts_ofList
  have hFunction : Cuts ("validate" ++ entry.2 ++ ",\n") [.word ("validate" ++ entry.2), .mark .comma] :=
    cuts_word (isWord_validate hWord)
  have hAll := (((cuts_indent 1).append (cuts_quoted entry.1)).append hColon).append hFunction
  rw [Artifacts.validatorLine, show ": validate" = ": " ++ "validate" by decide]
  simpa only [validatorLineKinds, String.append_assoc, List.cons_append, List.nil_append] using hAll

/-- Quoted names with commas between them, of which there may be none. -/
theorem cuts_nameList (names : List String) : Cuts (commaList (names.map Text.quoted)) (nameListKinds names) := by
  have hComma : Cuts ", " [.mark .comma] := cuts_ofList
  fun_induction nameListKinds names with
  | case1 => exact cuts_empty
  | case2 name => exact cuts_quoted name
  | case3 name further names ih =>
      have hAll := ((cuts_quoted name).append hComma).append ih
      simpa only [commaList, List.map_cons, String.intercalate_cons_cons, List.cons_append, List.nil_append] using hAll

/-- The key of the type is quoted, and so are the names of its properties. -/
theorem cuts_readonlyLine (entry : String × List String) :
    Cuts (Artifacts.readonlyLine entry) (readonlyLineKinds entry) := by
  have hOpen : Cuts ": [" [.mark .colon, .mark .openBracket] := cuts_ofList
  have hClose : Cuts "],\n" [.mark .closeBracket, .mark .comma] := cuts_ofList
  have hAll := ((((cuts_indent 1).append (cuts_quoted entry.1)).append hOpen).append
    (cuts_nameList entry.2)).append hClose
  simpa only [Artifacts.readonlyLine, readonlyLineKinds, List.cons_append, List.nil_append] using hAll

end Texts

/-- The text is cut into tokens in which these definitions are found, whatever follows it. -/
def Emits (text : String) (constants : List ConstantText) (functions : List FunctionText)
    (exports : List String) : Prop :=
  ∃ kinds, Cuts text kinds ∧ ReadsAs kinds constants functions exports

/-- Definitions are found one after the other, since no text depends on what follows it. -/
theorem Emits.append {first second : String} {firstConstants secondConstants : List ConstantText}
    {firstFunctions secondFunctions : List FunctionText} {firstExports secondExports : List String}
    (hFirst : Emits first firstConstants firstFunctions firstExports)
    (hSecond : Emits second secondConstants secondFunctions secondExports) :
    Emits (first ++ second) (firstConstants ++ secondConstants) (firstFunctions ++ secondFunctions)
      (firstExports ++ secondExports) := by
  obtain ⟨firstKinds, hFirstCuts, hFirstReads⟩ := hFirst
  obtain ⟨secondKinds, hSecondCuts, hSecondReads⟩ := hSecond
  exact ⟨_, hFirstCuts.append hSecondCuts, hFirstReads.append hSecondReads⟩

theorem emits_empty : Emits "" [] [] [] :=
  ⟨[], cuts_empty, readsAs_nil⟩

end SchemaForge
