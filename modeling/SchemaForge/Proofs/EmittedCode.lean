import SchemaForge.Emission.Expression
import SchemaForge.Proofs.ReportedViolations
import SchemaForge.Proofs.WrittenLiterals

/-! The expression of a schema, token by token. Apart from keys of fields it holds only the words of the
library, constants of names that are defined before, and constants behind an opening that postpones their
use. Texts between quotes are single tokens, so nothing that is written in them counts. -/
namespace SchemaForge

open Lexeme

def definingWords : List String :=
  ["export", "const", "function"]

/-- The token neither defines a name nor ends a definition, and it is not the constant of a schema. -/
def TokenKind.isPlain : TokenKind → Bool
  | .word name => decide (name ∉ definingWords) && !"Schema".toList.isSuffixOf name.toList
  | .mark sign => decide (sign ≠ .semicolon)
  | _ => true

def lazyOpening : List TokenKind :=
  [.word "z", .mark .dot, .word "lazy", .mark .openParen, .mark .openParen, .mark .closeParen, .mark .arrow]

/-- Code in which constants of schemas are used at once only for the names given first. -/
inductive Code (defined : List String) (known : String → Prop) : List TokenKind → Prop
  | nil : Code defined known []
  | plain {kind : TokenKind} {kinds : List TokenKind} (hPlain : kind.isPlain = true)
      (rest : Code defined known kinds) : Code defined known (kind :: kinds)
  | key {kinds : List TokenKind} (name : String) (rest : Code defined known kinds) :
      Code defined known (.word name :: .mark .colon :: kinds)
  | eager {name : String} {kinds : List TokenKind} (hDefined : name ∈ defined) (rest : Code defined known kinds) :
      Code defined known (.word (constantName name) :: kinds)
  | postponed {name : String} {kinds : List TokenKind} (hKnown : known name) (rest : Code defined known kinds) :
      Code defined known (lazyOpening ++ .word (constantName name) :: kinds)

/-- Constants of different schemas have different names, since the ending is the same for all. -/
theorem constantName_injective : Function.Injective constantName := by
  intro first second hSame
  rw [constantName, constantName, ← String.toList_inj, String.toList_append, String.toList_append] at hSame
  exact String.toList_inj.mp (List.append_cancel_right hSame)

/-- The ending of the names of constants, by which they are recognized among the words. -/
theorem isSuffixOf_constantName (name : String) :
    "Schema".toList.isSuffixOf (constantName name).toList = true := by
  rw [List.isSuffixOf_iff_suffix, constantName, String.toList_append]
  exact List.suffix_append _ _

/-- A word with another ending is not the name of a constant. -/
theorem constantName_ne {word : String} (hWord : "Schema".toList.isSuffixOf word.toList = false) (name : String) :
    constantName name ≠ word := by
  rintro rfl
  rw [isSuffixOf_constantName] at hWord
  cases hWord

theorem isPlain_constantName (name : String) : (TokenKind.word (constantName name)).isPlain = false := by
  simp only [TokenKind.isPlain, isSuffixOf_constantName, Bool.not_true, Bool.and_false]

theorem isPlain_lazyOpening : ∀ kind ∈ lazyOpening, kind.isPlain = true := by
  decide

namespace Code

variable {defined : List String} {known : String → Prop} {first second kinds : List TokenKind}

theorem of_isPlain (hPlain : ∀ kind ∈ kinds, kind.isPlain = true) : Code defined known kinds := by
  induction kinds with
  | nil => exact .nil
  | cons kind kinds ih =>
      obtain ⟨hFirst, hFurther⟩ := List.forall_mem_cons.mp hPlain
      exact .plain hFirst (ih hFurther)

/-- Code behind code is code: what has to stand before a constant is found before it still. -/
theorem append (hFirst : Code defined known first) (hSecond : Code defined known second) :
    Code defined known (first ++ second) := by
  induction hFirst with
  | nil => exact hSecond
  | plain hPlain _ ih => exact .plain hPlain ih
  | key name _ ih => exact .key name ih
  | eager hDefined _ ih => exact .eager hDefined ih
  | postponed hKnown _ ih =>
      rw [List.append_assoc]
      exact .postponed hKnown ih

/-- No token of code ends a definition. -/
theorem ne_semicolon (hCode : Code defined known kinds) : ∀ kind ∈ kinds, kind ≠ .mark .semicolon := by
  have hPlain {kind : TokenKind} (hPlain : kind.isPlain = true) : kind ≠ .mark .semicolon := by
    rintro rfl
    cases hPlain
  induction hCode with
  | nil => simp
  | plain hFirst _ ih => exact List.forall_mem_cons.mpr ⟨hPlain hFirst, ih⟩
  | key name _ ih => simpa using ih
  | eager hDefined _ ih => simpa using ih
  | postponed hKnown _ ih =>
      refine List.forall_mem_append.mpr ⟨fun kind hMem => hPlain (isPlain_lazyOpening kind hMem), ?_⟩
      simpa using ih

/-- The constant of a schema between two pieces of code is the key of a field, or that of a defined name, or
its use is postponed. -/
def Permits (defined : List String) (known : String → Prop) (name : String) (before after : List TokenKind) :
    Prop :=
  after.head? = some (.mark .colon) ∨ name ∈ defined ∨ (lazyOpening <:+ before ∧ known name)

/-- What permits the use of a constant is never lost by more code in front. -/
theorem Permits.of_suffix {name : String} {shorter before after : List TokenKind}
    (hPermits : Permits defined known name shorter after) (hSuffix : shorter <:+ before) :
    Permits defined known name before after :=
  hPermits.imp_right (Or.imp_right (And.imp_left fun hOpening => hOpening.trans hSuffix))

/-- The induction follows how the code was put together. Wherever a constant is used, there is a reason why it may
be. -/
theorem permits_of_eq_append (hCode : Code defined known kinds) {before after : List TokenKind} {name : String}
    (hSplit : kinds = before ++ .word (constantName name) :: after) : Permits defined known name before after := by
  induction hCode generalizing before with
  | nil => simp at hSplit
  | plain hPlain _ ih =>
      cases before with
      | nil =>
          obtain ⟨rfl, -⟩ := List.cons.inj hSplit
          rw [isPlain_constantName] at hPlain
          cases hPlain
      | cons kind before => exact (ih (List.cons.inj hSplit).2).of_suffix (List.suffix_cons _ _)
  | key field _ ih =>
      rcases before with _ | ⟨_, _ | ⟨_, before⟩⟩
      · obtain ⟨-, rfl⟩ := List.cons.inj hSplit
        exact Or.inl rfl
      · simp at hSplit
      · simp only [List.cons_append, List.cons.injEq] at hSplit
        exact (ih hSplit.2.2).of_suffix ((List.suffix_cons _ _).trans (List.suffix_cons _ _))
  | eager hDefined _ ih =>
      cases before with
      | nil =>
          obtain ⟨hWord, -⟩ := List.cons.inj hSplit
          rw [constantName_injective (TokenKind.word.inj hWord)] at hDefined
          exact Or.inr (Or.inl hDefined)
      | cons kind before => exact (ih (List.cons.inj hSplit).2).of_suffix (List.suffix_cons _ _)
  | postponed hKnown _ ih =>
      rcases List.append_eq_append_iff.mp hSplit with ⟨between, rfl, hBehind⟩ | ⟨between, hOpening, hBehind⟩
      · cases between with
        | nil =>
            obtain ⟨hWord, -⟩ := List.cons.inj hBehind
            rw [constantName_injective (TokenKind.word.inj hWord)] at hKnown
            exact Or.inr (Or.inr ⟨by simp, hKnown⟩)
        | cons kind between =>
            exact (ih (List.cons.inj hBehind).2).of_suffix ⟨lazyOpening ++ [kind], by simp⟩
      · cases between with
        | nil =>
            obtain ⟨hWord, -⟩ := List.cons.inj hBehind
            rw [← constantName_injective (TokenKind.word.inj hWord)] at hKnown
            exact Or.inr (Or.inr ⟨by simp [hOpening], hKnown⟩)
        | cons kind between =>
            -- The opening itself holds no constant.
            obtain ⟨rfl, -⟩ := List.cons.inj hBehind
            have hPlain := isPlain_lazyOpening (.word (constantName name)) (by rw [hOpening]; simp)
            rw [isPlain_constantName] at hPlain
            cases hPlain

end Code

/-- The text is code for itself, up to a word at its end. -/
structure IsCode (defined : List String) (known : String → Prop) (text : String) : Prop where
  apart : WordApart text
  code : Code defined known (kindsOf text.toList)

/-- The text is code whatever follows it. -/
structure IsClosedCode (defined : List String) (known : String → Prop) (text : String) : Prop where
  apart : Apart text
  code : Code defined known (kindsOf text.toList)

/-- The text is cut into plain tokens and ends apart. -/
def isPlainText (chars : List Char) : Bool :=
  endsApart chars && (kindsOf chars).all TokenKind.isPlain

section Texts

variable {defined : List String} {known : String → Prop} {first second text : String} {chars : List Char}

/-- Code that may be followed by anything may be followed by nothing. -/
theorem IsClosedCode.isCode (hCode : IsClosedCode defined known text) : IsCode defined known text where
  apart := hCode.apart.wordApart
  code := hCode.code

/-- A text that is known to be cut into the tokens of some code. -/
theorem isClosedCode_of_cuts {kinds : List TokenKind} (hCuts : Cuts text kinds) (hCode : Code defined known kinds) :
    IsClosedCode defined known text where
  apart := hCuts.apart
  code := hCuts.kindsOf_eq ▸ hCode

theorem isClosedCode_empty : IsClosedCode defined known "" :=
  isClosedCode_of_cuts cuts_empty .nil

theorem isClosedCode_ofList (hPlain : isPlainText chars = true := by decide) :
    IsClosedCode defined known (String.ofList chars) := by
  obtain ⟨hEnds, hKinds⟩ := Bool.and_eq_true_iff.mp hPlain
  exact isClosedCode_of_cuts (cuts_ofList hEnds rfl) (.of_isPlain (List.all_eq_true.mp hKinds))

/-- Texts that end apart are cut one after the other. -/
theorem IsClosedCode.append (hFirst : IsClosedCode defined known first)
    (hSecond : IsClosedCode defined known second) : IsClosedCode defined known (first ++ second) where
  apart := hFirst.apart.append hSecond.apart
  code := hFirst.apart.kindsOf_append second ▸ hFirst.code.append hSecond.code

theorem IsClosedCode.append_isCode (hFirst : IsClosedCode defined known first)
    (hSecond : IsCode defined known second) : IsCode defined known (first ++ second) where
  apart := hFirst.apart.append_wordApart hSecond.apart
  code := hFirst.apart.kindsOf_append second ▸ hFirst.code.append hSecond.code

/-- Text that ends with a word is closed by a mark behind it. -/
theorem IsCode.close (hCode : IsCode defined known text) (hPlain : isPlainText chars = true := by decide)
    (hStops : stopsWord chars = true := by rfl) : IsClosedCode defined known (text ++ String.ofList chars) := by
  obtain ⟨hEnds, hKinds⟩ := Bool.and_eq_true_iff.mp hPlain
  exact isClosedCode_of_cuts (hCode.apart.append_ofList hEnds hStops rfl)
    (hCode.code.append (.of_isPlain (List.all_eq_true.mp hKinds)))

/-- Code between fixed texts. -/
theorem IsCode.enclose (hCode : IsCode defined known text) {opening closing : List Char}
    (hOpening : isPlainText opening = true := by decide) (hClosing : isPlainText closing = true := by decide)
    (hStops : stopsWord closing = true := by rfl) :
    IsClosedCode defined known (String.ofList opening ++ text ++ String.ofList closing) :=
  ((isClosedCode_ofList hOpening).append_isCode hCode).close hClosing hStops

/-- Items with commas between them; the last may end with a word. -/
theorem isCode_commaList {texts : List String} (hTexts : ∀ text ∈ texts, IsCode defined known text) :
    IsCode defined known (commaList texts) := by
  unfold commaList
  induction texts with
  | nil => exact isClosedCode_empty.isCode
  | cons first texts ih =>
      obtain ⟨hFirst, hFurther⟩ := List.forall_mem_cons.mp hTexts
      cases texts with
      | nil =>
          rw [String.intercalate_singleton]
          exact hFirst
      | cons second texts =>
          rw [String.intercalate_cons_cons]
          exact (hFirst.close).append_isCode (ih hFurther)

/-- A quoted text is a single token, which holds no name. -/
theorem isClosedCode_quoted (text : String) : IsClosedCode defined known (Text.quoted text) :=
  isClosedCode_of_cuts (cuts_quoted text) (.plain rfl .nil)

theorem cuts_indent (depth : Nat) : Cuts (indent depth) [] := by
  intro rest
  rw [indent, String.toList_ofList]
  refine kindsOf_blanks (fun c hMem => ?_) rest
  rw [List.eq_of_mem_replicate hMem]
  decide

/-- Numbers and texts define nothing and name no constant. -/
theorem isPlain_of_isLiteralKind {kind : TokenKind} (hLiteral : isLiteralKind kind = true) :
    kind.isPlain = true := by
  cases kind with
  | word name =>
      have hNames : ∀ name ∈ ["true", "false", "null", "NaN", "inf"], (TokenKind.word name).isPlain = true := by
        decide
      exact hNames name (of_decide_eq_true hLiteral)
  | mark sign =>
      obtain rfl : sign = .minus := of_decide_eq_true hLiteral
      rfl
  | text value => rfl
  | number value => rfl
  | other c => rfl
  | template => rfl

/-- A literal is a few plain tokens, and the parenthesis behind it ends the last of them. -/
theorem isClosedCode_literal (value : Literal) : IsClosedCode defined known (value.code ++ ")") := by
  obtain ⟨kinds, hKinds, hSpells⟩ := value.spellsLiteral_code
  have hCuts : Cuts (value.code ++ ")") (kinds ++ [.mark .closeParen]) := by
    intro rest
    rw [String.toList_append, List.append_assoc, List.append_assoc]
    exact (hSpells _ rfl).trans (congrArg _ (kindsOf_mark rfl rest))
  apply isClosedCode_of_cuts hCuts
  exact (Code.of_isPlain fun kind hMem => isPlain_of_isLiteralKind (hKinds kind hMem)).append (.plain rfl .nil)

theorem continuesWord_of_startsWord {c : Char} (hStart : startsWord c = true) : continuesWord c = true := by
  simp only [startsWord, continuesWord, Text.isLetterOrNumeral, Bool.or_eq_true] at hStart ⊢
  tauto

theorem all_continuesWord_of_isWord {name : String} (hWord : isWord name = true) :
    name.toList.all continuesWord = true := by
  unfold isWord at hWord
  cases hChars : name.toList with
  | nil => rfl
  | cons c chars =>
      rw [hChars] at hWord
      obtain ⟨hFirst, hFurther⟩ := Bool.and_eq_true_iff.mp hWord
      rw [List.all_cons, continuesWord_of_startsWord hFirst, hFurther]
      rfl

/-- A word with further characters of words behind it is a word. -/
theorem isWord_append {name : String} (hWord : isWord name = true) {ending : String}
    (hEnding : ending.toList.all continuesWord = true) : isWord (name ++ ending) = true := by
  unfold isWord at hWord ⊢
  rw [String.toList_append]
  cases hChars : name.toList with
  | nil => simp [hChars] at hWord
  | cons c chars =>
      rw [hChars] at hWord
      simp only [List.cons_append, List.all_append, hEnding, Bool.and_true]
      exact hWord

/-- The ending of a constant continues a word, so the whole name is one token. -/
theorem isWord_constantName {name : String} (hWord : isWord name = true) : isWord (constantName name) = true :=
  isWord_append hWord (by decide)

/-- A constant that is defined before may be used at once. -/
theorem isCode_eager {name : String} (hWord : isWord name = true) (hDefined : name ∈ defined) :
    IsCode defined known (constantName name) where
  apart := wordApart_of_isOneWord (isWord_constantName hWord)
  code := kindsOf_isOneWord (isWord_constantName hWord) ▸ .eager hDefined .nil

theorem kindsOf_lazyOpening : kindsOf "z.lazy(() => ".toList = lazyOpening := by
  rw [show "z.lazy(() => ".toList = _ from String.toList_ofList]
  decide

/-- Any known constant may be used where the use of it is postponed. -/
theorem isCode_postponed {name : String} (hWord : isWord name = true) (hKnown : known name) :
    IsCode defined known ("z.lazy(() => " ++ constantName name) := by
  have hOpening : Apart "z.lazy(() => " := apart_ofList
  refine ⟨hOpening.append_wordApart (wordApart_of_isOneWord (isWord_constantName hWord)), ?_⟩
  rw [hOpening.kindsOf_append, kindsOf_lazyOpening, kindsOf_isOneWord (isWord_constantName hWord)]
  exact .postponed hKnown .nil

/-- The key of a field is a word before a colon or a quoted text. Even a key that is named like a constant uses
none. -/
theorem isClosedCode_fieldKey (name : String) : IsClosedCode defined known (fieldKey name ++ ": ") := by
  unfold fieldKey
  split
  · rename_i hWord
    have hCuts : Cuts (name ++ ": ") (kindsOf name.toList ++ [.mark .colon]) :=
      (wordApart_of_isOneWord hWord).append_ofList
    rw [kindsOf_isOneWord hWord] at hCuts
    exact isClosedCode_of_cuts hCuts (.key name .nil)
  · exact (isClosedCode_quoted name).append isClosedCode_ofList

end Texts

namespace Schema

variable {defined : List String} {known : String → Prop}

theorem expressions_eq_map (defined : List String) (depth : Nat) (schemas : List Schema) :
    expressions defined depth schemas = schemas.map (expression defined depth) := by
  induction schemas with
  | nil => rfl
  | cons schema schemas ih => rw [expressions, ih, List.map_cons]

theorem isCode_expressions {schemas : List Schema} {depth : Nat}
    (hSchemas : ∀ schema ∈ schemas, IsCode defined known (expression defined depth schema)) :
    IsCode defined known (commaList (expressions defined depth schemas)) := by
  rw [expressions_eq_map]
  exact isCode_commaList (List.forall_mem_map.mpr hSchemas)

/-- The induction is over the fields, each on a line of its own. -/
theorem isClosedCode_fieldLines {fields : List (String × Schema)} {depth : Nat}
    (hFields : ∀ field ∈ fields, IsCode defined known (expression defined depth field.2)) :
    IsClosedCode defined known (fieldLines defined depth fields) := by
  induction fields with
  | nil => exact isClosedCode_empty
  | cons field fields ih =>
      obtain ⟨hField, hFurther⟩ := List.forall_mem_cons.mp hFields
      have hKey : IsClosedCode defined known (indent depth ++ fieldKey field.1 ++ ": ") := by
        rw [String.append_assoc]
        exact (isClosedCode_of_cuts (cuts_indent depth) .nil).append (isClosedCode_fieldKey field.1)
      exact (hKey.append_isCode hField).close.append (ih hFurther)

/-- The expression of a schema whose references are to words. -/
theorem isCode_expression {schema : Schema}
    (hNames : schema.RefersOnlyTo fun name => isWord name = true ∧ known name) (depth : Nat) :
    IsCode defined known (expression defined depth schema) := by
  have hQuoted (text : String) : IsClosedCode defined known (Text.quoted text) := isClosedCode_quoted text
  induction schema using Schema.induction_parts generalizing depth with
  | text required =>
      cases required with
      | none => exact (isClosedCode_ofList).isCode
      | some message =>
          show IsCode defined known ("z.string(\x7b required_error: " ++ Text.quoted message ++
            " \x7d).min(1, " ++ Text.quoted message ++ ")")
          exact (((hQuoted message).isCode.enclose.append (hQuoted message)).append isClosedCode_ofList).isCode
  | number => exact (isClosedCode_ofList).isCode
  | boolean => exact (isClosedCode_ofList).isCode
  | dateTime => exact (isClosedCode_ofList).isCode
  | literal value =>
      show IsCode defined known ("z.literal(" ++ value.code ++ ")")
      rw [String.append_assoc]
      exact ((isClosedCode_ofList).append (isClosedCode_literal value)).isCode
  | enumeration values message =>
      show IsCode defined known ("z.enum([" ++ commaList (values.map Text.quoted) ++
        "], \x7b errorMap: () => (\x7b message: " ++ Text.quoted message ++ " \x7d) \x7d)")
      have hValues : IsCode defined known (commaList (values.map Text.quoted)) :=
        isCode_commaList (List.forall_mem_map.mpr fun value _ => (hQuoted value).isCode)
      exact ((hValues.enclose.append (hQuoted message)).append isClosedCode_ofList).isCode
  | union options message ih =>
      show IsCode defined known ("z.union([" ++ commaList (expressions defined depth options) ++
        "], \x7b errorMap: (issue, ctx) => (\x7b message: issue.code === 'invalid_union' ? " ++
        Text.quoted message ++ " : ctx.defaultError \x7d) \x7d)")
      have hOptions := isCode_expressions fun option hMem =>
        ih option hMem (refersOnlyTo_union.mp hNames option hMem) depth
      exact ((hOptions.enclose.append (hQuoted message)).append isClosedCode_ofList).isCode
  | array element ih =>
      show IsCode defined known ("z.array(" ++ expression defined depth element ++ ")")
      exact (ih hNames depth).enclose.isCode
  | tuple items rest ihItems ihRest =>
      obtain ⟨hItems, hRest⟩ := refersOnlyTo_tuple.mp hNames
      have hTuple : IsClosedCode defined known
          ("z.tuple([" ++ commaList (expressions defined depth items) ++ "])") :=
        (isCode_expressions fun item hMem => ihItems item hMem (hItems item hMem) depth).enclose
      cases rest with
      | none => exact (hTuple.append isClosedCode_empty).isCode
      | some schema =>
          have hLast : IsClosedCode defined known (".rest(" ++ expression defined depth schema ++ ")") :=
            (ihRest schema rfl (hRest schema rfl) depth).enclose
          exact (hTuple.append hLast).isCode
  | object fields strict ih =>
      have hFields : IsClosedCode defined known (fieldLines defined (depth + 1) fields) :=
        isClosedCode_fieldLines fun field hMem => ih field hMem (refersOnlyTo_object.mp hNames field hMem) _
      have hIndent : IsClosedCode defined known (indent depth) := isClosedCode_of_cuts (cuts_indent depth) .nil
      have hBody : IsClosedCode defined known
          (if fields.isEmpty then "" else "\n" ++ fieldLines defined (depth + 1) fields ++ indent depth) := by
        split
        · exact isClosedCode_empty
        · exact ((isClosedCode_ofList).append hFields).append hIndent
      have hEnd : IsClosedCode defined known (if strict then ".strict()" else "") := by
        split
        · exact isClosedCode_ofList
        · exact isClosedCode_empty
      show IsCode defined known ("z.object(\x7b" ++ _ ++ "\x7d)" ++ _)
      exact (hBody.isCode.enclose.append hEnd).isCode
  | record => exact (isClosedCode_ofList).isCode
  | optional inner ih =>
      show IsCode defined known (expression defined depth inner ++ ".optional()")
      exact (ih hNames depth).close.isCode
  | reference name =>
      obtain ⟨hWord, hKnown⟩ := hNames name (by simp [references])
      show IsCode defined known
        (if name ∈ defined then constantName name else "z.lazy(() => " ++ constantName name ++ ")")
      split
      · rename_i hDefined
        exact isCode_eager hWord hDefined
      · exact (isCode_postponed hWord hKnown).close.isCode
  | any => exact (isClosedCode_ofList).isCode

end Schema

end SchemaForge
