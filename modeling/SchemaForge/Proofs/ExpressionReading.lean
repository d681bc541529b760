import SchemaForge.Proofs.ReadingBack
import SchemaForge.Proofs.SchemaParts

/-! The expression of a schema says all about it. Most schemas are told apart by how their expressions start. What
makes a schema optional, closes an object or describes further elements is written at the end instead, so an
expression can begin with a whole other one; hence optional schemas are compared by their cores, and it matters what
may stand behind a core. -/
namespace SchemaForge

open Lexeme

/-- Where a number of one list is written like a number of the other, it is the same. -/
def Binary64.WrittenApart (first second : List Binary64) : Prop :=
  ∀ x ∈ first, ∀ y ∈ second, x.literalText = y.literalText → x = y

namespace Schema

/-- The schema that is left when nothing makes it optional. -/
def core : Schema → Schema
  | .optional inner => inner.core
  | schema => schema

def layers : Schema → Nat
  | .optional inner => inner.layers + 1
  | _ => 0

def isOptional : Schema → Bool
  | .optional _ => true
  | _ => false

theorem isOptional_core (schema : Schema) : schema.core.isOptional = false := by
  induction schema using induction_parts with
  | optional inner ih => exact ih
  | _ => rfl

/-- A schema is its core and how often that is made optional. -/
theorem eq_of_core_eq {first second : Schema} (hCore : first.core = second.core)
    (hLayers : first.layers = second.layers) : first = second := by
  induction first using induction_parts generalizing second with
  | optional inner ih =>
      cases second with
      | optional inner' =>
          have hInner : inner = inner' := ih hCore (Nat.add_right_cancel hLayers)
          rw [hInner]
      | _ => cases hLayers
  | _ =>
      cases second with
      | optional inner' => cases hLayers
      | _ => exact hCore

theorem RefersOnlyTo.core {names : String → Prop} {schema : Schema} (hNames : schema.RefersOnlyTo names) :
    schema.core.RefersOnlyTo names := by
  induction schema using induction_parts with
  | optional inner ih => exact ih hNames
  | _ => exact hNames

theorem numbers_core_subset (schema : Schema) : schema.core.numbers ⊆ schema.numbers := by
  induction schema using induction_parts with
  | optional inner ih => exact List.Subset.trans ih (numbers_subset_of_mem_parts (List.mem_singleton_self inner))
  | _ => exact List.Subset.refl _

/-- Two schemas whose expressions can be compared: their references are words, and their numbers are written apart. -/
structure Comparable (first second : Schema) : Prop where
  words : first.RefersOnlyTo (isWord · = true)
  words' : second.RefersOnlyTo (isWord · = true)
  numbers : Binary64.WrittenApart first.numbers second.numbers

namespace Comparable

variable {first second : Schema}

/-- The parts of comparable schemas can be compared, which carries the induction. -/
theorem parts (hComparable : Comparable first second) {part part' : Schema} (hPart : part ∈ first.parts)
    (hPart' : part' ∈ second.parts) : Comparable part part' where
  words := hComparable.words.of_mem_parts hPart
  words' := hComparable.words'.of_mem_parts hPart'
  numbers x hX y hY :=
    hComparable.numbers x (numbers_subset_of_mem_parts hPart hX) y (numbers_subset_of_mem_parts hPart' hY)

theorem cores (hComparable : Comparable first second) : Comparable first.core second.core where
  words := hComparable.words.core
  words' := hComparable.words'.core
  numbers x hX y hY := hComparable.numbers x (numbers_core_subset first hX) y (numbers_core_subset second hY)

end Comparable

/-- What may stand behind the expression of a core: what ends an expression, or what makes it optional. -/
def endsCore : List Char → Bool
  | '.' :: 'o' :: _ => true
  | rest => endsWord rest

def optionalEnding : Nat → String
  | 0 => ""
  | count + 1 => ".optional()" ++ optionalEnding count

theorem optionalEnding_append (count : Nat) : optionalEnding count ++ ".optional()" = optionalEnding (count + 1) := by
  induction count with
  | zero => rfl
  | succ count ih => rw [optionalEnding, String.append_assoc, ih, ← optionalEnding]

/-- Being optional is written behind the expression of the core, once for each time. -/
theorem expression_eq_core (defined : List String) (depth : Nat) (schema : Schema) :
    schema.expression defined depth = schema.core.expression defined depth ++ optionalEnding schema.layers := by
  induction schema using induction_parts with
  | optional inner ih =>
      show inner.expression defined depth ++ ".optional()" =
        inner.core.expression defined depth ++ optionalEnding (inner.layers + 1)
      rw [ih, String.append_assoc, optionalEnding_append]
  | _ => exact String.append_empty.symm

theorem endsCore_of_endsWord {rest : List Char} (hRest : endsWord rest = true) : endsCore rest = true := by
  unfold endsCore
  split
  · rfl
  · exact hRest

/-- What makes a core optional may stand behind it, and so may whatever ends an expression. -/
theorem endsCore_optionalEnding_append (count : Nat) {rest : List Char} (hRest : endsWord rest = true) :
    endsCore ((optionalEnding count).toList ++ rest) = true := by
  cases count with
  | zero => exact endsCore_of_endsWord hRest
  | succ count =>
      rw [optionalEnding, String.toList_append]
      rfl

/-- What stands behind a core ends a word, so a constant is read in full. -/
theorem stops_of_endsCore {rest : List Char} (hRest : endsCore rest = true) : Stops continuesWord rest := by
  rintro c hHead
  obtain ⟨behind, rfl⟩ := List.head?_eq_some_iff.mp hHead
  unfold endsCore at hRest
  split at hRest
  · next hDot =>
      rw [List.cons.inj hDot |>.1]
      decide
  · exact Bool.eq_false_of_not_eq_true' (Bool.and_eq_true_iff.mp hRest).1

/-- The induction is on both counts. What ends an expression does not start with a point. -/
theorem readsBack_optionalEnding (count count' : Nat) :
    ReadsBack (endsWord · = true) (optionalEnding count) (optionalEnding count') (count = count') := by
  have hDot (count : Nat) {alike : Prop} :
      ReadsBack (endsWord · = true) "" (optionalEnding (count + 1)) alike := by
    refine .of_front ['.'] ?_ ?_
    · rw [optionalEnding, String.toList_append]
      exact ⟨_, rfl⟩
    · rintro _ hRest ⟨behind, rfl⟩
      cases hRest
  induction count generalizing count' with
  | zero =>
      cases count' with
      | zero => exact .same _ rfl
      | succ count' => exact hDot count'
  | succ count ih =>
      cases count' with
      | zero => exact (hDot count).symm id
      | succ count' => exact ((ih count').after ".optional()").mono (fun _ hRest => hRest) (congrArg _)

/-- How the expression of a core starts, unless it is a constant. -/
def opening : Schema → List Char
  | .text _ => ['z', '.', 's', 't', 'r']
  | .number => ['z', '.', 'n', 'u', 'm']
  | .boolean => ['z', '.', 'b', 'o', 'o']
  | .dateTime => ['z', '.', 's', 't', 'r']
  | .literal _ => ['z', '.', 'l', 'i', 't']
  | .enumeration _ _ => ['z', '.', 'e', 'n', 'u']
  | .union _ _ => ['z', '.', 'u', 'n', 'i']
  | .array _ => ['z', '.', 'a', 'r', 'r']
  | .tuple _ _ => ['z', '.', 't', 'u', 'p']
  | .object _ _ => ['z', '.', 'o', 'b', 'j']
  | .record => ['z', '.', 'r', 'e', 'c']
  | .optional inner => inner.opening
  | .reference _ => ['z', '.', 'l', 'a', 'z']
  | .any => ['z', '.', 'a', 'n', 'y']

/-- Openings have the same length, so they can be compared at the front. -/
theorem exists_opening_eq (schema : Schema) : ∃ a b c, schema.opening = ['z', '.', a, b, c] := by
  induction schema using induction_parts with
  | optional inner ih => exact ih
  | _ => exact ⟨_, _, _, rfl⟩

/-- A reference to what is defined before is its constant. -/
theorem expression_reference_of_mem {defined : List String} {name : String} (hDefined : name ∈ defined) (depth : Nat) :
    expression defined depth (.reference name) = constantName name :=
  if_pos hDefined

/-- A reference to what is not defined yet is postponed. -/
theorem expression_reference_of_notMem {defined : List String} {name : String} (hDefined : name ∉ defined)
    (depth : Nat) :
    expression defined depth (.reference name) = "z.lazy(() => " ++ constantName name ++ ")" :=
  if_neg hDefined

/-- Everything but a constant starts as its kind of schema does. -/
theorem begins_expression {defined : List String} {schema : Schema} (depth : Nat) (hCore : schema.isOptional = false)
    (hPostponed : ∀ name ∈ defined, schema ≠ .reference name) :
    Begins schema.opening (schema.expression defined depth) := by
  cases schema with
  | text required =>
      cases required with
      | none => exact begins_ofList (by decide)
      | some message =>
          show Begins ['z', '.', 's', 't', 'r'] ("z.string(\x7b required_error: " ++ _ ++ _ ++ _ ++ _)
          exact ((((begins_ofList (by decide)).append _).append _).append _).append _
  | number => exact begins_ofList (by decide)
  | boolean => exact begins_ofList (by decide)
  | dateTime => exact begins_ofList (by decide)
  | literal value =>
      show Begins ['z', '.', 'l', 'i', 't'] ("z.literal(" ++ _ ++ _)
      exact ((begins_ofList (by decide)).append _).append _
  | enumeration values message =>
      show Begins ['z', '.', 'e', 'n', 'u'] ("z.enum([" ++ _ ++ _ ++ _ ++ _)
      exact ((((begins_ofList (by decide)).append _).append _).append _).append _
  | union options message =>
      show Begins ['z', '.', 'u', 'n', 'i'] ("z.union([" ++ _ ++ _ ++ _ ++ _)
      exact ((((begins_ofList (by decide)).append _).append _).append _).append _
  | array element =>
      show Begins ['z', '.', 'a', 'r', 'r'] ("z.array(" ++ _ ++ _)
      exact ((begins_ofList (by decide)).append _).append _
  | tuple items rest =>
      cases rest <;> show Begins ['z', '.', 't', 'u', 'p'] ("z.tuple([" ++ _ ++ _ ++ _) <;>
        exact (((begins_ofList (by decide)).append _).append _).append _
  | object fields strict =>
      show Begins ['z', '.', 'o', 'b', 'j'] ("z.object(\x7b" ++ _ ++ _ ++ _)
      exact (((begins_ofList (by decide)).append _).append _).append _
  | record => exact begins_ofList (by decide)
  | optional inner => cases hCore
  | reference name =>
      have hName : name ∉ defined := fun hMem => hPostponed name hMem rfl
      rw [expression_reference_of_notMem hName]
      show Begins ['z', '.', 'l', 'a', 'z'] _
      exact ((begins_ofList (by decide)).append _).append _
  | any => exact begins_ofList (by decide)

/-- A constant is a word of several letters, so it has no point in the second place. -/
theorem readsBack_constantName_begins {follows : List Char → Prop} {alike : Prop} {name text : String}
    (hWord : isWord name = true) {more : List Char} (hText : Begins ('z' :: '.' :: more) text) :
    ReadsBack follows (constantName name) text alike := by
  obtain ⟨behind, hChars⟩ := hText
  have hLength : 2 ≤ (constantName name).toList.length := by
    rw [constantName, String.toList_append, List.length_append]
    exact Nat.le_trans (by decide) (Nat.le_add_left _ _)
  refine .of_take_ne 2 hLength (by rw [← hChars]; simp) fun hTake => ?_
  have hPoint : '.' ∈ (constantName name).toList.take 2 := by
    rw [hTake, ← hChars]
    simp
  have hContinues := all_continuesWord_of_isWord (isWord_constantName hWord)
  exact absurd (List.all_eq_true.mp hContinues '.' (List.mem_of_mem_take hPoint)) (by decide)

/-- Cores of different kinds are told apart whatever follows. -/
theorem readsBack_of_opening_ne {follows : List Char → Prop} {alike : Prop} {defined : List String}
    {first second : Schema}
    (hComparable : Comparable first second) (hFirst : first.isOptional = false) (hSecond : second.isOptional = false)
    (hOther : first.opening ≠ second.opening) (depth : Nat) :
    ReadsBack follows (first.expression defined depth) (second.expression defined depth) alike := by
  have hEager {first second : Schema} (hWords : first.RefersOnlyTo (isWord · = true))
      (hSecond : second.isOptional = false) (hOther : first.opening ≠ second.opening) {name : String}
      (hName : name ∈ defined) (hIs : first = .reference name) :
      ReadsBack follows (first.expression defined depth) (second.expression defined depth) False := by
    subst hIs
    have hBegins : Begins second.opening (second.expression defined depth) := by
      refine begins_expression depth hSecond fun name' _ hIs' => hOther ?_
      rw [hIs']
      rfl
    obtain ⟨a, b, c, hOpening⟩ := second.exists_opening_eq
    rw [hOpening] at hBegins
    rw [expression_reference_of_mem hName]
    exact readsBack_constantName_begins (hWords name (by simp [references])) hBegins
  by_cases hFirstName : ∃ name ∈ defined, first = .reference name
  · obtain ⟨name, hName, hIs⟩ := hFirstName
    exact (hEager hComparable.words hSecond hOther hName hIs).mono (fun _ hRest => hRest) False.elim
  by_cases hSecondName : ∃ name ∈ defined, second = .reference name
  · obtain ⟨name, hName, hIs⟩ := hSecondName
    exact (hEager hComparable.words' hFirst hOther.symm hName hIs).symm False.elim
  · have hBegins := begins_expression depth hFirst fun name hName hIs => hFirstName ⟨name, hName, hIs⟩
    have hBegins' := begins_expression depth hSecond fun name hName hIs => hSecondName ⟨name, hName, hIs⟩
    refine hBegins.readsBack hBegins' ?_ hOther
    obtain ⟨a, b, c, hOpening⟩ := first.exists_opening_eq
    obtain ⟨a', b', c', hOpening'⟩ := second.exists_opening_eq
    rw [hOpening, hOpening']
    rfl

section Kinds

variable {defined : List String} {depth : Nat} {follows : List Char → Prop}

/-- A text with a message of its own starts with more than a plain one. -/
theorem begins_expression_required (message : String) :
    Begins "z.string(\x7b".toList (expression defined depth (.text (some message))) := by
  show Begins _ ("z.string(\x7b required_error: " ++ _ ++ _ ++ _ ++ _)
  exact ((((begins_ofList (by decide)).append _).append _).append _).append _

/-- The message is written twice, so it is read back from its first occurrence. -/
theorem readsBack_text_required (message message' : String) :
    ReadsBack follows (expression defined depth (.text (some message)))
      (expression defined depth (.text (some message'))) (text (some message) = text (some message')) := by
  have hMessage := readsBack_quoted message message'
  have hFirst : ReadsBack Anything ("z.string(\x7b required_error: " ++ Text.quoted message ++ " \x7d).min(1, ")
      ("z.string(\x7b required_error: " ++ Text.quoted message' ++ " \x7d).min(1, ") (message = message') :=
    hMessage.enclose _ fun _ => trivial
  have hBoth := (hFirst.append (fun _ => hMessage) (fun _ _ => trivial) fun _ _ => trivial).mono (fun _ hRest => hRest)
    (congrArg fun message => text (some message))
  exact hBoth.before fun _ => trivial

/-- A text with a message is told apart from one without by the character behind the parenthesis. -/
theorem readsBack_text (required required' : Option String) :
    ReadsBack follows (expression defined depth (.text required)) (expression defined depth (.text required'))
      (text required = text required') := by
  have hEmpty (message : String) {alike : Prop} :
      ReadsBack follows (expression defined depth (.text none)) (expression defined depth (.text (some message)))
        alike :=
    (begins_ofList (by decide) : Begins "z.string()".toList _).readsBack (begins_expression_required message)
      (by decide) (by decide)
  cases required <;> cases required'
  · exact .same _ rfl
  · exact hEmpty _
  · exact (hEmpty _).symm id
  · exact readsBack_text_required _ _

/-- A text of any kind is told apart from a date and time, which starts like a text that may be empty. -/
theorem readsBack_text_dateTime (required : Option String) {alike : Prop} :
    ReadsBack (endsCore · = true) (expression defined depth (.text required)) (expression defined depth .dateTime)
      alike := by
  cases required with
  | none =>
      have hEnding : ReadsBack (endsCore · = true) "" ".datetime(\"Invalid date format\")" alike := by
        refine .of_front ['.', 'd'] (by decide) ?_
        rintro _ hRest ⟨behind, rfl⟩
        cases hRest
      exact hEnding.after "z.string()"
  | some message =>
      exact (begins_expression_required message).readsBack (begins_ofList (by decide) : Begins "z.string()".toList _)
        (by decide) (by decide)

/-- Literals are told apart up to numbers that are written alike. -/
theorem readsBack_literal {value value' : Literal} (hComparable : Comparable (literal value) (literal value')) :
    ReadsBack follows (expression defined depth (.literal value)) (expression defined depth (.literal value'))
      (literal value = literal value') := by
  have hValue : ReadsBack (StartsWith ')') value.code value'.code (literal value = literal value') := by
    refine (Literal.readsBack_code ?_).mono (fun _ hRest => hRest) (congrArg literal)
    rintro x y rfl rfl
    exact hComparable.numbers x List.mem_cons_self y List.mem_cons_self
  exact hValue.enclose "z.literal(" fun _ => rfl

/-- The values and the message are both quoted. -/
theorem readsBack_enumeration (values values' : List String) (message message' : String) :
    ReadsBack follows (expression defined depth (.enumeration values message))
      (expression defined depth (.enumeration values' message'))
      (enumeration values message = enumeration values' message') := by
  have hValues : ReadsBack (StartsWith ']') (commaList (values.map Text.quoted)) (commaList (values'.map Text.quoted))
      (values = values') := by
    refine readsBack_commaList (fun value _ value' _ => ?_) fun value _ => ?_
    · exact (readsBack_quoted value value').mono (fun _ _ => trivial) id
    · exact ⟨'"', _, String.toList_ofList, by decide⟩
  refine ReadsBack.mono (readsBack_listAndMessage hValues message message' "z.enum([" ?_) (fun _ hRest => hRest) ?_
  · exact fun _ => rfl
  · rintro ⟨rfl, rfl⟩
    rfl

/-- Everything that is written for a schema starts with a letter. -/
theorem exists_toList_expression {schema : Schema} (hWords : schema.RefersOnlyTo (isWord · = true)) :
    ∃ c chars, (schema.expression defined depth).toList = c :: chars ∧ c ≠ ']' := by
  have hCore : ∃ c chars, (schema.core.expression defined depth).toList = c :: chars ∧ c ≠ ']' := by
    by_cases hEager : ∃ name ∈ defined, schema.core = .reference name
    · obtain ⟨name, hDefined, hIs⟩ := hEager
      have hWord : isWord name = true := hWords.core name (by simp [hIs, references])
      obtain ⟨c, hHead, hStart⟩ := exists_head_of_isWord (isWord_constantName hWord)
      obtain ⟨chars, hChars⟩ := List.head?_eq_some_iff.mp hHead
      rw [hIs, expression_reference_of_mem hDefined]
      refine ⟨c, chars, hChars, ?_⟩
      rintro rfl
      exact absurd hStart (by decide)
    · have hBegins := begins_expression depth schema.isOptional_core fun name hName hIs => hEager ⟨name, hName, hIs⟩
      obtain ⟨a, b, c, hOpening⟩ := schema.core.exists_opening_eq
      rw [hOpening] at hBegins
      obtain ⟨behind, hChars⟩ := hBegins
      exact ⟨'z', _, hChars.symm, by decide⟩
  obtain ⟨c, chars, hChars, hOther⟩ := hCore
  rw [expression_eq_core, String.toList_append, hChars]
  exact ⟨c, _, rfl, hOther⟩

/-- The core of the schema is told apart from every core that it can be compared with. -/
def CoreReadsBack (defined : List String) (first : Schema) : Prop :=
  ∀ depth second, second.isOptional = false → Comparable first.core second →
    ReadsBack (endsCore · = true) (first.core.expression defined depth) (second.expression defined depth)
      (first.core = second)

/-- Cores are told apart first, and then how often they are made optional. -/
theorem CoreReadsBack.readsBack {first second : Schema} (hFirst : CoreReadsBack defined first)
    (hComparable : Comparable first second) (depth : Nat) :
    ReadsBack (endsWord · = true) (first.expression defined depth) (second.expression defined depth)
      (first = second) := by
  rw [expression_eq_core _ _ first, expression_eq_core _ _ second]
  have hCore := hFirst depth second.core second.isOptional_core hComparable.cores
  refine hCore.append (fun hSame => ?_) ?_ ?_
  · exact (readsBack_optionalEnding _ _).mono (fun _ hRest => hRest) (eq_of_core_eq hSame)
  · exact fun _ => endsCore_optionalEnding_append _
  · exact fun _ => endsCore_optionalEnding_append _

/-- The items of a list are told apart one by one; each ends before a comma or the bracket. -/
theorem readsBack_expressions {schemas schemas' : List Schema}
    (hSchemas : ∀ schema ∈ schemas, CoreReadsBack defined schema)
    (hComparable : ∀ schema ∈ schemas, ∀ schema' ∈ schemas', Comparable schema schema')
    (hWords : ∀ schema, schema ∈ schemas ∨ schema ∈ schemas' → schema.RefersOnlyTo (isWord · = true)) :
    ReadsBack (StartsWith ']') (commaList (expressions defined depth schemas))
      (commaList (expressions defined depth schemas')) (schemas = schemas') := by
  rw [expressions_eq_map, expressions_eq_map]
  refine readsBack_commaList (fun schema hMem schema' hMem' => ?_) fun schema hMem => ?_
  · exact (hSchemas schema hMem).readsBack (hComparable schema hMem schema' hMem') depth
  · exact exists_toList_expression (hWords schema hMem)

/-- The options are told apart up to their bracket, and the message behind it. -/
theorem readsBack_union {options options' : List Schema} {message message' : String}
    (hOptions : ∀ option ∈ options, CoreReadsBack defined option)
    (hComparable : Comparable (union options message) (union options' message')) :
    ReadsBack follows (expression defined depth (.union options message))
      (expression defined depth (.union options' message')) (union options message = union options' message') := by
  have hParts : ReadsBack (StartsWith ']') (commaList (expressions defined depth options))
      (commaList (expressions defined depth options')) (options = options') := by
    refine readsBack_expressions hOptions (fun option hMem option' hMem' => hComparable.parts hMem hMem') ?_
    rintro option (hMem | hMem)
    · exact hComparable.words.of_mem_parts hMem
    · exact hComparable.words'.of_mem_parts hMem
  refine ReadsBack.mono (readsBack_listAndMessage hParts message message' "z.union([" ?_) (fun _ hRest => hRest) ?_
  · exact fun _ => rfl
  · rintro ⟨rfl, rfl⟩
    rfl

theorem readsBack_array {element element' : Schema} (hElement : CoreReadsBack defined element)
    (hComparable : Comparable (array element) (array element')) :
    ReadsBack follows (expression defined depth (.array element)) (expression defined depth (.array element'))
      (array element = array element') := by
  have hElements := hElement.readsBack (hComparable.parts List.mem_cons_self List.mem_cons_self) depth
  exact (hElements.mono (fun _ hRest => hRest) (congrArg array)).enclose "z.array(" fun _ => rfl

/-- What describes further elements starts unlike anything that may follow a core. -/
theorem readsBack_tuple {items items' : List Schema} {rest rest' : Option Schema}
    (hItems : ∀ item ∈ items, CoreReadsBack defined item) (hRest : ∀ schema ∈ rest, CoreReadsBack defined schema)
    (hComparable : Comparable (tuple items rest) (tuple items' rest')) :
    ReadsBack (endsCore · = true) (expression defined depth (.tuple items rest))
      (expression defined depth (.tuple items' rest')) (tuple items rest = tuple items' rest') := by
  have hParts : ReadsBack (StartsWith ']') (commaList (expressions defined depth items))
      (commaList (expressions defined depth items')) (items = items') := by
    refine readsBack_expressions hItems (fun item hMem item' hMem' => ?_) ?_
    · exact hComparable.parts (List.mem_append_left _ hMem) (List.mem_append_left _ hMem')
    · rintro item (hMem | hMem)
      · exact hComparable.words.of_mem_parts (List.mem_append_left _ hMem)
      · exact hComparable.words'.of_mem_parts (List.mem_append_left _ hMem)
  have hList : ReadsBack Anything ("z.tuple([" ++ commaList (expressions defined depth items) ++ "])")
      ("z.tuple([" ++ commaList (expressions defined depth items') ++ "])") (items = items') :=
    hParts.enclose _ fun _ => rfl
  have hFurther (schema : Schema) {alike : Prop} :
      ReadsBack (endsCore · = true) "" (".rest(" ++ expression defined depth schema ++ ")") alike := by
    refine .of_front ['.', 'r'] (((begins_ofList (by decide)).append _).append _) ?_
    rintro _ hRest ⟨behind, rfl⟩
    cases hRest
  cases rest with
  | none =>
      cases rest' with
      | none => exact hList.append (fun hSame => .same "" (by rw [hSame])) (fun _ _ => trivial) fun _ _ => trivial
      | some schema' => exact hList.append (fun _ => hFurther schema') (fun _ _ => trivial) fun _ _ => trivial
  | some schema =>
      cases rest' with
      | none => exact hList.append (fun _ => (hFurther schema).symm id) (fun _ _ => trivial) fun _ _ => trivial
      | some schema' =>
          have hSchema : Comparable schema schema' := hComparable.parts (by simp [parts]) (by simp [parts])
          have hEnding : ReadsBack (endsCore · = true) (".rest(" ++ schema.expression defined depth ++ ")")
              (".rest(" ++ schema'.expression defined depth ++ ")") (schema = schema') :=
            ((hRest schema rfl).readsBack hSchema depth).enclose _ fun _ => rfl
          refine hList.append (fun hSame => hEnding.mono (fun _ hBehind => hBehind) fun hSame' => ?_)
            (fun _ _ => trivial) fun _ _ => trivial
          rw [hSame, hSame']

/-- The line of a field, up to where the next line begins. -/
theorem readsBack_fieldLine {name name' : String} {schema schema' : Schema}
    (hSchema : ReadsBack (endsWord · = true) (schema.expression defined depth) (schema'.expression defined depth)
      (schema = schema')) :
    ReadsBack follows (indent depth ++ fieldKey name ++ ": " ++ schema.expression defined depth ++ ",\n")
      (indent depth ++ fieldKey name' ++ ": " ++ schema'.expression defined depth ++ ",\n")
      ((name, schema) = (name', schema')) := by
  have hKey : ReadsBack Anything (indent depth ++ fieldKey name ++ ": ") (indent depth ++ fieldKey name' ++ ": ")
      (name = name') := (readsBack_fieldKey name name').enclose _ fun _ => rfl
  have hField : ReadsBack (endsWord · = true) _ _ ((name, schema) = (name', schema')) :=
    hKey.append (fun hName => hSchema.mono (fun _ hRest => hRest) fun hSame => Prod.ext hName hSame)
      (fun _ _ => trivial) fun _ _ => trivial
  exact hField.before fun _ => rfl

/-- After the last field the next line is indented less. -/
theorem readsBack_fieldLines {fields fields' : List (String × Schema)}
    (hFields : ∀ field ∈ fields, ∀ field' ∈ fields',
      ReadsBack (endsWord · = true) (field.2.expression defined (depth + 1)) (field'.2.expression defined (depth + 1))
        (field.2 = field'.2)) :
    ReadsBack (fun rest => (indent depth).toList ++ ['\x7d'] <+: rest) (fieldLines defined (depth + 1) fields)
      (fieldLines defined (depth + 1) fields') (fields = fields') := by
  have hLine (field : String × Schema) (fields : List (String × Schema)) {alike : Prop} :
      ReadsBack (fun rest => (indent depth).toList ++ ['\x7d'] <+: rest) ""
        (fieldLines defined (depth + 1) (field :: fields)) alike := by
    refine .of_front ((indent depth).toList ++ [' ']) ?_ fun rest hRest hFront => ?_
    · show Begins _ (indent (depth + 1) ++ _ ++ _ ++ _ ++ _ ++ _)
      refine (((((begins_ofList ?_).append _).append _).append _).append _).append _
      rw [indent, String.toList_ofList]
      exact ⟨[' '], by simp [Nat.mul_add, List.replicate_add]⟩
    · have hSame := (List.prefix_of_prefix_length_le hFront hRest (by simp)).eq_of_length (by simp)
      exact absurd (List.append_cancel_left hSame) (by decide)
  induction fields generalizing fields' with
  | nil =>
      cases fields' with
      | nil => exact .same _ rfl
      | cons field' fields' => exact hLine field' fields'
  | cons field fields ih =>
      cases fields' with
      | nil => exact (hLine field fields).symm id
      | cons field' fields' =>
          obtain ⟨hField, hFurther⟩ := List.forall_mem_cons.mp hFields
          have hFirst : ReadsBack Anything _ _ (field = field') :=
            readsBack_fieldLine (hField field' List.mem_cons_self)
          have hOthers := ih fun field hMem field' hMem' => hFurther field hMem field' (List.mem_cons_of_mem _ hMem')
          refine hFirst.append (fun hSame => hOthers.mono (fun _ hRest => hRest) fun hSame' => ?_)
            (fun _ _ => trivial) fun _ _ => trivial
          rw [hSame, hSame']

/-- Whether an object is strict is written behind it, where it cannot be taken for being optional. -/
theorem readsBack_strictEnding (strict strict' : Bool) :
    ReadsBack (endsCore · = true) (if strict then ".strict()" else "") (if strict' then ".strict()" else "")
      (strict = strict') := by
  have hEnding {alike : Prop} : ReadsBack (endsCore · = true) "" ".strict()" alike := by
    refine .of_front ['.', 's'] (by decide) ?_
    rintro _ hRest ⟨behind, rfl⟩
    cases hRest
  cases strict <;> cases strict'
  · exact .same _ rfl
  · exact hEnding
  · exact hEnding.symm id
  · exact .same _ rfl

/-- An object without fields stands on one line. -/
theorem readsBack_objectBody (depth : Nat) {fields fields' : List (String × Schema)}
    (hLines : ReadsBack (fun rest => (indent depth).toList ++ ['\x7d'] <+: rest) (fieldLines defined (depth + 1) fields)
      (fieldLines defined (depth + 1) fields') (fields = fields')) :
    ReadsBack (StartsWith '\x7d')
      (if fields.isEmpty then "" else "\n" ++ fieldLines defined (depth + 1) fields ++ indent depth)
      (if fields'.isEmpty then "" else "\n" ++ fieldLines defined (depth + 1) fields' ++ indent depth)
      (fields = fields') := by
  have hLine (fields : List (String × Schema)) {alike : Prop} :
      ReadsBack (StartsWith '\x7d') "" ("\n" ++ fieldLines defined (depth + 1) fields ++ indent depth) alike :=
    .of_front ['\n'] (((begins_ofList (by decide)).append _).append _) fun _ => not_prefix_of_startsWith (by decide)
  cases fields with
  | nil =>
      cases fields' with
      | nil => exact .same _ rfl
      | cons field' fields' => exact hLine _
  | cons field fields =>
      cases fields' with
      | nil => exact (hLine _).symm id
      | cons field' fields' =>
          refine (hLines.after "\n").append (fun hSame => .same _ hSame) ?_ ?_ <;>
          · rintro rest hRest
            obtain ⟨behind, rfl⟩ := List.head?_eq_some_iff.mp hRest
            exact ⟨behind, by simp⟩

/-- The fields are told apart up to the closing brace, and strictness behind it. -/
theorem readsBack_object {fields fields' : List (String × Schema)} {strict strict' : Bool}
    (hFields : ∀ field ∈ fields, CoreReadsBack defined field.2)
    (hComparable : Comparable (object fields strict) (object fields' strict')) :
    ReadsBack (endsCore · = true) (expression defined depth (.object fields strict))
      (expression defined depth (.object fields' strict')) (object fields strict = object fields' strict') := by
  have hBody := readsBack_objectBody depth (readsBack_fieldLines fun field hMem field' hMem' =>
    (hFields field hMem).readsBack (hComparable.parts (List.mem_map_of_mem hMem) (List.mem_map_of_mem hMem')) _)
  have hClosing (rest : List Char) : StartsWith '\x7d' (['\x7d', ')'] ++ rest) := rfl
  have hObject : ReadsBack Anything _ _ (fields = fields') := hBody.enclose "z.object(\x7b" hClosing
  have hStrict := readsBack_strictEnding strict strict'
  refine hObject.append (fun hSame => hStrict.mono (fun _ hRest => hRest) fun hSame' => ?_) (fun _ _ => trivial)
    fun _ _ => trivial
  rw [hSame, hSame']

/-- Both references are to what is defined before, or both are postponed, or they are told apart at once. -/
theorem readsBack_reference {name name' : String} (hComparable : Comparable (reference name) (reference name')) :
    ReadsBack (endsCore · = true) (expression defined depth (.reference name))
      (expression defined depth (.reference name')) (reference name = reference name') := by
  have hWord : isWord name = true := hComparable.words name (List.mem_singleton_self name)
  have hWord' : isWord name' = true := hComparable.words' name' (List.mem_singleton_self name')
  have hPostponed {name' : String} (hDefined' : name' ∉ defined) :
      Begins ['z', '.'] (expression defined depth (.reference name')) := by
    rw [expression_reference_of_notMem hDefined']
    exact ((begins_ofList (by decide)).append _).append _
  have hNames := readsBack_constantName hWord hWord'
  by_cases hDefined : name ∈ defined <;> by_cases hDefined' : name' ∈ defined
  · rw [expression_reference_of_mem hDefined, expression_reference_of_mem hDefined']
    exact hNames.mono (fun _ => stops_of_endsCore) (congrArg reference)
  · rw [expression_reference_of_mem hDefined]
    exact readsBack_constantName_begins hWord (hPostponed hDefined')
  · rw [expression_reference_of_mem hDefined']
    exact (readsBack_constantName_begins hWord' (hPostponed hDefined)).symm id
  · rw [expression_reference_of_notMem hDefined, expression_reference_of_notMem hDefined']
    refine ((hNames.mono (fun _ hRest => hRest) (congrArg reference)).after _).before ?_
    exact fun _ => stops_of_startsWith (c := ')') (by decide) rfl

end Kinds

/-- Schemas that are not told apart by how their expressions start: those of the same kind, and texts and dates. -/
inductive SameStart : Schema → Schema → Prop
  | text (required required' : Option String) : SameStart (.text required) (.text required')
  | textDate (required : Option String) : SameStart (.text required) .dateTime
  | dateText (required : Option String) : SameStart .dateTime (.text required)
  | date : SameStart .dateTime .dateTime
  | number : SameStart .number .number
  | boolean : SameStart .boolean .boolean
  | literal (value value' : Literal) : SameStart (.literal value) (.literal value')
  | enumeration (values values' : List String) (message message' : String) :
      SameStart (.enumeration values message) (.enumeration values' message')
  | union (options options' : List Schema) (message message' : String) :
      SameStart (.union options message) (.union options' message')
  | array (element element' : Schema) : SameStart (.array element) (.array element')
  | tuple (items items' : List Schema) (rest rest' : Option Schema) :
      SameStart (.tuple items rest) (.tuple items' rest')
  | object (fields fields' : List (String × Schema)) (strict strict' : Bool) :
      SameStart (.object fields strict) (.object fields' strict')
  | record : SameStart .record .record
  | reference (name name' : String) : SameStart (.reference name) (.reference name')
  | any : SameStart .any .any

/-- There is one case for each pair of kinds, and most pairs start differently. -/
theorem sameStart_of_opening_eq {first second : Schema} (hFirst : first.isOptional = false)
    (hSecond : second.isOptional = false) (hOpening : first.opening = second.opening) : SameStart first second := by
  cases first with
  | optional inner => cases hFirst
  | _ =>
      cases second with
      | optional inner => cases hSecond
      | _ => first | constructor | simp [opening] at hOpening

/-- Only schemas that start alike have to be looked at. -/
theorem CoreReadsBack.of_sameStart {defined : List String} {first : Schema}
    (hFirst : ∀ depth second, SameStart first.core second → Comparable first.core second →
      ReadsBack (endsCore · = true) (first.core.expression defined depth) (second.expression defined depth)
        (first.core = second)) : CoreReadsBack defined first := by
  intro depth second hSecond hComparable
  by_cases hOpening : first.core.opening = second.opening
  · exact hFirst depth second (sameStart_of_opening_eq first.isOptional_core hSecond hOpening) hComparable
  · exact readsBack_of_opening_ne hComparable first.isOptional_core hSecond hOpening depth

/-- By induction on the schema, with a lemma for each kind of core. -/
theorem coreReadsBack (defined : List String) (first : Schema) : CoreReadsBack defined first := by
  induction first using induction_parts with
  | optional inner ih => exact ih
  | text required =>
      refine .of_sameStart fun depth second hStart _ => ?_
      cases hStart with
      | text _ required' => exact readsBack_text required required'
      | textDate => exact readsBack_text_dateTime required
  | dateTime =>
      refine .of_sameStart fun depth second hStart _ => ?_
      cases hStart with
      | dateText required => exact (readsBack_text_dateTime required).symm id
      | date => exact .same _ rfl
  | number =>
      refine .of_sameStart fun depth second hStart _ => ?_
      cases hStart
      exact .same _ rfl
  | boolean =>
      refine .of_sameStart fun depth second hStart _ => ?_
      cases hStart
      exact .same _ rfl
  | literal value =>
      refine .of_sameStart fun depth second hStart hComparable => ?_
      cases hStart
      exact readsBack_literal hComparable
  | enumeration values message =>
      refine .of_sameStart fun depth second hStart _ => ?_
      cases hStart
      exact readsBack_enumeration _ _ _ _
  | union options message ih =>
      refine .of_sameStart fun depth second hStart hComparable => ?_
      cases hStart
      exact readsBack_union ih hComparable
  | array element ih =>
      refine .of_sameStart fun depth second hStart hComparable => ?_
      cases hStart
      exact readsBack_array ih hComparable
  | tuple items rest ihItems ihRest =>
      refine .of_sameStart fun depth second hStart hComparable => ?_
      cases hStart
      exact readsBack_tuple ihItems ihRest hComparable
  | object fields strict ih =>
      refine .of_sameStart fun depth second hStart hComparable => ?_
      cases hStart
      exact readsBack_object ih hComparable
  | record =>
      refine .of_sameStart fun depth second hStart _ => ?_
      cases hStart
      exact .same _ rfl
  | reference name =>
      refine .of_sameStart fun depth second hStart hComparable => ?_
      cases hStart
      exact readsBack_reference hComparable
  | any =>
      refine .of_sameStart fun depth second hStart _ => ?_
      cases hStart
      exact .same _ rfl

/-- Comparable schemas are read back from their expressions, whatever ends them. -/
theorem Comparable.readsBack {first second : Schema} (hComparable : Comparable first second) (defined : List String)
    (depth : Nat) :
    ReadsBack (endsWord · = true) (first.expression defined depth) (second.expression defined depth) (first = second) :=
  (coreReadsBack defined first).readsBack hComparable depth

/-- Nothing about a schema is lost in its expression. -/
theorem Comparable.eq_of_expression_eq {first second : Schema} (hComparable : Comparable first second)
    {defined : List String} {depth : Nat} (hSame : first.expression defined depth = second.expression defined depth) :
    first = second :=
  (hComparable.readsBack defined depth [] [] rfl rfl (by rw [hSame])).1

end Schema

end SchemaForge
