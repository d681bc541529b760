import SchemaForge.Proofs.EmittedCode

/-! Reading an emitted module token by token: the constants and functions that it defines, which of them it
exports, and the keys of its maps. What is found in a row of tokens is found in its parts one after the other. -/
namespace SchemaForge

open Lexeme

/-- What is found at the places of a row of tokens, each with all that follows it. -/
def foundIn {α : Type} (at? : List TokenKind → Option α) : List TokenKind → List α
  | [] => []
  | kind :: rest => (at? (kind :: rest)).toList ++ foundIn at? rest

/-- A constant as it is defined: its name, and the tokens between the equals sign and the semicolon. -/
structure ConstantText where
  name : String
  value : List TokenKind

/-- A function as it is defined: its name, and what follows up to the first semicolon. -/
structure FunctionText where
  name : String
  opening : List TokenKind

def constantAt? : List TokenKind → Option ConstantText
  | .word "const" :: .word name :: .mark .equals :: rest => some ⟨name, rest.takeWhile (· ≠ .mark .semicolon)⟩
  | _ => none

def functionAt? : List TokenKind → Option FunctionText
  | .word "function" :: .word name :: rest => some ⟨name, rest.takeWhile (· ≠ .mark .semicolon)⟩
  | _ => none

def exportAt? : List TokenKind → Option String
  | .word "export" :: .word "const" :: .word name :: _ => some name
  | _ => none

def keyAt? : List TokenKind → Option String
  | .text key :: .mark .colon :: _ => some key
  | _ => none

def constantsIn (kinds : List TokenKind) : List ConstantText := foundIn constantAt? kinds

def functionsIn (kinds : List TokenKind) : List FunctionText := foundIn functionAt? kinds

def exportsIn (kinds : List TokenKind) : List String := foundIn exportAt? kinds

def keysIn (kinds : List TokenKind) : List String := foundIn keyAt? kinds

def wordsIn (kinds : List TokenKind) : List String :=
  kinds.filterMap fun
    | .word name => some name
    | _ => none

/-- The token starts or marks a definition. -/
def TokenKind.isDefining : TokenKind → Bool
  | .word name => decide (name ∈ definingWords)
  | _ => false

section Silence

variable {α : Type} {at? : List TokenKind → Option α} {kinds : List TokenKind}

/-- Definitions are found only at the words that start or mark them, and not at the key of a field. -/
structure FindsDefinitions (at? : List TokenKind → Option α) : Prop where
  defining : ∀ kind rest, kind.isDefining = false → at? (kind :: rest) = none
  key : ∀ name rest, at? (.word name :: .mark .colon :: rest) = none

/-- A constant is found at its keyword, which is followed by a name and an equals sign, never by a colon. -/
theorem findsDefinitions_constantAt? : FindsDefinitions constantAt? where
  defining kind rest hKind := by
    unfold constantAt?
    split
    · simp_all [TokenKind.isDefining, definingWords]
    · rfl
  key name rest := by
    unfold constantAt?
    split
    · simp_all
    · rfl

theorem findsDefinitions_functionAt? : FindsDefinitions functionAt? where
  defining kind rest hKind := by
    unfold functionAt?
    split
    · simp_all [TokenKind.isDefining, definingWords]
    · rfl
  key name rest := by
    unfold functionAt?
    split
    · simp_all
    · rfl

theorem findsDefinitions_exportAt? : FindsDefinitions exportAt? where
  defining kind rest hKind := by
    unfold exportAt?
    split
    · simp_all [TokenKind.isDefining, definingWords]
    · rfl
  key name rest := by
    unfold exportAt?
    split
    · simp_all
    · rfl

theorem foundIn_of_none {kind : TokenKind} {rest : List TokenKind} (hNone : at? (kind :: rest) = none) :
    foundIn at? (kind :: rest) = foundIn at? rest := by
  rw [foundIn, hNone, Option.toList_none, List.nil_append]

theorem foundIn_of_some {kind : TokenKind} {rest : List TokenKind} {found : α}
    (hSome : at? (kind :: rest) = some found) : foundIn at? (kind :: rest) = found :: foundIn at? rest := by
  rw [foundIn, hSome, Option.toList_some, List.singleton_append]

/-- Tokens that start no definition are passed over. The induction is over them. -/
theorem FindsDefinitions.foundIn_of_defining (hFinds : FindsDefinitions at?)
    (hKinds : ∀ kind ∈ kinds, kind.isDefining = false) (rest : List TokenKind) :
    foundIn at? (kinds ++ rest) = foundIn at? rest := by
  induction kinds with
  | nil => rfl
  | cons kind kinds ih =>
      obtain ⟨hFirst, hFurther⟩ := List.forall_mem_cons.mp hKinds
      rw [List.cons_append, foundIn_of_none (hFinds.defining kind _ hFirst), ih hFurther]

theorem isDefining_of_isPlain {kind : TokenKind} (hPlain : kind.isPlain = true) : kind.isDefining = false := by
  cases kind with
  | word name =>
      have hName : name ∉ definingWords := of_decide_eq_true (Bool.and_eq_true_iff.mp hPlain).1
      exact decide_eq_false hName
  | _ => rfl

/-- The keywords do not end like the name of a constant. -/
theorem isDefining_constantName (name : String) : (TokenKind.word (constantName name)).isDefining = false := by
  have hOther : ∀ word ∈ definingWords, "Schema".toList.isSuffixOf word.toList = false := by decide
  exact decide_eq_false fun hMem => constantName_ne (hOther _ hMem) name rfl

/-- Code defines nothing. -/
theorem FindsDefinitions.foundIn_code (hFinds : FindsDefinitions at?) {defined : List String}
    {known : String → Prop} (hCode : Code defined known kinds) (rest : List TokenKind) :
    foundIn at? (kinds ++ rest) = foundIn at? rest := by
  induction hCode with
  | nil => rfl
  | plain hPlain _ ih =>
      rw [List.cons_append, foundIn_of_none (hFinds.defining _ _ (isDefining_of_isPlain hPlain)), ih]
  | key name _ ih =>
      rw [List.cons_append, List.cons_append, foundIn_of_none (hFinds.key name _),
        foundIn_of_none (hFinds.defining _ _ rfl), ih]
  | eager hDefined _ ih =>
      rw [List.cons_append, foundIn_of_none (hFinds.defining _ _ (isDefining_constantName _)), ih]
  | postponed hKnown _ ih =>
      rw [List.append_assoc, hFinds.foundIn_of_defining fun kind hMem =>
          isDefining_of_isPlain (isPlain_lazyOpening kind hMem),
        List.cons_append, foundIn_of_none (hFinds.defining _ _ (isDefining_constantName _)), ih]

end Silence

/-- The tokens neither define anything nor end a definition, whatever follows them. -/
structure DefinesNothing (kinds : List TokenKind) : Prop where
  silent : ∀ {α : Type} {at? : List TokenKind → Option α}, FindsDefinitions at? →
    ∀ rest, foundIn at? (kinds ++ rest) = foundIn at? rest
  inside : ∀ kind ∈ kinds, kind ≠ .mark .semicolon

/-- The expression of a schema defines nothing, even if a field of it is named like a keyword. -/
theorem Code.definesNothing {kinds : List TokenKind} {defined : List String} {known : String → Prop}
    (hCode : Code defined known kinds) : DefinesNothing kinds where
  silent hFinds := hFinds.foundIn_code hCode
  inside := hCode.ne_semicolon

/-- What is found in the tokens, whatever follows them: constants, functions, and names marked as exported. -/
structure ReadsAs (kinds : List TokenKind) (constants : List ConstantText) (functions : List FunctionText)
    (exports : List String) : Prop where
  constants : ∀ rest, constantsIn (kinds ++ rest) = constants ++ constantsIn rest
  functions : ∀ rest, functionsIn (kinds ++ rest) = functions ++ functionsIn rest
  exports : ∀ rest, exportsIn (kinds ++ rest) = exports ++ exportsIn rest

theorem readsAs_of_isDefining {kinds : List TokenKind} (hKinds : ∀ kind ∈ kinds, kind.isDefining = false) :
    ReadsAs kinds [] [] [] where
  constants := findsDefinitions_constantAt?.foundIn_of_defining hKinds
  functions := findsDefinitions_functionAt?.foundIn_of_defining hKinds
  exports := findsDefinitions_exportAt?.foundIn_of_defining hKinds

section Whole

variable {kinds : List TokenKind} {constants : List ConstantText} {functions : List FunctionText}
  {exports : List String} (hReads : ReadsAs kinds constants functions exports)

include hReads

theorem ReadsAs.constantsIn_eq : constantsIn kinds = constants := by
  have hFound := hReads.constants []
  rwa [List.append_nil, show constantsIn [] = [] from rfl, List.append_nil] at hFound

theorem ReadsAs.functionsIn_eq : functionsIn kinds = functions := by
  have hFound := hReads.functions []
  rwa [List.append_nil, show functionsIn [] = [] from rfl, List.append_nil] at hFound

theorem ReadsAs.exportsIn_eq : exportsIn kinds = exports := by
  have hFound := hReads.exports []
  rwa [List.append_nil, show exportsIn [] = [] from rfl, List.append_nil] at hFound

end Whole

theorem readsAs_nil : ReadsAs [] [] [] [] where
  constants _ := rfl
  functions _ := rfl
  exports _ := rfl

/-- What is found in two pieces is found in them one after the other, since neither depends on what follows it. -/
theorem ReadsAs.append {first second : List TokenKind} {firstConstants secondConstants : List ConstantText}
    {firstFunctions secondFunctions : List FunctionText} {firstExports secondExports : List String}
    (hFirst : ReadsAs first firstConstants firstFunctions firstExports)
    (hSecond : ReadsAs second secondConstants secondFunctions secondExports) :
    ReadsAs (first ++ second) (firstConstants ++ secondConstants) (firstFunctions ++ secondFunctions)
      (firstExports ++ secondExports) where
  constants rest := by rw [List.append_assoc, hFirst.constants, hSecond.constants, List.append_assoc]
  functions rest := by rw [List.append_assoc, hFirst.functions, hSecond.functions, List.append_assoc]
  exports rest := by rw [List.append_assoc, hFirst.exports, hSecond.exports, List.append_assoc]

def constantKinds (exported : Bool) (name : String) (value : List TokenKind) : List TokenKind :=
  (if exported then [.word "export"] else []) ++
    .word "const" :: .word name :: .mark .equals :: (value ++ [.mark .semicolon])

section ConstantKinds

variable {exported : Bool} {name : String} {value rest : List TokenKind}

/-- The definition of a constant before other tokens, with its keyword in front. -/
theorem constantKinds_append (exported : Bool) (name : String) (value rest : List TokenKind) :
    constantKinds exported name value ++ rest =
      (if exported then [.word "export"] else []) ++
        .word "const" :: .word name :: .mark .equals :: (value ++ .mark .semicolon :: rest) := by
  simp [constantKinds]

/-- Behind the word that starts it, the definition of a constant defines nothing further. -/
theorem FindsDefinitions.foundIn_value {α : Type} {at? : List TokenKind → Option α} (hFinds : FindsDefinitions at?)
    (hName : (TokenKind.word name).isDefining = false) (hValue : DefinesNothing value) (rest : List TokenKind) :
    foundIn at? (.word name :: .mark .equals :: (value ++ .mark .semicolon :: rest)) = foundIn at? rest := by
  rw [foundIn_of_none (hFinds.defining _ _ hName), foundIn_of_none (hFinds.defining _ _ rfl),
    hValue.silent hFinds, foundIn_of_none (hFinds.defining _ _ rfl)]

/-- A constant is read with its value, which ends at the first semicolon, as the value holds none. -/
theorem readsAs_constantKinds (exported : Bool) (hName : (TokenKind.word name).isDefining = false)
    (hValue : DefinesNothing value) :
    ReadsAs (constantKinds exported name value) [⟨name, value⟩] [] (if exported then [name] else []) where
  constants rest := by
    have hTaken : (value ++ .mark .semicolon :: rest).takeWhile (· ≠ .mark .semicolon) = value := by
      rw [List.takeWhile_append_of_pos fun kind hMem => decide_eq_true (hValue.inside kind hMem)]
      simp
    have hFound : constantAt? (.word "const" :: .word name :: .mark .equals ::
        (value ++ .mark .semicolon :: rest)) = some ⟨name, value⟩ := by
      rw [constantAt?, hTaken]
    have hConstant : constantsIn (.word "const" :: .word name :: .mark .equals ::
        (value ++ .mark .semicolon :: rest)) = ⟨name, value⟩ :: constantsIn rest := by
      rw [constantsIn, foundIn_of_some hFound, findsDefinitions_constantAt?.foundIn_value hName hValue]
      rfl
    rw [constantKinds_append]
    cases exported with
    | false => exact hConstant
    | true => exact hConstant
  functions rest := by
    have hTail := findsDefinitions_functionAt?.foundIn_value hName hValue rest
    rw [constantKinds_append]
    cases exported with
    | false => exact hTail
    | true => exact hTail
  exports rest := by
    have hTail := findsDefinitions_exportAt?.foundIn_value hName hValue rest
    rw [constantKinds_append]
    cases exported with
    | false => exact hTail
    | true => exact congrArg (name :: ·) hTail

end ConstantKinds

/-- What a function does first: it checks its argument with the constant of a schema. -/
def checkKinds (name : String) : List TokenKind :=
  [.word (constantName name), .mark .dot, .word "safeParse", .mark .openParen, .word "data", .mark .closeParen]

/-- What stands behind the name of a function up to the first semicolon. -/
def validatorOpening (name : String) : List TokenKind :=
  [.mark .openParen, .word "data", .mark .closeParen, .mark .openBrace] ++
    .word "const" :: .word "result" :: .mark .equals :: checkKinds name

def functionKinds (name : String) (ending : List TokenKind) : List TokenKind :=
  .word "export" :: .word "function" :: .word ("validate" ++ name) ::
    (validatorOpening name ++ .mark .semicolon :: ending)

section FunctionKinds

variable {name : String} {ending rest : List TokenKind}

theorem isDefining_validate (name : String) : (TokenKind.word ("validate" ++ name)).isDefining = false := by
  rw [TokenKind.isDefining, decide_eq_false_iff_not]
  intro hMem
  have hFirst : ("validate" ++ name).toList.head? = some 'v' := by simp
  have hOther : ∀ word ∈ definingWords, word.toList.head? ≠ some 'v' := by decide
  exact hOther _ hMem hFirst

theorem isDefining_checkKinds (name : String) : ∀ kind ∈ checkKinds name, kind.isDefining = false := by
  rw [checkKinds, List.forall_mem_cons]
  exact ⟨isDefining_constantName name, by decide⟩

/-- In a function definitions are found at its first two words and at the constant for its result. -/
theorem FindsDefinitions.foundIn_functionKinds {α : Type} {at? : List TokenKind → Option α}
    (hFinds : FindsDefinitions at?) (hEnding : ∀ kind ∈ ending, kind.isDefining = false) :
    foundIn at? (functionKinds name ending ++ rest) =
      (at? (functionKinds name ending ++ rest)).toList ++
        ((at? ((functionKinds name ending).tail ++ rest)).toList ++
          ((at? (.word "const" :: .word "result" :: .mark .equals ::
            (checkKinds name ++ .mark .semicolon :: (ending ++ rest)))).toList ++ foundIn at? rest)) := by
  have hConstant : foundIn at? (.word "const" :: .word "result" :: .mark .equals ::
      (checkKinds name ++ .mark .semicolon :: (ending ++ rest))) =
      (at? (.word "const" :: .word "result" :: .mark .equals ::
        (checkKinds name ++ .mark .semicolon :: (ending ++ rest)))).toList ++ foundIn at? rest := by
    rw [foundIn, foundIn_of_none (hFinds.defining _ _ rfl), foundIn_of_none (hFinds.defining _ _ rfl),
      hFinds.foundIn_of_defining (isDefining_checkKinds name), foundIn_of_none (hFinds.defining _ _ rfl),
      hFinds.foundIn_of_defining hEnding]
  have hHead : foundIn at? (.word ("validate" ++ name) :: (validatorOpening name ++ .mark .semicolon :: ending) ++
      rest) = foundIn at? (.word "const" :: .word "result" :: .mark .equals ::
        (checkKinds name ++ .mark .semicolon :: (ending ++ rest))) := by
    rw [List.cons_append, foundIn_of_none (hFinds.defining _ _ (isDefining_validate name)), validatorOpening,
      List.append_assoc, List.append_assoc, hFinds.foundIn_of_defining (by decide)]
    simp
  rw [← hConstant, ← hHead]
  rfl

/-- A function is found, and in it the constant for the result of checking. -/
theorem readsAs_functionKinds (name : String) (hEnding : ∀ kind ∈ ending, kind.isDefining = false) :
    ReadsAs (functionKinds name ending) [⟨"result", checkKinds name⟩]
      [⟨"validate" ++ name, validatorOpening name⟩] [] where
  constants _ := findsDefinitions_constantAt?.foundIn_functionKinds hEnding
  functions _ := findsDefinitions_functionAt?.foundIn_functionKinds hEnding
  exports _ := findsDefinitions_exportAt?.foundIn_functionKinds hEnding

end FunctionKinds

def validatorLineKinds (entry : String × String) : List TokenKind :=
  [.text (quotedValue entry.1), .mark .colon, .word ("validate" ++ entry.2), .mark .comma]

def nameListKinds : List String → List TokenKind
  | [] => []
  | [name] => [.text (quotedValue name)]
  | name :: further :: names => .text (quotedValue name) :: .mark .comma :: nameListKinds (further :: names)

def readonlyLineKinds (entry : String × List String) : List TokenKind :=
  .text (quotedValue entry.1) :: .mark .colon :: .mark .openBracket ::
    (nameListKinds entry.2 ++ [.mark .closeBracket, .mark .comma])

def mapValue (lines : List (List TokenKind)) : List TokenKind :=
  .mark .openBrace :: (lines.flatten ++ [.mark .closeBrace])

section Maps

/-- The token stands inside a definition. -/
def TokenKind.isInner (kind : TokenKind) : Bool :=
  !kind.isDefining && decide (kind ≠ .mark .semicolon)

/-- Tokens inside a definition neither start one nor end it. -/
theorem definesNothing_of_isInner {kinds : List TokenKind} (hKinds : ∀ kind ∈ kinds, kind.isInner = true) :
    DefinesNothing kinds where
  silent hFinds := hFinds.foundIn_of_defining fun kind hMem => by
    simpa using (Bool.and_eq_true_iff.mp (hKinds kind hMem)).1
  inside kind hMem := of_decide_eq_true (Bool.and_eq_true_iff.mp (hKinds kind hMem)).2

theorem definesNothing_mapValue {lines : List (List TokenKind)}
    (hLines : ∀ line ∈ lines, ∀ kind ∈ line, kind.isInner = true) : DefinesNothing (mapValue lines) := by
  apply definesNothing_of_isInner
  rw [mapValue, List.forall_mem_cons, List.forall_mem_append]
  refine ⟨rfl, fun kind hMem => ?_, by decide⟩
  obtain ⟨line, hLine, hKind⟩ := List.mem_flatten.mp hMem
  exact hLines line hLine kind hKind

theorem isInner_validatorLineKinds (entry : String × String) :
    ∀ kind ∈ validatorLineKinds entry, kind.isInner = true := by
  have hFunction : (TokenKind.word ("validate" ++ entry.2)).isInner = true := by
    rw [TokenKind.isInner, isDefining_validate]
    rfl
  simp only [validatorLineKinds, List.forall_mem_cons, List.not_mem_nil]
  exact ⟨rfl, rfl, hFunction, rfl, nofun⟩

theorem isInner_nameListKinds (names : List String) : ∀ kind ∈ nameListKinds names, kind.isInner = true := by
  fun_induction nameListKinds names with
  | case1 => nofun
  | case2 name => exact List.forall_mem_singleton.mpr rfl
  | case3 name further names ih => exact List.forall_mem_cons.mpr ⟨rfl, List.forall_mem_cons.mpr ⟨rfl, ih⟩⟩

theorem isInner_readonlyLineKinds (entry : String × List String) :
    ∀ kind ∈ readonlyLineKinds entry, kind.isInner = true := by
  simp only [readonlyLineKinds, List.forall_mem_cons, List.forall_mem_append, List.not_mem_nil]
  exact ⟨rfl, rfl, rfl, isInner_nameListKinds entry.2, rfl, rfl, nofun⟩

/-- The keys of a map are those of its lines. -/
theorem keysIn_mapValue {α : Type} {line : α → List TokenKind} {key : α → String}
    (hLine : ∀ entry rest, keysIn (line entry ++ rest) = key entry :: keysIn rest) (entries : List α) :
    keysIn (mapValue (entries.map line)) = entries.map key := by
  have hLines (rest : List TokenKind) :
      keysIn ((entries.map line).flatten ++ rest) = entries.map key ++ keysIn rest := by
    induction entries with
    | nil => rfl
    | cons entry entries ih => simp [hLine, ih]
  rw [mapValue]
  exact (hLines _).trans (List.append_nil _)

/-- A line of a validator has one key, and the validator behind it is none. -/
theorem keysIn_validatorLineKinds (entry : String × String) (rest : List TokenKind) :
    keysIn (validatorLineKinds entry ++ rest) = quotedValue entry.1 :: keysIn rest :=
  rfl

/-- Quoted names in a list are no keys, as no colon follows them. -/
theorem keysIn_nameListKinds (names : List String) (rest : List TokenKind) :
    keysIn (nameListKinds names ++ .mark .closeBracket :: rest) = keysIn rest := by
  fun_induction nameListKinds names with
  | case1 => rfl
  | case2 name => rfl
  | case3 name further names ih => exact ih

/-- A line of readonly properties has one key, and the names behind it are none. -/
theorem keysIn_readonlyLineKinds (entry : String × List String) (rest : List TokenKind) :
    keysIn (readonlyLineKinds entry ++ rest) = quotedValue entry.1 :: keysIn rest := by
  have hNames := keysIn_nameListKinds entry.2 (.mark .comma :: rest)
  rw [readonlyLineKinds, List.cons_append, List.cons_append, List.cons_append, List.append_assoc]
  exact congrArg (quotedValue entry.1 :: ·) hNames

/-- The only words of the map of validators are the names of functions. -/
theorem wordsIn_validators (entries : List (String × String)) :
    wordsIn (mapValue (entries.map validatorLineKinds)) = entries.map fun entry => "validate" ++ entry.2 := by
  have hLines : wordsIn (entries.map validatorLineKinds).flatten = entries.map fun entry => "validate" ++ entry.2 := by
    induction entries with
    | nil => rfl
    | cons entry entries ih => exact congrArg (("validate" ++ entry.2) :: ·) ih
  rw [mapValue, wordsIn, List.filterMap_cons, List.filterMap_append]
  exact (List.append_nil _).trans hLines

end Maps

end SchemaForge
