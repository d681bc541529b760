import SchemaForge.Proofs.LexedText

/-! The tokens of written declarations. Each written form is cut into the tokens that its parts give,
whatever stands behind it, as long as that does not go on with its last word or number. -/
namespace SchemaForge

open Lexeme

/-- Induction over types in which the elements of a tuple and the members of a union may be used as they
stand in their list. -/
@[elab_as_elim]
theorem TypeTerm.induction_parts {motive : TypeTerm → Prop}
    (primitive : ∀ kind, motive (.primitive kind))
    (array : ∀ element, motive element → motive (.array element))
    (tuple : ∀ elements rest, (∀ element ∈ elements, motive element) → (∀ term ∈ rest, motive term) →
      motive (.tuple elements rest))
    (literal : ∀ value, motive (.literal value))
    (union : ∀ members, (∀ member ∈ members, motive member) → motive (.union members))
    (reference : ∀ name, motive (.reference name))
    (date : motive .date) (anyObject : motive .anyObject) (unknown : motive .unknown)
    (term : TypeTerm) : motive term :=
  @TypeTerm.rec motive (fun terms => ∀ term ∈ terms, motive term) (fun rest => ∀ term ∈ rest, motive term)
    primitive array tuple literal union reference date anyObject unknown
    (by simp) (fun _ _ hHead hTail => by simpa using ⟨hHead, hTail⟩) (by simp) (fun _ hTerm => by simpa using hTerm)
    term

/-- Parts with a mark between any two of them. -/
def separated (mark : Mark) : List (List TokenKind) → List TokenKind
  | [] => []
  | first :: rest => first ++ rest.flatMap (TokenKind.mark mark :: ·)

def Literal.kinds : Literal → List TokenKind
  | .text value => [.text value]
  | .number (.finite negative steps) =>
      (if negative then [.mark .minus] else []) ++ [.number (.finite false steps)]
  | .number other => [.number other]
  | .bool value => [.word (if value then "true" else "false")]
  | .null => [.word "null"]

namespace TypeTerm

def groupedKinds (term : TypeTerm) (kinds : List TokenKind) : List TokenKind :=
  if term.isUnion then .mark .openParen :: kinds ++ [.mark .closeParen] else kinds

mutual

def kinds : TypeTerm → List TokenKind
  | .primitive kind => [.word kind.keyword]
  | .array element => element.groupedKinds element.kinds ++ [.mark .openBracket, .mark .closeBracket]
  | .tuple elements rest =>
      .mark .openBracket :: separated .comma (kindsOfAll elements ++ (match rest with
        | none => []
        | some term => [.mark .ellipsis :: term.kinds])) ++ [.mark .closeBracket]
  | .literal value => value.kinds
  | .union members => separated .pipe (groupedKindsOfAll members)
  | .reference name => [.word name]
  | .date => [.word "Date"]
  | .anyObject => [.word "object"]
  | .unknown => [.word "unknown"]

def kindsOfAll : List TypeTerm → List (List TokenKind)
  | [] => []
  | term :: rest => term.kinds :: kindsOfAll rest

def groupedKindsOfAll : List TypeTerm → List (List TokenKind)
  | [] => []
  | term :: rest => term.groupedKinds term.kinds :: groupedKindsOfAll rest

end

def operandKinds (term : TypeTerm) : List TokenKind :=
  term.groupedKinds term.kinds

def tupleParts (elements : List TypeTerm) (rest : Option TypeTerm) : List (List TokenKind) :=
  elements.map kinds ++ rest.toList.map fun term => .mark .ellipsis :: term.kinds

/-- The rest of a tuple, if there is one, stays the last part. -/
theorem tupleParts_cons (element : TypeTerm) (elements : List TypeTerm) (rest : Option TypeTerm) :
    tupleParts (element :: elements) rest = element.kinds :: tupleParts elements rest := rfl

theorem kindsOfAll_eq_map (terms : List TypeTerm) : kindsOfAll terms = terms.map kinds := by
  induction terms with
  | nil => rfl
  | cons term rest ih => simp [kindsOfAll, ih]

theorem groupedKindsOfAll_eq_map (terms : List TypeTerm) :
    groupedKindsOfAll terms = terms.map operandKinds := by
  induction terms with
  | nil => rfl
  | cons term rest ih => simp [groupedKindsOfAll, operandKinds, ih]

theorem sources_eq_map (terms : List TypeTerm) : sources terms = terms.map source := by
  induction terms with
  | nil => rfl
  | cons term rest ih => simp [sources, ih]

theorem groupedSources_eq_map (terms : List TypeTerm) :
    groupedSources terms = terms.map fun term => term.grouped term.source := by
  induction terms with
  | nil => rfl
  | cons term rest ih => simp [groupedSources, ih]

/-- The recursion over lists of types is a condition on each of them. -/
theorem allPrintable_iff (terms : List TypeTerm) :
    allPrintable terms = true ↔ ∀ term ∈ terms, term.isPrintable = true := by
  induction terms with
  | nil => simp [allPrintable]
  | cons term rest ih => simp [allPrintable, ih]

theorem isPrintable_tuple (elements : List TypeTerm) (rest : Option TypeTerm) :
    (tuple elements rest).isPrintable = true ↔
      (∀ element ∈ elements, element.isPrintable = true) ∧ ∀ term ∈ rest, term.isPrintable = true := by
  cases rest <;> simp [isPrintable, allPrintable_iff]

/-- A union of fewer than two members cannot be written, as reading never gives one. -/
theorem isPrintable_union (members : List TypeTerm) :
    (union members).isPrintable = true ↔
      2 ≤ members.length ∧ ∀ member ∈ members, member.isPrintable = true := by
  simp [isPrintable, allPrintable_iff]

theorem kinds_array (element : TypeTerm) :
    (array element).kinds = element.operandKinds ++ [.mark .openBracket, .mark .closeBracket] := by
  rw [kinds, operandKinds]

theorem kinds_tuple (elements : List TypeTerm) (rest : Option TypeTerm) :
    (tuple elements rest).kinds =
      .mark .openBracket :: separated .comma (tupleParts elements rest) ++ [.mark .closeBracket] := by
  cases rest <;> simp [kinds, kindsOfAll_eq_map, tupleParts]

theorem kinds_union (members : List TypeTerm) :
    (union members).kinds = separated .pipe (members.map operandKinds) := by
  rw [kinds, groupedKindsOfAll_eq_map]

theorem operandKinds_union (members : List TypeTerm) :
    (union members).operandKinds = .mark .openParen :: (union members).kinds ++ [.mark .closeParen] := rfl

theorem operandKinds_of_not_isUnion {term : TypeTerm} (hUnion : term.isUnion = false) :
    term.operandKinds = term.kinds := by
  simp [operandKinds, groupedKinds, hUnion]

end TypeTerm

namespace Lexeme

/-- The text is cut into these tokens, whatever stands behind it and does not go on with it. -/
def Spells (source : String) (kinds : List TokenKind) : Prop :=
  ∀ rest, endsWord rest = true → kindsOf (source.toList ++ rest) = kinds ++ kindsOf rest

theorem spells_word {name : String} (hWord : isOneWord name = true) : Spells name [.word name] :=
  fun _ hEnds => kindsOf_word hWord (stopsWord_of_endsWord hEnds)

/-- A quoted text is a single token, whatever characters are escaped in it. -/
theorem spells_quotedSource (value : String) : Spells (quotedSource value) [.text value] :=
  fun rest _ => kindsOf_quotedSource value rest

/-- Texts with a separator between any two of them are cut at the separators. -/
theorem spells_intercalate {separator : String} {mark : Mark}
    (hSeparator : ∀ rest, endsWord (separator.toList ++ rest) = true ∧
      kindsOf (separator.toList ++ rest) = .mark mark :: kindsOf rest)
    (parts : List (String × List TokenKind)) (hParts : ∀ part ∈ parts, Spells part.1 part.2) :
    Spells (separator.intercalate (parts.map Prod.fst)) (separated mark (parts.map Prod.snd)) := by
  induction parts with
  | nil => exact fun _ _ => rfl
  | cons first parts ih =>
      have hFirst := hParts first List.mem_cons_self
      have hFurther := ih fun part hMem => hParts part (List.mem_cons_of_mem _ hMem)
      intro rest hEnds
      cases parts with
      | nil => simpa [separated, String.toList_intercalate] using hFirst rest hEnds
      | cons second parts =>
          have hRest := hFurther rest hEnds
          simp only [String.toList_intercalate, List.map_cons, List.intercalate_cons_cons, separated,
            List.flatMap_cons, List.append_assoc] at hRest ⊢
          rw [hFirst _ (hSeparator _).1, (hSeparator _).2, hRest]
          simp

/-- A comma and a blank end any token before them and are one token. -/
theorem comma_separates (rest : List Char) : endsWord (", ".toList ++ rest) = true ∧
    kindsOf (", ".toList ++ rest) = .mark .comma :: kindsOf rest :=
  ⟨rfl, (kindsOf_mark rfl _).trans (congrArg _ (kindsOf_space rest))⟩

/-- A bar between blanks ends any token before it and is one token. -/
theorem pipe_separates (rest : List Char) : endsWord (" | ".toList ++ rest) = true ∧
    kindsOf (" | ".toList ++ rest) = .mark .pipe :: kindsOf rest :=
  ⟨rfl, (kindsOf_space _).trans ((kindsOf_mark rfl _).trans (congrArg _ (kindsOf_space rest)))⟩

end Lexeme

/-- A literal is one token, except for a negative number, whose sign is a token of its own. -/
theorem Literal.spells_source {value : Literal} (hPrintable : value.isPrintable = true) :
    Spells value.source value.kinds := by
  cases value with
  | text value => exact spells_quotedSource value
  | bool value => cases value <;> exact spells_word (by decide)
  | null => exact spells_word (by decide)
  | number value =>
      cases value with
      | infinite negative => simp [Literal.isPrintable, Binary64.wholeMagnitude?] at hPrintable
      | nan => simp [Literal.isPrintable, Binary64.wholeMagnitude?] at hPrintable
      | finite negative steps =>
          have hWhole : steps % Binary64.stepsInOne = 0 := by
            by_contra hRemainder
            simp [Literal.isPrintable, Binary64.wholeMagnitude?, hRemainder] at hPrintable
          have hBound : steps / Binary64.stepsInOne < 2 ^ 53 := by
            simpa [Literal.isPrintable, Binary64.wholeMagnitude?, hWhole] using hPrintable
          intro rest hEnds
          have hDigits := kindsOf_toString hBound hEnds
          rw [Nat.div_mul_cancel (Nat.dvd_of_mod_eq_zero hWhole)] at hDigits
          cases negative with
          | false => simpa [Literal.source, Literal.kinds, Binary64.signText] using hDigits
          | true =>
              simp only [Literal.source, Literal.kinds, Binary64.signText, if_true, String.toList_append,
                List.append_assoc]
              exact (kindsOf_mark rfl _).trans (congrArg _ hDigits)

namespace TypeTerm

/-- Parentheses are written exactly where the tokens have them. -/
theorem spells_grouped {term : TypeTerm} (hSpells : Spells term.source term.kinds) :
    Spells (term.grouped term.source) term.operandKinds := by
  cases hUnion : term.isUnion with
  | false => simpa [grouped, operandKinds, groupedKinds, hUnion] using hSpells
  | true =>
      intro rest _
      have hInner := hSpells (')' :: rest) rfl
      rw [kindsOf_mark rfl] at hInner
      simp only [grouped, operandKinds, groupedKinds, hUnion, if_true, String.toList_append,
        List.append_assoc]
      refine (kindsOf_mark rfl _).trans ?_
      simpa using hInner

theorem source_tuple (elements : List TypeTerm) (rest : Option TypeTerm) :
    (tuple elements rest).source = "[" ++ ", ".intercalate
      (elements.map source ++ rest.toList.map fun term => "..." ++ term.source) ++ "]" := by
  cases rest <;> simp [source, sources_eq_map]

/-- The parts are cut one by one, with three dots before the rest. -/
theorem spells_tupleParts {elements : List TypeTerm} {rest : Option TypeTerm}
    (hElements : ∀ element ∈ elements, Spells element.source element.kinds)
    (hRest : ∀ term ∈ rest, Spells term.source term.kinds) :
    Spells (", ".intercalate (elements.map source ++ rest.toList.map fun term => "..." ++ term.source))
      (separated .comma (tupleParts elements rest)) := by
  have hParts := spells_intercalate comma_separates
    (elements.map (fun element => (element.source, element.kinds)) ++
      rest.toList.map fun term => ("..." ++ term.source, .mark .ellipsis :: term.kinds)) (by
        simp only [List.mem_append, List.mem_map, Option.mem_toList]
        rintro _ (⟨element, hMem, rfl⟩ | ⟨term, hMem, rfl⟩)
        · exact hElements element hMem
        · intro following hEnds
          rw [String.toList_append]
          exact (kindsOf_ellipsis _).trans (congrArg _ (hRest term hMem following hEnds)))
  simpa [tupleParts, Function.comp_def] using hParts

/-- A written type is cut into its tokens. -/
theorem spells_source {term : TypeTerm} (hPrintable : term.isPrintable = true) :
    Spells term.source term.kinds := by
  induction term using TypeTerm.induction_parts with
  | primitive kind => cases kind <;> exact spells_word (by decide)
  | date => exact spells_word (by decide)
  | anyObject => exact spells_word (by decide)
  | unknown => exact spells_word (by decide)
  | literal value => exact Literal.spells_source hPrintable
  | reference name =>
      simp only [isPrintable, Bool.and_eq_true] at hPrintable
      exact spells_word hPrintable.1
  | array element ih =>
      intro rest _
      have hElement := spells_grouped (ih hPrintable) ('[' :: ']' :: rest) rfl
      rw [kindsOf_mark rfl, kindsOf_mark rfl] at hElement
      simpa [source, kinds_array, String.toList_append] using hElement
  | tuple elements tail ihElements ihTail =>
      rw [isPrintable_tuple] at hPrintable
      have hParts := spells_tupleParts (fun element hMem => ihElements element hMem (hPrintable.1 element hMem))
        (fun term hMem => ihTail term hMem (hPrintable.2 term hMem))
      intro rest _
      have hInner := hParts (']' :: rest) rfl
      rw [kindsOf_mark rfl] at hInner
      simp only [source_tuple, kinds_tuple, String.toList_append, List.append_assoc]
      refine (kindsOf_mark rfl _).trans ?_
      simpa using hInner
  | union members ih =>
      rw [isPrintable_union] at hPrintable
      have hMembers := spells_intercalate pipe_separates
        (members.map fun member => (member.grouped member.source, member.operandKinds)) (by
          simp only [List.mem_map]
          rintro _ ⟨member, hMem, rfl⟩
          exact spells_grouped (ih member hMem (hPrintable.2 member hMem)))
      simpa [source, kinds_union, groupedSources_eq_map, Function.comp_def] using hMembers

end TypeTerm

def nameKind (name : String) : TokenKind :=
  if isOneWord name then .word name else .text name

def Property.kinds (property : Property) : List TokenKind :=
  (if property.readonly then [.word "readonly"] else []) ++ nameKind property.name ::
    ((if property.optional then [.mark .question] else []) ++ .mark .colon :: property.type.kinds)

def membersKinds (properties : List Property) : List TokenKind :=
  properties.flatMap fun property => property.kinds ++ [.mark .semicolon]

def Body.kinds : Body → List TokenKind
  | .object properties => .mark .openBrace :: membersKinds properties ++ [.mark .closeBrace]
  | .alias term => term.kinds

def Declaration.kinds (declaration : Declaration) : List TokenKind :=
  (if declaration.exported then [.word "export"] else []) ++
    .word "type" :: .word declaration.name :: .mark .equals :: declaration.body.kinds ++ [.mark .semicolon]

theorem spells_nameSource (name : String) : Spells (nameSource name) [nameKind name] := by
  cases hWord : isOneWord name with
  | true => simpa [nameSource, nameKind, hWord] using spells_word hWord
  | false => simpa [nameSource, nameKind, hWord] using spells_quotedSource name

/-- A word with a blank behind it is one token, whatever follows the blank. -/
theorem kindsOf_word_space {word : String} (hWord : isOneWord word = true) (rest : List Char) :
    kindsOf ((word ++ " ").toList ++ rest) = .word word :: kindsOf rest := by
  have hRead := kindsOf_word hWord (show stopsWord (' ' :: rest) = true from rfl)
  simpa [String.toList_append] using hRead

/-- A property is cut into its modifiers, its name, its type and the semicolon behind it. -/
theorem kindsOf_property {property : Property} (hPrintable : property.type.isPrintable = true)
    (rest : List Char) :
    kindsOf (property.source.toList ++ rest) = property.kinds ++ .mark .semicolon :: kindsOf rest := by
  have hType := TypeTerm.spells_source hPrintable (';' :: rest) rfl
  rw [kindsOf_mark rfl] at hType
  have hColon : kindsOf (": ".toList ++ (property.type.source.toList ++ ';' :: rest)) =
      .mark .colon :: (property.type.kinds ++ .mark .semicolon :: kindsOf rest) :=
    (kindsOf_mark rfl _).trans (congrArg _ ((kindsOf_space _).trans hType))
  have hName : kindsOf ((nameSource property.name).toList ++
      ((if property.optional then "?" else "").toList ++
        (": ".toList ++ (property.type.source.toList ++ ';' :: rest)))) =
      nameKind property.name :: ((if property.optional then [.mark .question] else []) ++
        .mark .colon :: (property.type.kinds ++ .mark .semicolon :: kindsOf rest)) := by
    cases property.optional with
    | false =>
        refine (spells_nameSource property.name _ rfl).trans ?_
        exact congrArg _ hColon
    | true =>
        refine (spells_nameSource property.name _ rfl).trans ?_
        exact congrArg _ ((kindsOf_mark rfl _).trans (congrArg _ hColon))
  simp only [Property.source, Property.kinds, String.toList_append, List.append_assoc]
  cases property.readonly with
  | false => simpa using hName
  | true =>
      refine (kindsOf_word_space (show isOneWord "readonly" = true by decide) _).trans ?_
      simpa using hName

/-- The induction is over the properties. The gap between them is blank, so it gives no token. -/
theorem kindsOf_membersSource {gap : String} {properties : List Property} (hGap : Text.isBlankText gap = true)
    (hPrintable : ∀ property ∈ properties, property.type.isPrintable = true) (rest : List Char) :
    kindsOf ((membersSource gap properties).toList ++ rest) = membersKinds properties ++ kindsOf rest := by
  induction properties with
  | nil => rfl
  | cons property properties ih =>
      have hFurther := ih fun other hMem => hPrintable other (List.mem_cons_of_mem _ hMem)
      simp only [membersSource, String.toList_append, List.append_assoc]
      rw [kindsOf_property (hPrintable property List.mem_cons_self), kindsOf_blanks (List.all_eq_true.mp hGap),
        hFurther]
      simp [membersKinds]

/-- A body is the members of an object in braces or a type. -/
theorem Body.spells_source (layout : Layout) {body : Body} (hPrintable : body.isPrintable = true) :
    Spells (body.source layout) body.kinds := by
  rcases body with properties | term
  · intro rest _
    have hProperties := kindsOf_membersSource layout.memberGap_blank (by simpa [Body.isPrintable] using hPrintable)
      ('\x7d' :: rest)
    rw [kindsOf_mark rfl] at hProperties
    simp only [Body.source, Body.kinds, String.toList_append, List.append_assoc]
    refine (kindsOf_mark rfl _).trans (congrArg _ ?_)
    refine (kindsOf_blanks (List.all_eq_true.mp layout.memberGap_blank) _).trans ?_
    simpa using hProperties
  · exact TypeTerm.spells_source hPrintable

/-- A declaration ends with a semicolon, so anything may follow. -/
theorem kindsOf_declaration (layout : Layout) {declaration : Declaration}
    (hPrintable : declaration.isPrintable = true) (rest : List Char) :
    kindsOf ((declaration.source layout).toList ++ rest) = declaration.kinds ++ kindsOf rest := by
  simp only [Declaration.isPrintable, Bool.and_eq_true] at hPrintable
  have hBody := Body.spells_source layout hPrintable.2 (';' :: rest) rfl
  rw [kindsOf_mark rfl] at hBody
  have hName := kindsOf_word hPrintable.1
    (show stopsWord (" = ".toList ++ ((declaration.body.source layout).toList ++ ';' :: rest)) = true from rfl)
  have hEquals : kindsOf (" = ".toList ++ ((declaration.body.source layout).toList ++ ';' :: rest)) =
      .mark .equals :: (declaration.body.kinds ++ .mark .semicolon :: kindsOf rest) :=
    (kindsOf_space _).trans ((kindsOf_equals _).trans (congrArg _ hBody))
  rw [hEquals] at hName
  have hType := (kindsOf_word_space (show isOneWord "type" = true by decide) _).trans (congrArg _ hName)
  simp only [Declaration.source, Declaration.kinds, String.toList_append, List.append_assoc]
  cases declaration.exported with
  | false => simpa using hType
  | true =>
      refine (kindsOf_word_space (show isOneWord "export" = true by decide) _).trans ?_
      simpa using hType

/-- Written declarations with white space between them are cut into their tokens one after the other. -/
theorem kindsOf_sourceOf (layout : Layout) {declarations : List Declaration}
    (hPrintable : ∀ declaration ∈ declarations, declaration.isPrintable = true) :
    kindsOf (sourceOf layout declarations).toList = declarations.flatMap Declaration.kinds := by
  induction declarations with
  | nil => rfl
  | cons first declarations ih =>
      have hFirst := kindsOf_declaration layout (hPrintable first List.mem_cons_self)
      have hFurther := ih fun other hMem => hPrintable other (List.mem_cons_of_mem _ hMem)
      simp only [sourceOf, String.toList_intercalate] at hFurther ⊢
      cases declarations with
      | nil => simpa [kindsOf_nil] using hFirst []
      | cons second declarations =>
          simp only [List.map_cons, List.intercalate_cons_cons, List.append_assoc] at hFurther ⊢
          rw [hFirst, kindsOf_blanks (List.all_eq_true.mp layout.declarationGap_blank), hFurther]
          simp

end SchemaForge
