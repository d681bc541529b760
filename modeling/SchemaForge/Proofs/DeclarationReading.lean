import SchemaForge.Declaration.Grammar
import SchemaForge.Proofs.TypeReading

/-! Reading written declarations gives them back. A name is taken as the name of a member even where the
same word could be a modifier or an accessor, since a question mark or a colon stands behind it. -/
namespace SchemaForge

namespace Grammar

open Reader

variable {following : List TokenKind} {tokens : List Token}

/-- What stands behind the name of a written member does not name one. -/
theorem namesMember_of_startsWithMark (hNext : StartsWithMark [.question, .colon] (tokens.map Token.kind)) :
    namesMember tokens = false := by
  obtain ⟨mark, hMem, hHead⟩ := hNext
  rcases tokens with _ | ⟨⟨kind, position⟩, tokens⟩
  · rfl
  · obtain rfl : kind = .mark mark := by simpa using hHead
    simp only [List.mem_cons, List.not_mem_nil, or_false] at hMem
    rcases hMem with rfl | rfl <;> rfl

theorem nameKind_eq_word_or_text (name : String) : nameKind name = .word name ∨ nameKind name = .text name := by
  unfold nameKind
  split
  · exact .inl rfl
  · exact .inr rfl

/-- A name that is not followed by another is no modifier, even if it reads like one. -/
theorem skipReadonly_name (hNext : namesMember tokens = false) (name : String) (position : Position) :
    skipReadonly (⟨nameKind name, position⟩ :: tokens) = (false, ⟨nameKind name, position⟩ :: tokens) := by
  rcases nameKind_eq_word_or_text name with hKind | hKind <;> rw [hKind]
  · unfold skipReadonly
    split
    · rename_i hEq
      simp only [List.cons.injEq, Token.mk.injEq, TokenKind.word.injEq] at hEq
      obtain ⟨⟨rfl, rfl⟩, rfl⟩ := hEq
      simp [hNext]
    · rfl
  · rfl

/-- A name that is not followed by another starts no accessor, even if it reads like one. -/
theorem startsAccessor_name (hNext : namesMember tokens = false) (name : String) (position : Position) :
    startsAccessor (⟨nameKind name, position⟩ :: tokens) = false := by
  rcases nameKind_eq_word_or_text name with hKind | hKind <;> rw [hKind]
  · unfold startsAccessor
    split <;> simp_all
  · rfl

/-- A member is a property when its name stands behind the modifier and none could stand behind the name. -/
theorem member_of_skipReadonly {all : List Token} {name : String} {readonly : Bool} {position : Position}
    (hMapping : startsMapping all = false)
    (hSkip : skipReadonly all = (readonly, ⟨nameKind name, position⟩ :: tokens))
    (hNext : namesMember tokens = false) (final : Position) :
    member final all = namedProperty name readonly final tokens := by
  rw [member, remaining_bind]
  simp only [hMapping, Bool.false_eq_true, if_false]
  rw [remaining_bind, hSkip]
  refine (continueAt_bind _ _ _ _).trans ?_
  simp only [startsAccessor_name hNext, Bool.false_eq_true, if_false]
  rcases nameKind_eq_word_or_text name with hKind | hKind <;> rw [hKind]
  · exact continueAt_bind _ _ _ _
  · exact continueAt_bind _ _ _ _

/-- A written property is read with its type, up to what ends a type. -/
theorem reads_namedProperty {name : String} {readonly optional : Bool} {type : TypeTerm}
    (hPrintable : type.isPrintable = true) (hEnds : StartsWithMark typeEnds following) :
    Reads (namedProperty name readonly)
      ((if optional then [.mark .question] else []) ++ .mark .colon :: type.kinds)
      (some ⟨name, type, optional, readonly⟩) following := by
  have hBehind : Reads (do
      if startsMethod (← remaining) then skipped (.method name)
      else
        expect .colon
        let type ← typeTerm
        return some ⟨name, type, optional, readonly⟩)
      (.mark .colon :: type.kinds) (some ⟨name, type, optional, readonly⟩) following := by
    apply Reads.remaining_bind
    intro tokens hTokens
    obtain ⟨⟨_, position⟩, tokens, rfl, rfl, _⟩ := List.map_eq_cons_iff.mp hTokens
    exact Reads.expect_bind (Reads.bind_done (reads_typeTerm hPrintable hEnds) (Reads.pure _ _))
  cases optional with
  | false => exact Reads.bind_peek (Reads.accept_other (by simp)) hBehind
  | true => exact Reads.accept_bind hBehind

/-- A written member is read as the property it was written for. -/
theorem reads_member {property : Property} (hPrintable : property.type.isPrintable = true)
    (hEnds : StartsWithMark typeEnds following) :
    Reads member property.kinds (some property) following := by
  obtain ⟨name, type, optional, readonly⟩ := property
  intro final tokens rest hTokens hRest
  have hNamed : ∀ left : List Token, left.map Token.kind =
      (if optional then [.mark .question] else []) ++ .mark .colon :: type.kinds →
      namesMember (left ++ rest) = false ∧
        namedProperty name readonly final (left ++ rest) = .done (some ⟨name, type, optional, readonly⟩) rest [] := by
    intro left hLeft
    refine ⟨namesMember_of_startsWithMark ?_, reads_namedProperty hPrintable hEnds final left rest hLeft hRest⟩
    rw [List.map_append, hLeft]
    cases optional <;> exact StartsWithMark.cons (by decide) _
  cases readonly with
  | true =>
      obtain ⟨⟨_, modifier⟩, tokens, rfl, rfl, hName⟩ := List.map_eq_cons_iff.mp hTokens
      obtain ⟨⟨_, position⟩, left, rfl, rfl, hLeft⟩ := List.map_eq_cons_iff.mp hName
      obtain ⟨hNext, hRead⟩ := hNamed left hLeft
      have hNames : namesMember (⟨nameKind name, position⟩ :: (left ++ rest)) = true := by
        rcases nameKind_eq_word_or_text name with hKind | hKind <;> rw [hKind] <;> rfl
      have hSkip : skipReadonly (⟨.word "readonly", modifier⟩ :: ⟨nameKind name, position⟩ :: (left ++ rest)) =
          (true, ⟨nameKind name, position⟩ :: (left ++ rest)) := if_pos hNames
      exact (member_of_skipReadonly rfl hSkip hNext final).trans hRead
  | false =>
      obtain ⟨⟨_, position⟩, left, rfl, rfl, hLeft⟩ := List.map_eq_cons_iff.mp hTokens
      obtain ⟨hNext, hRead⟩ := hNamed left hLeft
      have hMapping : startsMapping (⟨nameKind name, position⟩ :: (left ++ rest)) = false := by
        rcases nameKind_eq_word_or_text name with hKind | hKind <;> rw [hKind] <;> rfl
      exact (member_of_skipReadonly hMapping (skipReadonly_name hNext name position) hNext final).trans hRead

theorem startsOperand_propertyKinds (property : Property) : startsOperand property.kinds = true := by
  unfold Property.kinds
  cases property.readonly with
  | true => rfl
  | false => rcases nameKind_eq_word_or_text property.name with hKind | hKind <;> rw [hKind] <;> rfl

/-- Semicolons before a member or a closing brace are passed over, and no more. -/
theorem skipSeparators_append {separators : List Token} (hTokens : skipSeparators tokens = tokens)
    (hSeparators : ∀ token ∈ separators, token.kind = .mark .semicolon) :
    skipSeparators (separators ++ tokens) = tokens := by
  induction separators with
  | nil => exact hTokens
  | cons separator separators ih =>
      rw [List.forall_mem_cons] at hSeparators
      obtain ⟨kind, position⟩ := separator
      obtain rfl : kind = .mark .semicolon := hSeparators.1
      exact ih hSeparators.2

theorem skipSeparators_eq_self (hSemicolon : (tokens.map Token.kind).head? ≠ some (.mark .semicolon))
    (hComma : (tokens.map Token.kind).head? ≠ some (.mark .comma)) : skipSeparators tokens = tokens := by
  unfold skipSeparators
  split
  · simp at hSemicolon
  · simp at hComma
  · rfl

def memberOrEnd (bound : Nat) : Reader (List Property) := do
  if ← accept .closeBrace then return []
  else
    let property ← member
    if endsMember (← remaining) then
      let further ← members bound
      return property.toList ++ further
    else refuseNext .propertyEnd

/-- Separators are passed over, and what follows is a member or the closing brace. -/
theorem reads_members_succ {separators kinds : List TokenKind} {properties : List Property} {bound : Nat}
    (hSeparators : ∀ kind ∈ separators, kind = .mark .semicolon)
    (hStarts : startsOperand (kinds ++ following) = true ∨ StartsWithMark [.closeBrace] (kinds ++ following))
    (hNext : Reads (memberOrEnd bound) kinds properties following) :
    Reads (members (bound + 1)) (separators ++ kinds) properties following := by
  have hHead : ∀ mark ∈ [Mark.semicolon, .comma], (kinds ++ following).head? ≠ some (.mark mark) := by
    have hOther : ∀ mark ∈ [Mark.semicolon, .comma],
        mark ∉ [Mark.minus, .openBracket, .openParen] ∧ mark ∉ [Mark.closeBrace] := by decide
    intro mark hMem
    rcases hStarts with hOperand | hBrace
    · exact head?_ne_of_startsOperand hOperand (hOther mark hMem).1
    · exact hBrace.head?_ne (hOther mark hMem).2
  refine Reads.skip_bind (fun taken tokens hTaken hTokens => ?_) (Reads.remaining_bind fun tokens hTokens => ?_)
  · rw [← hTokens] at hHead
    apply skipSeparators_append (skipSeparators_eq_self (hHead _ (by decide)) (hHead _ (by decide)))
    exact fun token hMem => hSeparators _ (hTaken ▸ List.mem_map_of_mem hMem)
  · have hSome : tokens.isEmpty = false := by
      cases tokens with
      | nil =>
          rw [← hTokens] at hStarts
          rcases hStarts with hOperand | ⟨_, _, hBrace⟩
          · cases hOperand
          · cases hBrace
      | cons token tokens => rfl
    simp only [hSome, Bool.false_eq_true, if_false]
    exact hNext

/-- Written members are read up to their closing brace. The induction is on the members; the semicolon behind
one is passed over by the step that reads the next. -/
theorem reads_members {properties : List Property} {separators : List TokenKind} {bound : Nat}
    (hPrintable : ∀ property ∈ properties, property.type.isPrintable = true)
    (hSeparators : ∀ kind ∈ separators, kind = .mark .semicolon) (hBound : properties.length < bound) :
    Reads (members bound) (separators ++ (membersKinds properties ++ [.mark .closeBrace])) properties
      following := by
  induction properties generalizing separators bound with
  | nil =>
      obtain ⟨bound, rfl⟩ : ∃ fewer, bound = fewer + 1 := ⟨bound - 1, by omega⟩
      exact reads_members_succ hSeparators (.inr (StartsWithMark.cons (by decide) _))
        (Reads.if_accepted (Reads.pure _ _))
  | cons property properties ih =>
      obtain ⟨bound, rfl⟩ : ∃ fewer, bound = fewer + 1 := ⟨bound - 1, by omega⟩
      rw [List.forall_mem_cons] at hPrintable
      have hFurther := @ih [.mark .semicolon] bound hPrintable.2 (by simp) (Nat.lt_of_succ_lt_succ hBound)
      have hKinds : membersKinds (property :: properties) ++ [.mark .closeBrace] =
          property.kinds ++ ([.mark .semicolon] ++ (membersKinds properties ++ [.mark .closeBrace])) := by
        simp [membersKinds]
      have hStarts := startsOperand_propertyKinds property
      rw [hKinds]
      apply reads_members_succ hSeparators (.inl (startsOperand_append (startsOperand_append hStarts _) _))
      refine Reads.if_not_accepted ?_ ?_
      · exact head?_ne_of_startsOperand (startsOperand_append (startsOperand_append hStarts _) _) (by decide)
      · apply Reads.bind (reads_member hPrintable.1 (StartsWithMark.cons (by decide) _))
        apply Reads.remaining_bind
        intro tokens hTokens
        obtain ⟨⟨_, position⟩, tokens, rfl, rfl, _⟩ := List.map_eq_cons_iff.mp hTokens
        exact Reads.bind_done hFurther (Reads.pure _ _)

/-- The number of tokens bounds the number of members. -/
theorem reads_objectType {properties : List Property}
    (hPrintable : ∀ property ∈ properties, property.type.isPrintable = true) :
    Reads objectType (.mark .openBrace :: (membersKinds properties ++ [.mark .closeBrace])) properties
      following := by
  refine Reads.expect_bind (Reads.remaining_bind fun tokens hTokens => ?_)
  have hBound : properties.length < tokens.length + 1 := by
    have hMembers : properties.length ≤ (membersKinds properties).length :=
      length_le_length_flatMap (fun property => by simp) properties
    rw [length_of_map_kind hTokens, List.length_append]
    omega
  exact @reads_members following properties [] _ hPrintable (by simp) hBound

/-- A written body is followed by a semicolon, so it is not continued. -/
theorem reads_body {body : Body} (hPrintable : body.isPrintable = true)
    (hEnds : StartsWithMark [.semicolon] following) (name : String) :
    Reads (Grammar.body name) body.kinds body following := by
  apply Reads.remaining_bind
  intro tokens hTokens
  rw [← List.head?_map, hTokens]
  rcases body with properties | term
  · have hObject := @reads_objectType following properties (by simpa [Body.isPrintable] using hPrintable)
    refine Reads.bind_done hObject (Reads.remaining_bind fun tokens hTokens => ?_)
    have hStops : continuesType tokens = false := by
      obtain ⟨mark, hMem, hHead⟩ := hEnds
      obtain rfl := List.mem_singleton.mp hMem
      obtain ⟨behind, rfl⟩ := List.head?_eq_some_iff.mp hHead
      obtain ⟨⟨_, position⟩, tokens, rfl, rfl, _⟩ := List.map_eq_cons_iff.mp hTokens
      rfl
    simp only [hStops, Bool.false_eq_true, if_false]
    exact Reads.pure _ _
  · have hHead : ((Body.alias term).kinds ++ following).head? ≠ some (.mark .openBrace) :=
      head?_ne_of_startsOperand (startsOperand_append (TypeTerm.startsOperand_kinds hPrintable) _) (by decide)
    have hAlias : Reads (do return Body.alias (← typeTerm)) term.kinds (.alias term) following :=
      Reads.bind_done (reads_typeTerm hPrintable (hEnds.mono (by decide))) (Reads.pure _ _)
    generalize ((Body.alias term).kinds ++ following).head? = head at hHead ⊢
    rcases head with _ | kind
    · exact hAlias
    · cases kind with
      | mark mark =>
          cases mark
          case openBrace => exact absurd rfl hHead
          all_goals exact hAlias
      | _ => exact hAlias

/-- A written declaration is read up to and including its semicolon. -/
theorem reads_declaration {body : Body} (hPrintable : body.isPrintable = true) (heading : Heading)
    (position : Position) :
    Reads (declaration position heading) (.mark .equals :: (body.kinds ++ [.mark .semicolon]))
      ⟨heading.name, heading.exported, body, position⟩ following := by
  apply Reads.remaining_bind
  intro tokens hTokens
  have hGeneric : (tokens.head?.map Token.kind == some (.mark .less)) = false := by
    rw [← List.head?_map, hTokens]
    rfl
  simp only [hGeneric, Bool.false_eq_true, if_false]
  refine Reads.expect_bind (Reads.bind (reads_body hPrintable (StartsWithMark.cons (by decide) _) _) ?_)
  exact Reads.accept_bind (Reads.pure _ _)

def headingKinds (heading : Heading) : List TokenKind :=
  (if heading.exported then [.word "export"] else []) ++ [.word "type", .word heading.name]

theorem heading?_written {heading : Heading} {next : Token} (hTokens : tokens.map Token.kind = headingKinds heading)
    (hNext : next.kind = .mark .equals) (rest : List Token) :
    heading? (tokens ++ next :: rest) = some (heading, next :: rest) := by
  obtain ⟨exported, name⟩ := heading
  cases exported with
  | true =>
      obtain ⟨⟨_, first⟩, tokens, rfl, rfl, hType⟩ := List.map_eq_cons_iff.mp hTokens
      obtain ⟨⟨_, second⟩, tokens, rfl, rfl, hName⟩ := List.map_eq_cons_iff.mp hType
      obtain ⟨⟨_, third⟩, tokens, rfl, rfl, hNil⟩ := List.map_eq_cons_iff.mp hName
      rw [List.map_eq_nil_iff.mp hNil]
      simp [heading?, startsWithWord, hNext]
  | false =>
      obtain ⟨⟨_, first⟩, tokens, rfl, rfl, hName⟩ := List.map_eq_cons_iff.mp hTokens
      obtain ⟨⟨_, second⟩, tokens, rfl, rfl, hNil⟩ := List.map_eq_cons_iff.mp hName
      rw [List.map_eq_nil_iff.mp hNil]
      simp [heading?, startsWithWord, hNext]

/-- Tokens that belong to a declaration are passed over one by one, which amounts to dropping them. -/
theorem scanFrom_eq_scanFrom_drop (final : Position) (taken depth : Nat) (tokens : List Token) :
    scanFrom final taken depth tokens = scanFrom final 0 depth (tokens.drop taken) := by
  induction tokens generalizing taken with
  | nil => simp [scanFrom]
  | cons token tokens ih =>
      cases taken with
      | zero => rfl
      | succ taken => exact ih taken

/-- Where a declaration starts, scanning goes on behind what its reading took. -/
theorem scanFrom_of_declaration {first : Token} {taken rest following : List Token} {heading : Heading}
    {found : Declaration} {warnings : List Warning} {final : Position}
    (hHeading : heading? (first :: (taken ++ rest)) = some (heading, following))
    (hFound : declaration first.position heading final following = .done found rest warnings) :
    scanFrom final 0 0 (first :: (taken ++ rest)) = (scanFrom final 0 0 rest).after found warnings := by
  rw [scanFrom]
  simp only [if_true, hHeading, hFound]
  rw [scanFrom_eq_scanFrom_drop]
  simp

/-- A written declaration is found at its place, and scanning goes on behind it. -/
theorem scanFrom_written {written : Declaration} (hPrintable : written.isPrintable = true)
    (hTokens : tokens.map Token.kind = written.kinds) (final : Position) (rest : List Token) :
    ∃ position, scanFrom final 0 0 (tokens ++ rest) =
      (scanFrom final 0 0 rest).after { written with position := position } [] := by
  simp only [Declaration.isPrintable, Bool.and_eq_true] at hPrintable
  have hKinds : written.kinds = headingKinds ⟨written.exported, written.name⟩ ++
      .mark .equals :: (written.body.kinds ++ [.mark .semicolon]) := by
    simp [Declaration.kinds, headingKinds]
  obtain ⟨head, behind, rfl, hHead, hBehind⟩ := List.map_eq_append_iff.mp (hTokens.trans hKinds)
  have hRead := fun position => reads_declaration hPrintable.2 ⟨written.exported, written.name⟩ position
    final behind rest hBehind rfl
  obtain ⟨next, behind, rfl, hNext, _⟩ := List.map_eq_cons_iff.mp hBehind
  have hHeading := heading?_written hHead hNext (behind ++ rest)
  obtain ⟨first, others, rfl⟩ : ∃ first others, head = first :: others := by
    cases head with
    | nil => simp [headingKinds] at hHead
    | cons first others => exact ⟨first, others, rfl⟩
  refine ⟨first.position, ?_⟩
  have hScan : scanFrom final 0 0 (first :: ((others ++ next :: behind) ++ rest)) = _ :=
    scanFrom_of_declaration (by simpa using hHeading) (hRead first.position)
  simpa using hScan

/-- Written declarations are found one after the other. -/
theorem scanFrom_allWritten {written : List Declaration}
    (hPrintable : ∀ declaration ∈ written, declaration.isPrintable = true)
    (hTokens : tokens.map Token.kind = written.flatMap Declaration.kinds) (final : Position) :
    ∃ found, scanFrom final 0 0 tokens = ⟨.ok found, []⟩ ∧
      found.map Declaration.content = written.map Declaration.content := by
  induction written generalizing tokens with
  | nil =>
      rw [List.map_eq_nil_iff.mp hTokens]
      exact ⟨[], rfl, rfl⟩
  | cons first written ih =>
      rw [List.forall_mem_cons] at hPrintable
      obtain ⟨taken, rest, rfl, hTaken, hRest⟩ := List.map_eq_append_iff.mp hTokens
      obtain ⟨position, hFirst⟩ := scanFrom_written hPrintable.1 hTaken final rest
      obtain ⟨found, hScan, hContent⟩ := ih hPrintable.2 hRest
      refine ⟨{ first with position := position } :: found, ?_, ?_⟩
      · rw [hFirst, hScan]
        rfl
      · simpa [Declaration.content] using hContent

end Grammar

/-- Scanning undoes printing: the written declarations are found again, in order and each with its name, its
export and its body, and nothing is reported. Only their places are those of the text. -/
theorem scan_sourceOf (layout : Layout) {written : List Declaration}
    (hPrintable : ∀ declaration ∈ written, declaration.isPrintable = true) :
    ∃ found, Grammar.scan (sourceOf layout written) = ⟨.ok found, []⟩ ∧
      found.map Declaration.content = written.map Declaration.content := by
  have hTokens : (tokenize (sourceOf layout written)).map Token.kind = written.flatMap Declaration.kinds := by
    rw [Lexeme.map_kind_tokenize, kindsOf_sourceOf layout hPrintable]
  exact Grammar.scanFrom_allWritten hPrintable hTokens _

/-- Declarations whose names and types look like other parts of a source. -/
def lookalikes : List Declaration :=
  [ { name := "type", exported := true, position := Position.start
      body := .object
        [ ⟨"readonly", .array (.union [.literal (.text "a \"b\"\n"), .literal .null]), true, true⟩,
          ⟨"get", .tuple [.reference "set", .tuple [] none] (some (.array .date)), true, false⟩,
          ⟨"not a word", .reference "type", false, false⟩ ] },
    { name := "export", exported := false, position := Position.start
      body := .alias (.union
        [.union [.anyObject, .array (.tuple [] none)], .literal (.number (.finite true (5 * Binary64.stepsInOne))),
          .array (.array (.primitive .string))]) } ]

/-- Names such as `readonly` and `get` and types such as a reference to `type` are read back all the same. -/
theorem scan_sourceOf_lookalikes : (∀ declaration ∈ lookalikes, declaration.isPrintable = true) ∧
    ∃ found, Grammar.scan (sourceOf ⟨"\n  ", "", by decide, by decide⟩ lookalikes) = ⟨.ok found, []⟩ ∧
      found.map Declaration.content = lookalikes.map Declaration.content :=
  have hPrintable : ∀ declaration ∈ lookalikes, declaration.isPrintable = true := by decide +kernel
  ⟨hPrintable, scan_sourceOf _ hPrintable⟩

end SchemaForge
