import SchemaForge.Proofs.RevisedMembers

/-! Members that are no properties. A method, an index, call or construct signature, an accessor or a mapped member
is passed over up to the semicolon behind it, so it can be deleted without a change of what is found. Angle brackets
are not counted on the way: a comma directly in them ends the member too early. -/
namespace SchemaForge.Grammar

open Reader

/-- How a member starts that is no property. A construct signature starts as a method does. -/
inductive StartsUnsupported : List TokenKind → Prop where
  | method {kind : TokenKind} {name : String} {opening : Mark} (hName : propertyName? kind = some name)
      (hOpening : opening ∈ [Mark.openParen, .less]) (optional : Bool) (further : List TokenKind) :
      StartsUnsupported (kind :: ((if optional then [.mark .question] else []) ++ .mark opening :: further))
  | index (readonly : Bool) (further : List TokenKind) :
      StartsUnsupported ((if readonly then [.word "readonly"] else []) ++ .mark .openBracket :: further)
  | call {opening : Mark} (hOpening : opening ∈ [Mark.openParen, .less]) (further : List TokenKind) :
      StartsUnsupported (.mark opening :: further)
  | accessor {keyword : String} {kind : TokenKind} (hKeyword : keyword ∈ ["get", "set"])
      (hName : (propertyName? kind).isSome ∨ kind = .mark .openBracket) (further : List TokenKind) :
      StartsUnsupported (.word keyword :: kind :: further)
  | mapped {sign : TokenKind} (hSign : sign ∈ [TokenKind.mark .minus, .other '+']) (further : List TokenKind) :
      StartsUnsupported (sign :: .word "readonly" :: further)

/-- A member that is no property, in which brackets match. No semicolon and no comma stands outside its parentheses,
brackets and braces. -/
structure UnsupportedMember (kinds : List TokenKind) : Prop where
  starts : StartsUnsupported kinds
  nested : wellNested kinds = true
  enclosed : ∀ kind ∈ exposed [.closeBrace, .closeBracket, .closeParen] [] kinds,
    kind ∉ [TokenKind.mark .semicolon, .mark .comma]

/-- A member that is no property is added, and a semicolon behind it. -/
inductive AddsUnsupported : List TokenKind → List TokenKind → Prop where
  | intro {kinds : List TokenKind} (hMember : UnsupportedMember kinds) :
      AddsUnsupported [] (kinds ++ [.mark .semicolon])

variable {kinds : List TokenKind} {tokens rest : List Token} {final place : Position}

/-- Such a member is passed over up to its semicolon. -/
theorem UnsupportedMember.skipMember_eq (hMember : UnsupportedMember (tokens.map Token.kind)) (place : Position)
    (rest : List Token) :
    skipMember 0 (tokens ++ ⟨.mark .semicolon, place⟩ :: rest) = ⟨.mark .semicolon, place⟩ :: rest := by
  rw [skipMember_eq_skipTokens,
    skipTokens_of_wellNested countsBrackets_memberStep hMember.nested hMember.enclosed]
  exact skipTokens_endBefore rfl

/-- A name before other tokens of a member is passed over. -/
theorem skipMember_name {kind : TokenKind} {name : String} (hName : propertyName? kind = some name) (place : Position)
    (rest : List Token) : skipMember 0 (⟨kind, place⟩ :: rest) = skipMember 0 rest := by
  cases kind with
  | mark mark => cases hName
  | template => cases hName
  | other c => cases hName
  | _ => rfl

/-- A member that is given up yields no property and leaves what stands behind it, whatever the warning is. -/
theorem yields_skipped (warning : Position → Warning) (final : Position) (tokens : List Token) :
    Yields (do skipped (warning (← Reader.place))) final tokens none (skipMember 0 tokens) := by
  cases tokens with
  | nil => exact ⟨_, rfl⟩
  | cons token tokens => exact ⟨_, rfl⟩

/-- A name is that of a method if a parenthesis or an angle bracket follows, perhaps behind a question mark. -/
theorem namedProperty_method {opening : Mark} (hOpening : opening ∈ [Mark.openParen, .less]) {optional : Bool}
    {further : List TokenKind}
    (hTokens : tokens.map Token.kind = (if optional then [.mark .question] else []) ++ .mark opening :: further)
    (name : String) (readonly : Bool) (final : Position) (behind : List Token) :
    (namedProperty name readonly).Yields final (tokens ++ behind) none (skipMember 0 (tokens ++ behind)) := by
  simp only [List.mem_cons, List.not_mem_nil, or_false] at hOpening
  cases optional with
  | false =>
      obtain ⟨⟨_, place⟩, others, rfl, rfl, -⟩ := List.map_eq_cons_iff.mp hTokens
      rcases hOpening with rfl | rfl
      · exact ⟨_, rfl⟩
      · exact ⟨_, rfl⟩
  | true =>
      obtain ⟨⟨_, question⟩, others, rfl, rfl, hOthers⟩ := List.map_eq_cons_iff.mp hTokens
      obtain ⟨⟨_, place⟩, others, rfl, rfl, -⟩ := List.map_eq_cons_iff.mp hOthers
      rcases hOpening with rfl | rfl
      · exact ⟨_, rfl⟩
      · exact ⟨_, rfl⟩

/-- An accessor is recognized before its name is read as that of a property. -/
theorem member_accessor {keyword : String} {kind : TokenKind} (hKeyword : keyword ∈ ["get", "set"])
    (hName : (propertyName? kind).isSome ∨ kind = .mark .openBracket) (final first second : Position)
    (rest : List Token) :
    member.Yields final (⟨.word keyword, first⟩ :: ⟨kind, second⟩ :: rest) none
      (skipMember 0 (⟨.word keyword, first⟩ :: ⟨kind, second⟩ :: rest)) := by
  have hNames : namesMember (⟨kind, second⟩ :: rest) = true := by
    rcases hName with hName | rfl
    · exact namesMember_name hName second rest
    · rfl
  simp only [List.mem_cons, List.not_mem_nil, or_false] at hKeyword
  have hSkip : skipReadonly (⟨.word keyword, first⟩ :: ⟨kind, second⟩ :: rest) =
      (false, ⟨.word keyword, first⟩ :: ⟨kind, second⟩ :: rest) := by
    rcases hKeyword with rfl | rfl <;> rfl
  have hAccessor : startsAccessor (⟨.word keyword, first⟩ :: ⟨kind, second⟩ :: rest) = true := by
    rcases hKeyword with rfl | rfl <;> exact hNames
  have hMapping : startsMapping (⟨.word keyword, first⟩ :: ⟨kind, second⟩ :: rest) = false := rfl
  rw [Yields, member_apply, hMapping, hSkip]
  unfold modifiedMember
  rw [hAccessor]
  exact yields_skipped (fun place => .accessor place.line) final _

/-- A member that starts so yields nothing and ends where passing over it ends, whatever stands behind it. -/
theorem StartsUnsupported.member_yields (hStarts : StartsUnsupported (tokens.map Token.kind)) (final : Position)
    (behind : List Token) : member.Yields final (tokens ++ behind) none (skipMember 0 (tokens ++ behind)) := by
  generalize hKinds : tokens.map Token.kind = kinds at hStarts
  cases hStarts with
  | @method kind name opening hName hOpening optional further =>
      obtain ⟨⟨_, place⟩, others, rfl, rfl, hOthers⟩ := List.map_eq_cons_iff.mp hKinds
      have hNext : namesMember (others ++ behind) = false :=
        namesMember_behind_name (List.mem_cons_of_mem _ hOpening) hOthers behind
      rw [List.cons_append, Yields, member_named hName hNext, skipMember_name hName]
      exact namedProperty_method hOpening hOthers name false final behind
  | index readonly further =>
      cases readonly with
      | false =>
          obtain ⟨⟨_, opened⟩, others, rfl, rfl, -⟩ := List.map_eq_cons_iff.mp hKinds
          exact ⟨_, rfl⟩
      | true =>
          obtain ⟨⟨_, modifier⟩, others, rfl, rfl, hOthers⟩ := List.map_eq_cons_iff.mp hKinds
          obtain ⟨⟨_, opened⟩, others, rfl, rfl, -⟩ := List.map_eq_cons_iff.mp hOthers
          exact ⟨_, rfl⟩
  | call hOpening further =>
      simp only [List.mem_cons, List.not_mem_nil, or_false] at hOpening
      obtain ⟨⟨_, opened⟩, others, rfl, rfl, -⟩ := List.map_eq_cons_iff.mp hKinds
      rcases hOpening with rfl | rfl
      · exact ⟨_, rfl⟩
      · exact ⟨_, rfl⟩
  | @accessor keyword kind hKeyword hName further =>
      obtain ⟨⟨_, first⟩, others, rfl, rfl, hOthers⟩ := List.map_eq_cons_iff.mp hKinds
      obtain ⟨⟨_, second⟩, others, rfl, rfl, -⟩ := List.map_eq_cons_iff.mp hOthers
      exact member_accessor hKeyword hName final first second _
  | mapped hSign further =>
      obtain ⟨⟨_, first⟩, others, rfl, rfl, hOthers⟩ := List.map_eq_cons_iff.mp hKinds
      obtain ⟨⟨_, second⟩, others, rfl, rfl, -⟩ := List.map_eq_cons_iff.mp hOthers
      simp only [List.mem_cons, List.not_mem_nil, or_false] at hSign
      rcases hSign with rfl | rfl
      · exact ⟨_, rfl⟩
      · exact ⟨_, rfl⟩

/-- However it starts, such a member is passed over up to the semicolon behind it. -/
theorem readAsMember_of_unsupported (hMember : UnsupportedMember kinds) : ReadAsMember kinds none := by
  intro final tokens place rest hKinds
  subst hKinds
  have hRead := hMember.starts.member_yields final (⟨.mark .semicolon, place⟩ :: rest)
  rwa [hMember.skipMember_eq place rest] at hRead

/-- The member that is added yields no property. -/
theorem AddsUnsupported.keepsProperties {plain revised : List TokenKind} (hAdds : AddsUnsupported plain revised) :
    KeepsProperties plain revised := by
  obtain ⟨hMember⟩ := hAdds
  exact .added (readAsMember_of_unsupported hMember) hMember.nested

/-- Members that are no properties do not disturb the others: a source in which any number of them stand among the
members of an object declaration has the declarations that it has without them, up to their places. -/
theorem scan_unsupported_members {plain source : String} (hRevises : Revises AddsUnsupported plain source)
    {found : List Declaration} (hFound : (scan plain).outcome = .ok found) :
    ∃ found', (scan source).outcome = .ok found' ∧
      found'.map Declaration.content = found.map Declaration.content :=
  scan_outcome_of_revises (fun _ _ => AddsUnsupported.keepsProperties) hRevises hFound

/-- A method with a type parameter, with a semicolon in its braces and a comma in its brackets. -/
def sampleMethod : List TokenKind :=
  [.word "map", .mark .less, .word "T", .mark .greater, .mark .openParen, .word "of", .mark .colon, .mark .openBrace,
    .word "a", .mark .colon, .word "T", .mark .semicolon, .mark .closeBrace, .mark .closeParen, .mark .colon,
    .mark .openBracket, .word "T", .mark .comma, .word "T", .mark .closeBracket]

def sampleMapping : List TokenKind :=
  [.mark .minus, .word "readonly", .mark .openBracket, .word "K", .word "in", .word "T", .mark .closeBracket,
    .mark .colon, .word "T", .mark .openBracket, .word "K", .mark .closeBracket]

def plainSample : String := "export type A = \x7b title: string; name: string \x7d;"

def mixedSample : String :=
  "export type A = \x7b title: string; map<T>(of: \x7b a: T; \x7d): [T, T]; -readonly [K in T]: T[K]; name: string \x7d;"

def sampleHeading : List Token :=
  [⟨.word "export", ⟨1, 1⟩⟩, ⟨.word "type", ⟨1, 8⟩⟩, ⟨.word "A", ⟨1, 13⟩⟩, ⟨.mark .equals, ⟨1, 15⟩⟩]

def sampleFirst : List Token :=
  [⟨.word "title", ⟨1, 19⟩⟩, ⟨.mark .colon, ⟨1, 24⟩⟩, ⟨.word "string", ⟨1, 26⟩⟩]

def sampleLast : List Token :=
  [⟨.word "name", ⟨1, 34⟩⟩, ⟨.mark .colon, ⟨1, 38⟩⟩, ⟨.word "string", ⟨1, 40⟩⟩, ⟨.mark .closeBrace, ⟨1, 47⟩⟩,
    ⟨.mark .semicolon, ⟨1, 48⟩⟩]

theorem tokenize_plainSample : tokenize plainSample = sampleHeading ++ ⟨.mark .openBrace, ⟨1, 17⟩⟩ ::
    (sampleFirst ++ ⟨.mark .semicolon, ⟨1, 32⟩⟩ :: sampleLast) :=
  (tokenize_ofList _).trans (by decide +kernel)

/-- A method and a mapped member are added between the two properties of the sample. -/
theorem membersRevised_sample (final : Position) :
    MembersRevised AddsUnsupported final (sampleFirst ++ ⟨.mark .semicolon, ⟨1, 32⟩⟩ :: sampleLast)
      (sampleFirst.map Token.kind ++ .mark .semicolon :: ((sampleMethod ++ [.mark .semicolon]) ++
        ((sampleMapping ++ [.mark .semicolon]) ++ sampleLast.map Token.kind))) := by
  have hMethod : UnsupportedMember sampleMethod := ⟨.method rfl (by decide) false _, by decide, by decide⟩
  have hMapping : UnsupportedMember sampleMapping := ⟨.mapped (by decide) _, by decide, by decide⟩
  have hFirst : member final (sampleFirst ++ ⟨.mark .semicolon, ⟨1, 32⟩⟩ :: sampleLast) =
      .done (some ⟨"title", .primitive .string, false, false⟩) (⟨.mark .semicolon, ⟨1, 32⟩⟩ :: sampleLast) [] := rfl
  have hLast : MembersRevised AddsUnsupported final ([] ++ sampleLast)
      ((sampleMapping ++ [.mark .semicolon]) ++ sampleLast.map Token.kind) :=
    .changed (.intro hMapping) (.same sampleLast)
  have hBoth : MembersRevised AddsUnsupported final ([] ++ sampleLast) ((sampleMethod ++ [.mark .semicolon]) ++
      ((sampleMapping ++ [.mark .semicolon]) ++ sampleLast.map Token.kind)) :=
    .changed (.intro hMethod) hLast
  exact .member (by decide) hFirst hBoth

theorem revises_sample : Revises AddsUnsupported plainSample mixedSample := by
  have hHeading : heading? (tokenize plainSample) = some (⟨true, "A"⟩, ⟨.mark .equals, ⟨1, 15⟩⟩ ::
      ⟨.mark .openBrace, ⟨1, 17⟩⟩ :: (sampleFirst ++ ⟨.mark .semicolon, ⟨1, 32⟩⟩ :: sampleLast)) := by
    rw [tokenize_plainSample]
    rfl
  refine .intro tokenize_plainSample (.here 0 _) hHeading rfl (membersRevised_sample _) ?_
  rw [show tokenize mixedSample = _ from tokenize_ofList _]
  decide +kernel

/-- The declaration with the two further members has the same content as the one without. -/
theorem scan_unsupported_members_sample : Revises AddsUnsupported plainSample mixedSample ∧
    ∃ found, (scan plainSample).outcome = .ok found ∧
      ∃ found', (scan mixedSample).outcome = .ok found' ∧
        found'.map Declaration.content = found.map Declaration.content := by
  have hNames : foundNames? plainSample = some [("A", ["title", "name"])] :=
    (foundNames?_ofList _).trans (by decide +kernel)
  obtain ⟨found, hFound⟩ := exists_found_of_foundNames? hNames
  exact ⟨revises_sample, found, hFound, scan_unsupported_members revises_sample hFound⟩

/-- A method with two type parameters. The comma stands in angle brackets only. -/
def sampleCrossed : List TokenKind :=
  [.word "map", .mark .less, .word "K", .mark .comma, .word "V", .mark .greater, .mark .openParen, .word "value",
    .mark .colon, .word "K", .mark .closeParen, .mark .colon, .word "V"]

def crossedSample : String :=
  "export type A = \x7b title: string; map<K, V>(value: K): V; name: string \x7d;"

/-- Matching brackets around all separators are not enough: the method ends at the comma between its type parameters,
and the source is refused. -/
theorem scan_refuses_two_type_parameters :
    StartsUnsupported sampleCrossed ∧ wellNested sampleCrossed = true ∧
      (∀ kind ∈ exposed [.closeBrace, .closeBracket, .closeParen, .greater] [] sampleCrossed,
        kind ∉ [TokenKind.mark .semicolon, .mark .comma]) ∧
      (tokenize crossedSample).map Token.kind = ((tokenize plainSample).map Token.kind).take 9 ++
        sampleCrossed ++ .mark .semicolon :: ((tokenize plainSample).map Token.kind).drop 9 ∧
      foundNames? plainSample = some [("A", ["title", "name"])] ∧ foundNames? crossedSample = none := by
  refine ⟨.method rfl (by decide) false _, by decide, by decide, ?_, ?_, ?_⟩
  · rw [show tokenize crossedSample = _ from tokenize_ofList _, tokenize_plainSample]
    decide +kernel
  · exact (foundNames?_ofList _).trans (by decide +kernel)
  · exact (foundNames?_ofList _).trans (by decide +kernel)

end SchemaForge.Grammar
