import SchemaForge.Proofs.ScanSteps

/-! Changing the members of an object declaration. A change that keeps the properties of the object type replaces a
member by one that is read alike, or adds a member that is no property. However many of these changes are made in
the object, the declarations of the source stay the same, up to their places. -/
namespace SchemaForge.Grammar

open Reader

/-- The tokens are read as a member with this outcome wherever a semicolon stands behind them. -/
def ReadAsMember (kinds : List TokenKind) (outcome : Option Property) : Prop :=
  ∀ final tokens place rest, tokens.map Token.kind = kinds →
    member.Yields final (tokens ++ ⟨.mark .semicolon, place⟩ :: rest) outcome (⟨.mark .semicolon, place⟩ :: rest)

/-- A change of members that keeps the properties. The brackets of each member match. -/
inductive KeepsProperties : List TokenKind → List TokenKind → Prop where
  | replaced {plain revised : List TokenKind} {outcome : Option Property} (hPlain : ReadAsMember plain outcome)
      (hNested : wellNested plain = true) (hRevised : ReadAsMember revised outcome)
      (hNested' : wellNested revised = true) :
      KeepsProperties (plain ++ [.mark .semicolon]) (revised ++ [.mark .semicolon])
  | added {revised : List TokenKind} (hRevised : ReadAsMember revised none) (hNested' : wellNested revised = true) :
      KeepsProperties [] (revised ++ [.mark .semicolon])

/-- Changes among the members of an object type, between its first brace and its end. The tokens are those without
the changes, the kinds those with them. Members that stay have to be read, since only so their ends are known. -/
inductive MembersRevised (change : List TokenKind → List TokenKind → Prop) (final : Position) :
    List Token → List TokenKind → Prop where
  | same (tokens : List Token) : MembersRevised change final tokens (tokens.map Token.kind)
  | separator {mark : Mark} {place : Position} {rest : List Token} {kinds : List TokenKind}
      (hMark : mark ∈ [Mark.semicolon, .comma]) (further : MembersRevised change final rest kinds) :
      MembersRevised change final (⟨.mark mark, place⟩ :: rest) (.mark mark :: kinds)
  | member {mark : Mark} {place : Position} {taken rest : List Token} {kinds : List TokenKind}
      {outcome : Option Property} {warnings : List Warning} (hMark : mark ∈ [Mark.semicolon, .comma])
      (hRead : member final (taken ++ ⟨.mark mark, place⟩ :: rest) =
        .done outcome (⟨.mark mark, place⟩ :: rest) warnings)
      (further : MembersRevised change final rest kinds) :
      MembersRevised change final (taken ++ ⟨.mark mark, place⟩ :: rest) (taken.map Token.kind ++ .mark mark :: kinds)
  | changed {plain rest : List Token} {revised kinds : List TokenKind} (hChange : change (plain.map Token.kind) revised)
      (further : MembersRevised change final rest kinds) :
      MembersRevised change final (plain ++ rest) (revised ++ kinds)

/-- The members of one object declaration of the plain source are changed in the other one. The declaration is
reached by scanning, and its body starts with a brace behind the type parameters, if there are any. -/
inductive Revises (change : List TokenKind → List TokenKind → Prop) (plain source : String) : Prop where
  | intro {before inner start following : List Token} {kinds : List TokenKind} {earlier : List Declaration}
      {heading : Heading} {equals brace : Position}
      (hPlain : tokenize plain = before ++ ⟨.mark .openBrace, brace⟩ :: inner)
      (hReached : Scans (finalPosition (tokenize plain)) 0 (tokenize plain) earlier 0 start)
      (hHeading : heading? start = some (heading, following))
      (hObject : skipParameters following = ⟨.mark .equals, equals⟩ :: ⟨.mark .openBrace, brace⟩ :: inner)
      (hMembers : MembersRevised change (finalPosition (tokenize plain)) inner kinds)
      (hSource : (tokenize source).map Token.kind = before.map Token.kind ++ .mark .openBrace :: kinds)

def wholeFork : Fork where
  places _ _ := True
  tail := []
  tail' := []
  starts := .nil

/-- Two lists that may go on in different ways behind a mark, whatever their places are. -/
def forkAt {mark : Mark} (hMark : mark ∈ forkMarks) (place place' : Position) (rest rest' : List Token) : Fork where
  places _ _ := True
  tail := ⟨.mark mark, place⟩ :: rest
  tail' := ⟨.mark mark, place'⟩ :: rest'
  starts := .mark hMark place place' rest rest'

/-- Tokens of the same kinds are alike, wherever they stand. -/
theorem alike_of_map_kind {tokens tokens' : List Token} (hKinds : tokens'.map Token.kind = tokens.map Token.kind) :
    wholeFork.Alike tokens tokens' := by
  have hAlike : wholeFork.Alike (tokens ++ []) (tokens' ++ []) :=
    .of_append_tail (fun _ _ => trivial) hKinds fun _ => rfl
  simpa using hAlike

section Members

variable {final final' : Position} {tokens tokens' rest : List Token} {outcome : Option Property}
  {warnings : List Warning} {mark : Mark} {place : Position}

/-- No member starts at the end, with a separator or with the closing brace. -/
theorem endsMember_of_member {left : List Token} (hRead : member final tokens = .done outcome left warnings) :
    tokens ≠ [] ∧ endsMember tokens = false := by
  rcases tokens with _ | ⟨⟨kind, place⟩, rest⟩
  · cases hRead
  refine ⟨List.cons_ne_nil _ _, ?_⟩
  cases kind with
  | mark mark =>
      cases mark with
      | semicolon => cases hRead
      | comma => cases hRead
      | closeBrace => cases hRead
      | _ => rfl
  | _ => rfl

theorem skipSeparators_of_endsMember (hOpen : endsMember tokens = false) : skipSeparators tokens = tokens := by
  unfold skipSeparators
  split
  · cases hOpen
  · cases hOpen
  · rfl

theorem members_separator (hMark : mark ∈ [Mark.semicolon, .comma]) {bound : Nat} (hBound : 0 < bound) :
    members bound final (⟨.mark mark, place⟩ :: rest) = members bound final rest := by
  obtain ⟨bound, rfl⟩ : ∃ fewer, bound = fewer + 1 := ⟨bound - 1, by omega⟩
  have hSkip : skipSeparators (⟨.mark mark, place⟩ :: rest) = skipSeparators rest := by
    simp only [List.mem_cons, List.not_mem_nil, or_false] at hMark
    rcases hMark with rfl | rfl <;> rfl
  rw [members_succ_apply, members_succ_apply, hSkip]

/-- Where a member is read, the others are read behind its separator. -/
theorem members_member (hRead : member final tokens = .done outcome (⟨.mark mark, place⟩ :: rest) warnings)
    (hMark : mark ∈ [Mark.semicolon, .comma]) {bound : Nat} (hBound : 0 < bound) :
    members (bound + 1) final tokens =
      ((members bound >>= fun further => pure (outcome.toList ++ further)) final rest).after warnings := by
  obtain ⟨hSome, hOpen⟩ := endsMember_of_member hRead
  have hOther : tokens.head?.map Token.kind ≠ some (.mark .closeBrace) := by
    rcases tokens with _ | ⟨⟨kind, place⟩, tokens⟩
    · exact absurd rfl hSome
    · intro hBrace
      obtain rfl : kind = .mark .closeBrace := by simpa using hBrace
      cases hOpen
  have hEnds : endsMember (⟨.mark mark, place⟩ :: rest) = true := by
    simp only [List.mem_cons, List.not_mem_nil, or_false] at hMark
    rcases hMark with rfl | rfl <;> rfl
  have hSeparator : (members bound >>= fun further => pure (outcome.toList ++ further)) final
      (⟨.mark mark, place⟩ :: rest) = (members bound >>= fun further => pure (outcome.toList ++ further)) final rest := by
    change andThen (members bound) _ final _ = andThen (members bound) _ final _
    rw [andThen, andThen, members_separator hMark hBound]
  rw [members_succ_apply, skipSeparators_of_endsMember hOpen, remaining_bind]
  simp only [List.isEmpty_iff, hSome, if_false]
  rw [accept_bind_other hOther]
  change andThen member _ final tokens = _
  rw [andThen, hRead]
  simp only [remaining_bind, hEnds, if_true]
  rw [hSeparator]

/-- Members that are read alike may stand before members that are read alike. -/
theorem follows_members_member {rest' : List Token} {mark' : Mark} {place' : Position} {warnings' : List Warning}
    (hMark : mark ∈ [Mark.semicolon, .comma]) (hMark' : mark' ∈ [Mark.semicolon, .comma])
    (hRead : member final tokens = .done outcome (⟨.mark mark, place⟩ :: rest) warnings)
    (hRead' : member final' tokens' = .done outcome (⟨.mark mark', place'⟩ :: rest') warnings') {bound bound' : Nat}
    (hBound : 0 < bound) (hBound' : 0 < bound')
    (hRest : wholeFork.Follows (members bound final rest) (members bound' final' rest')) :
    wholeFork.Follows (members (bound + 1) final tokens) (members (bound' + 1) final' tokens') := by
  rw [members_member hRead hMark hBound, members_member hRead' hMark' hBound']
  apply Fork.Follows.after_left
  apply Fork.Follows.after_right
  apply hRest.bind (advances_members bound final rest) (advances_members bound' final' rest')
  · exact fun _ => .pure _
  · intro further left left' hLeft _ _
    exact .inr ⟨left', [], rfl, hLeft⟩

end Members

def propertyName? : TokenKind → Option String
  | .word name => some name
  | .text name => some name
  | .number value => some value.literalText
  | _ => none

theorem namesMember_name {kind : TokenKind} (hName : (propertyName? kind).isSome) (place : Position)
    (rest : List Token) : namesMember (⟨kind, place⟩ :: rest) = true := by
  cases kind with
  | mark mark => cases hName
  | template => cases hName
  | other c => cases hName
  | _ => rfl

/-- What stands behind a name is no name, so the name before it is that of the member. -/
theorem namesMember_behind_name {mark : Mark} (hMark : mark ∈ [Mark.colon, .openParen, .less]) {optional : Bool}
    {tokens : List Token} {further : List TokenKind}
    (hTokens : tokens.map Token.kind = (if optional then [.mark .question] else []) ++ .mark mark :: further)
    (behind : List Token) : namesMember (tokens ++ behind) = false := by
  cases optional with
  | false =>
      obtain ⟨⟨_, place⟩, others, rfl, rfl, -⟩ := List.map_eq_cons_iff.mp hTokens
      simp only [List.mem_cons, List.not_mem_nil, or_false] at hMark
      rcases hMark with rfl | rfl | rfl <;> rfl
  | true =>
      obtain ⟨⟨_, question⟩, others, rfl, rfl, -⟩ := List.map_eq_cons_iff.mp hTokens
      rfl

section Names

variable {kind : TokenKind} {name : String} {rest : List Token} (hName : propertyName? kind = some name)
  (hNext : namesMember rest = false)

include hName hNext

/-- Behind its modifier a member that starts with a name is read as a property of that name. -/
theorem modifiedMember_named (readonly : Bool) (final place : Position) :
    modifiedMember readonly (⟨kind, place⟩ :: rest) final (⟨kind, place⟩ :: rest) =
      namedProperty name readonly final rest := by
  have hAccessor : startsAccessor (⟨kind, place⟩ :: rest) = false := by
    unfold startsAccessor
    split
    · simp_all
    · simp_all
    · rfl
  unfold modifiedMember
  rw [hAccessor]
  cases kind with
  | word word =>
      cases hName
      exact continueAt_bind _ _ _ _
  | text text =>
      cases hName
      exact continueAt_bind _ _ _ _
  | number value =>
      cases hName
      exact continueAt_bind _ _ _ _
  | _ => cases hName

/-- A name at the start is that of the member, even if it could be a modifier or an accessor before a name. -/
theorem member_named (final place : Position) :
    member final (⟨kind, place⟩ :: rest) = namedProperty name false final rest := by
  have hMapping : startsMapping (⟨kind, place⟩ :: rest) = false := by
    cases kind with
    | mark mark => cases hName
    | template => cases hName
    | other c => cases hName
    | _ => rfl
  have hSkip : skipReadonly (⟨kind, place⟩ :: rest) = (false, ⟨kind, place⟩ :: rest) := by
    unfold skipReadonly
    split
    · simp_all
    · rfl
  rw [member_apply, hMapping, hSkip]
  exact modifiedMember_named hName hNext false final place

/-- The modifier is one only because a name follows it. -/
theorem member_readonly_named (final modifier place : Position) :
    member final (⟨.word "readonly", modifier⟩ :: ⟨kind, place⟩ :: rest) = namedProperty name true final rest := by
  have hNames : namesMember (⟨kind, place⟩ :: rest) = true := namesMember_name (by simp [hName]) place rest
  have hSkip : skipReadonly (⟨.word "readonly", modifier⟩ :: ⟨kind, place⟩ :: rest) =
      (true, ⟨kind, place⟩ :: rest) := if_pos hNames
  have hMapping : startsMapping (⟨.word "readonly", modifier⟩ :: ⟨kind, place⟩ :: rest) = false := rfl
  rw [member_apply, hMapping, hSkip]
  exact modifiedMember_named hName hNext true final place

end Names

section Run

variable {change : List TokenKind → List TokenKind → Prop} {final final' : Position} {tokens tokens' : List Token}
  {kinds : List TokenKind}

theorem eq_append_of_map_kind {mark : Mark} {first : List TokenKind}
    (hKinds : tokens.map Token.kind = first ++ .mark mark :: kinds) :
    ∃ taken place rest, tokens = taken ++ ⟨.mark mark, place⟩ :: rest ∧ taken.map Token.kind = first ∧
      rest.map Token.kind = kinds := by
  obtain ⟨taken, behind, rfl, hTaken, hBehind⟩ := List.map_eq_append_iff.mp hKinds
  obtain ⟨⟨_, place⟩, rest, rfl, rfl, hRest⟩ := List.map_eq_cons_iff.mp hBehind
  exact ⟨taken, place, rest, rfl, hTaken, hRest⟩

theorem startsFunction_separator {mark : Mark} (hMark : mark ∈ [Mark.semicolon, .comma]) (depth : Nat)
    (place : Position) (rest : List Token) :
    startsFunction depth (⟨.mark mark, place⟩ :: rest) = startsFunction depth rest := by
  simp only [List.mem_cons, List.not_mem_nil, or_false] at hMark
  rcases hMark with rfl | rfl <;> rfl

/-- A member whose brackets match does not close the parenthesis around it. -/
theorem startsFunction_member {taken rest : List Token} {place : Position}
    (hNested : wellNested (taken.map Token.kind) = true) (depth : Nat) :
    startsFunction (depth + 1) (taken ++ ⟨.mark .semicolon, place⟩ :: rest) = startsFunction (depth + 1) rest := by
  rw [startsFunction_of_wellNested hNested, startsFunction_separator (by decide)]

/-- A member before a separator is read alike in another list, if what stands behind the separators makes no
difference for a parenthesis that is open before them. -/
theorem exists_member_before_separator {mark : Mark} {place : Position} {taken taken' rest rest' : List Token}
    {outcome : Option Property} {warnings : List Warning} (hMark : mark ∈ [Mark.semicolon, .comma])
    (hRead : member final (taken ++ ⟨.mark mark, place⟩ :: rest) =
      .done outcome (⟨.mark mark, place⟩ :: rest) warnings)
    (hTaken : taken'.map Token.kind = taken.map Token.kind)
    (hRest : ∀ depth, startsFunction (depth + 1) rest' = startsFunction (depth + 1) rest) (final' place' : Position) :
    ∃ warnings', member final' (taken' ++ ⟨.mark mark, place'⟩ :: rest') =
      .done outcome (⟨.mark mark, place'⟩ :: rest') warnings' := by
  have hFork : mark ∈ forkMarks := (show [Mark.semicolon, .comma] ⊆ forkMarks by decide) hMark
  have hTails (depth : Nat) : startsFunction (depth + 1) (⟨.mark mark, place'⟩ :: rest') =
      startsFunction (depth + 1) (⟨.mark mark, place⟩ :: rest) := by
    rw [startsFunction_separator hMark, startsFunction_separator hMark]
    exact hRest depth
  have hAlike : (forkAt hFork place place' rest rest').Alike (taken ++ ⟨.mark mark, place⟩ :: rest)
      (taken' ++ ⟨.mark mark, place'⟩ :: rest') := .of_append_tail (fun _ _ => trivial) hTaken hTails
  have hFinal : (forkAt hFork place place' rest rest').places final final' := trivial
  exact tracks_member.exists_done_at_fork hFinal hAlike (Nat.lt_succ_self _) (Nat.lt_succ_self _) hRead

variable (hChange : ∀ plain revised, change plain revised → KeepsProperties plain revised)

include hChange

/-- The changes do not matter for a parenthesis that is open before them. -/
theorem startsFunction_of_membersRevised (hRevised : MembersRevised change final tokens kinds)
    (hKinds : tokens'.map Token.kind = kinds) (depth : Nat) :
    startsFunction (depth + 1) tokens' = startsFunction (depth + 1) tokens := by
  induction hRevised generalizing tokens' depth with
  | same tokens =>
      have hSame : startsFunction (depth + 1) (tokens' ++ []) = startsFunction (depth + 1) (tokens ++ []) :=
        startsFunction_append_congr hKinds rfl (fun _ => rfl) depth
      simpa using hSame
  | @separator mark place rest kinds hMark further ih =>
      obtain ⟨⟨_, place'⟩, rest', rfl, rfl, hRest⟩ := List.map_eq_cons_iff.mp hKinds
      rw [startsFunction_separator hMark, startsFunction_separator hMark]
      exact ih hRest depth
  | @member mark place taken rest kinds outcome warnings hMark hRead further ih =>
      obtain ⟨taken', place', rest', rfl, hTaken, hRest⟩ := eq_append_of_map_kind hKinds
      have hTails (depth : Nat) : startsFunction (depth + 1) (⟨.mark mark, place'⟩ :: rest') =
          startsFunction (depth + 1) (⟨.mark mark, place⟩ :: rest) := by
        rw [startsFunction_separator hMark, startsFunction_separator hMark]
        exact ih hRest depth
      exact startsFunction_append_congr hTaken (by rfl) hTails depth
  | @changed plain rest revised kinds hPiece further ih =>
      obtain ⟨piece', rest', rfl, hPiece', hRest⟩ := List.map_eq_append_iff.mp hKinds
      generalize hPlain : plain.map Token.kind = plainKinds at hPiece
      cases hChange _ _ hPiece with
      | replaced hRead hNested hRead' hNested' =>
          obtain ⟨taken, place, last, rfl, rfl, hNil⟩ := eq_append_of_map_kind hPlain
          obtain ⟨taken', place', last', rfl, rfl, hNil'⟩ := eq_append_of_map_kind hPiece'
          rw [List.map_eq_nil_iff.mp hNil, List.map_eq_nil_iff.mp hNil', List.append_assoc, List.append_assoc]
          exact (startsFunction_member hNested' depth).trans
            ((ih hRest depth).trans (startsFunction_member hNested depth).symm)
      | added hRead' hNested' =>
          obtain ⟨taken', place', last', rfl, rfl, hNil'⟩ := eq_append_of_map_kind hPiece'
          rw [List.map_eq_nil_iff.mp hPlain, List.map_eq_nil_iff.mp hNil', List.append_assoc]
          exact (startsFunction_member hNested' depth).trans (ih hRest depth)

/-- The induction follows the changes. At each of them the properties that are read stay the same. -/
theorem follows_members (hRevised : MembersRevised change final tokens kinds)
    (hKinds : tokens'.map Token.kind = kinds) {bound bound' : Nat}
    (hLength : tokens.length < bound) (hLength' : tokens'.length < bound') :
    wholeFork.Follows (members bound final tokens) (members bound' final' tokens') := by
  induction hRevised generalizing tokens' bound bound' with
  | same tokens =>
      exact (tracks_members bound bound').follows final final' tokens tokens' trivial (alike_of_map_kind hKinds)
        hLength hLength'
  | @separator mark place rest kinds hMark further ih =>
      obtain ⟨⟨_, place'⟩, rest', rfl, rfl, hRest⟩ := List.map_eq_cons_iff.mp hKinds
      rw [List.length_cons] at hLength hLength'
      rw [members_separator hMark (by omega), members_separator hMark (by omega)]
      exact ih hRest (by omega) (by omega)
  | @member mark place taken rest kinds outcome warnings hMark hRead further ih =>
      obtain ⟨taken', place', rest', rfl, hTaken, hRest⟩ := eq_append_of_map_kind hKinds
      obtain ⟨warnings', hRead'⟩ := exists_member_before_separator hMark hRead hTaken
        (startsFunction_of_membersRevised hChange further hRest) final' place'
      rw [List.length_append, List.length_cons] at hLength hLength'
      obtain ⟨bound, rfl⟩ : ∃ fewer, bound = fewer + 1 := ⟨bound - 1, by omega⟩
      obtain ⟨bound', rfl⟩ : ∃ fewer, bound' = fewer + 1 := ⟨bound' - 1, by omega⟩
      exact follows_members_member hMark hMark hRead hRead' (by omega) (by omega) (ih hRest (by omega) (by omega))
  | @changed plain rest revised kinds hPiece further ih =>
      obtain ⟨piece', rest', rfl, hPiece', hRest⟩ := List.map_eq_append_iff.mp hKinds
      generalize hPlain : plain.map Token.kind = plainKinds at hPiece
      rw [List.length_append] at hLength hLength'
      cases hChange _ _ hPiece with
      | replaced hRead hNested hRead' hNested' =>
          obtain ⟨taken, place, last, rfl, hTaken, hNil⟩ := eq_append_of_map_kind hPlain
          obtain ⟨taken', place', last', rfl, hTaken', hNil'⟩ := eq_append_of_map_kind hPiece'
          obtain rfl := List.map_eq_nil_iff.mp hNil
          obtain rfl := List.map_eq_nil_iff.mp hNil'
          obtain ⟨warnings, hRead⟩ := hRead final taken place rest hTaken
          obtain ⟨warnings', hRead'⟩ := hRead' final' taken' place' rest' hTaken'
          rw [List.length_append, List.length_singleton] at hLength hLength'
          rw [List.append_assoc, List.append_assoc]
          obtain ⟨bound, rfl⟩ : ∃ fewer, bound = fewer + 1 := ⟨bound - 1, by omega⟩
          obtain ⟨bound', rfl⟩ : ∃ fewer, bound' = fewer + 1 := ⟨bound' - 1, by omega⟩
          exact follows_members_member (by decide) (by decide) hRead hRead' (by omega) (by omega)
            (ih hRest (by omega) (by omega))
      | added hRead' hNested' =>
          -- Only the second reader takes a step here, and it finds no property.
          obtain ⟨taken', place', last', rfl, hTaken', hNil'⟩ := eq_append_of_map_kind hPiece'
          obtain rfl := List.map_eq_nil_iff.mp hPlain
          obtain rfl := List.map_eq_nil_iff.mp hNil'
          obtain ⟨warnings', hRead'⟩ := hRead' final' taken' place' rest' hTaken'
          rw [List.length_append, List.length_singleton] at hLength'
          rw [List.nil_append, List.append_assoc, List.singleton_append]
          obtain ⟨bound', rfl⟩ : ∃ fewer, bound' = fewer + 1 := ⟨bound' - 1, by omega⟩
          rw [members_member hRead' (by decide) (by omega)]
          apply Fork.Follows.after_right
          simp only [Option.toList_none, List.nil_append, bind_pure]
          exact ih hRest (by simpa using hLength) (by omega)

/-- The bounds on the members are the numbers of tokens, which differ but suffice. -/
theorem follows_objectType (hRevised : MembersRevised change final tokens kinds)
    (hKinds : tokens'.map Token.kind = kinds) (brace brace' : Position) :
    wholeFork.Follows (objectType final (⟨.mark .openBrace, brace⟩ :: tokens))
      (objectType final' (⟨.mark .openBrace, brace'⟩ :: tokens')) := by
  rw [objectType, expect_bind_mark, expect_bind_mark, remaining_bind, remaining_bind]
  exact follows_members hChange hRevised hKinds (Nat.lt_succ_self _) (Nat.lt_succ_self _)

/-- What stands behind the object type is the same again, so the whole definition is read alike. -/
theorem follows_definition_of_membersRevised (hRevised : MembersRevised change final tokens kinds)
    (hKinds : tokens'.map Token.kind = kinds) (heading : Heading) (generic : Bool)
    (equals equals' brace brace' : Position) :
    wholeFork.Follows
      (definition heading generic final (⟨.mark .equals, equals⟩ :: ⟨.mark .openBrace, brace⟩ :: tokens))
      (definition heading generic final' (⟨.mark .equals, equals'⟩ :: ⟨.mark .openBrace, brace'⟩ :: tokens')) := by
  have hBody : wholeFork.Follows (body heading.name final (⟨.mark .openBrace, brace⟩ :: tokens))
      (body heading.name final' (⟨.mark .openBrace, brace'⟩ :: tokens')) := by
    rw [body_apply, body_apply]
    apply (follows_objectType hChange hRevised hKinds brace brace').bind (advances_objectType final _)
      (advances_objectType final' _) (advances_objectBodyEnd _)
    intro properties rest rest' hRest _ _
    exact (tracks_objectBodyEnd _ properties).follows final final' rest rest' trivial hRest (Nat.lt_succ_self _)
      (Nat.lt_succ_self _)
  rw [definition, expect_bind_mark, expect_bind_mark]
  apply hBody.bind (advances_body _ final _) (advances_body _ final' _) (advances_definitionEnd heading generic)
  intro contents rest rest' hRest _ _
  exact (tracks_definitionEnd heading generic contents).follows final final' rest rest' trivial hRest
    (Nat.lt_succ_self _) (Nat.lt_succ_self _)

omit hChange in
/-- Where the definitions behind the same heading are read alike, so is all that is left of the sources. -/
theorem exists_outcome_of_follows {start start' following following' : List Token} {heading : Heading}
    (hHeading : heading? start = some (heading, following)) (hHeading' : heading? start' = some (heading, following'))
    (hFollows : wholeFork.Follows (definition heading (startsParameters following) final (skipParameters following))
      (definition heading (startsParameters following') final' (skipParameters following')))
    {found : List Declaration} (hFound : (scanFrom final 0 0 start).outcome = .ok found) :
    ∃ found', (scanFrom final' 0 0 start').outcome = .ok found' ∧
      found'.map Declaration.content = found.map Declaration.content := by
  rcases start' with _ | ⟨token', rest'⟩
  · cases hHeading'
  obtain ⟨later, hScans⟩ := exists_scans_of_outcome hFound
  cases hScans with
  | here => cases hHeading
  | pass hNone further => simp [hNone rfl] at hHeading
  | @find _ token rest following behind _ _ first others warnings hFirstHeading hFirst further =>
      obtain ⟨rfl, rfl⟩ : heading = _ ∧ _ = following := by simpa using hHeading.symm.trans hFirstHeading
      have hPlace : wholeFork.places token.position token'.position := trivial
      obtain ⟨first', behind', warnings', hFirst', hSame, hBehind⟩ :=
        exists_declaration_of_follows hPlace hFollows hFirst (Nat.zero_le _)
      have hFinal : wholeFork.places final final' := trivial
      obtain ⟨others', left', hFurther', hOthers, hLeft⟩ := further.follow hFinal hBehind (Nat.zero_le _)
      obtain rfl := hLeft.eq_nil
      refine ⟨first' :: others', ?_, ?_⟩
      · rw [(Scans.find hHeading' hFirst' hFurther').outcome_eq]
        simp [scanFrom, Except.map]
      · exact Declaration.map_content_eq (.cons hSame hOthers)

/-- The object is reached in the other source as well, behind the same declarations and the same heading. -/
theorem exists_object_of_reached {before before' inner inner' start following : List Token}
    {earlier : List Declaration} {heading : Heading} {equals brace : Position} (brace' final' : Position)
    (hReached : Scans final 0 (before ++ ⟨.mark .openBrace, brace⟩ :: inner) earlier 0 start)
    (hHeading : heading? start = some (heading, following))
    (hObject : skipParameters following = ⟨.mark .equals, equals⟩ :: ⟨.mark .openBrace, brace⟩ :: inner)
    (hMembers : MembersRevised change final inner kinds) (hBefore : before'.map Token.kind = before.map Token.kind)
    (hInner : inner'.map Token.kind = kinds) :
    ∃ earlier' start' following' equals',
      Scans final' 0 (before' ++ ⟨.mark .openBrace, brace'⟩ :: inner') earlier' 0 start' ∧
      earlier'.map Declaration.content = earlier.map Declaration.content ∧
      heading? start' = some (heading, following') ∧ startsParameters following' = startsParameters following ∧
      skipParameters following' = ⟨.mark .equals, equals'⟩ :: ⟨.mark .openBrace, brace'⟩ :: inner' := by
  have hMark : Mark.openBrace ∈ forkMarks := by decide
  have hTails (depth : Nat) : startsFunction (depth + 1) (⟨.mark .openBrace, brace'⟩ :: inner') =
      startsFunction (depth + 1) (⟨.mark .openBrace, brace⟩ :: inner) :=
    startsFunction_of_membersRevised hChange hMembers hInner depth
  have hAlike : (forkAt hMark brace brace' inner inner').Alike (before ++ ⟨.mark .openBrace, brace⟩ :: inner)
      (before' ++ ⟨.mark .openBrace, brace'⟩ :: inner') := .of_append_tail (fun _ _ => trivial) hBefore hTails
  have hFinal : (forkAt hMark brace brace' inner inner').places final final' := trivial
  have hLength : (⟨.mark .openBrace, brace⟩ :: inner : List Token).length ≤ start.length := by
    rcases start with _ | ⟨token, rest⟩
    · cases hHeading
    · have hSuffix := (skipParameters_suffix following).trans (heading?_suffix hHeading)
      rw [hObject] at hSuffix
      have hShorter := hSuffix.length_le
      simp only [List.length_cons] at hShorter ⊢
      omega
  -- The declaration starts before the brace, so the sources are alike all the way to it.
  obtain ⟨earlier', start', hReached', hEarlier, hStart⟩ := hReached.follow hFinal hAlike hLength
  obtain ⟨following', hHeading', hFollowing⟩ := alike_heading? hStart hHeading
  refine ⟨earlier', start', following', ?_⟩
  rcases alike_skipParameters hFollowing with hPassed | hBody
  · rw [hObject] at hPassed
    exact absurd hPassed (Nat.not_lt.mpr (Nat.le_succ _))
  · rw [hObject] at hBody
    obtain ⟨equals', behind, hBehind, hTail⟩ := hBody.uncons_of_kind (by decide)
    rw [hTail.eq_tail'] at hBehind
    exact ⟨equals', hReached', Declaration.map_content_eq hEarlier, hHeading', startsParameters_eq hFollowing, hBehind⟩

/-- Changes that keep the properties keep all declarations of the source, up to their places. -/
theorem scan_outcome_of_revises {plain source : String} (hRevises : Revises change plain source)
    {found : List Declaration} (hFound : (scan plain).outcome = .ok found) :
    ∃ found', (scan source).outcome = .ok found' ∧
      found'.map Declaration.content = found.map Declaration.content := by
  obtain @⟨before, inner, start, following, kinds, earlier, heading, equals, brace, hPlain, hReached, hHeading, hObject,
    hMembers, hSource⟩ := hRevises
  obtain ⟨before', brace', inner', hTokens', hBefore, hInner⟩ := eq_append_of_map_kind hSource
  rw [scan, scanTokens] at hFound ⊢
  rw [hReached.outcome_eq] at hFound
  generalize finalPosition (tokenize plain) = final at *
  generalize finalPosition (tokenize source) = final'
  rw [hPlain] at hReached
  obtain ⟨earlier', start', following', equals', hReached', hEarlier, hHeading', hGeneric, hObject'⟩ :=
    exists_object_of_reached hChange brace' final' hReached hHeading hObject hMembers hBefore hInner
  have hFollows : wholeFork.Follows
      (definition heading (startsParameters following) final (skipParameters following))
      (definition heading (startsParameters following') final' (skipParameters following')) := by
    rw [hGeneric, hObject, hObject']
    exact follows_definition_of_membersRevised hChange hMembers hInner heading _ equals equals' brace brace'
  cases hStart : (scanFrom final 0 0 start).outcome with
  | error error =>
      rw [hStart] at hFound
      cases hFound
  | ok others =>
      rw [hStart] at hFound
      obtain rfl : earlier ++ others = found := by simpa [Except.map] using hFound
      obtain ⟨others', hStart', hOthers⟩ := exists_outcome_of_follows hHeading hHeading' hFollows hStart
      refine ⟨earlier' ++ others', ?_, ?_⟩
      · rw [hTokens', hReached'.outcome_eq, hStart']
        rfl
      · rw [List.map_append, List.map_append, hEarlier, hOthers]

end Run

/-- The names of the declarations among the tokens, each with those of its properties, if nothing is refused. -/
def declaredNames? (tokens : List Token) : Option (List (String × List String)) :=
  (scanTokens tokens).outcome.toOption.map fun found =>
    found.map fun declaration => (declaration.name, declaration.properties.map Property.name)

def foundNames? (source : String) : Option (List (String × List String)) :=
  declaredNames? (tokenize source)

/-- The form in which the names of a sample can be computed. -/
theorem foundNames?_ofList (chars : List Char) : foundNames? (String.ofList chars) =
    declaredNames? (Lexeme.tokens Position.start (Lexeme.readAll chars)) := by
  rw [foundNames?, tokenize_ofList]

/-- A source whose names are found is scanned without a refusal. -/
theorem exists_found_of_foundNames? {source : String} {names : List (String × List String)}
    (hNames : foundNames? source = some names) : ∃ found, (scan source).outcome = .ok found := by
  rw [foundNames?, declaredNames?, ← scan] at hNames
  cases hOutcome : (scan source).outcome with
  | error error => simp [hOutcome, Except.toOption] at hNames
  | ok found => exact ⟨found, rfl⟩

end SchemaForge.Grammar
