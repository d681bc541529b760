import SchemaForge.Proofs.ReadingProgress

/-! Reading does not depend on what stands behind the tokens that are read. Two lists of tokens are compared that
are alike up to a fork, where they go on in different ways. A reader that stops before the fork in the first list
does the same in the second one; where it goes beyond the fork, nothing is said. Places may differ, and so may the
bounds that come from the numbers of tokens. -/
namespace SchemaForge

/-- The marks with which tokens may go on in different ways, since no look-ahead goes beyond them. -/
def forkMarks : List Mark := [.openBrace, .semicolon, .comma, .ampersand]

/-- Both lists are empty or start with the same mark, which is one for a fork. -/
inductive StartAlike : List Token → List Token → Prop where
  | nil : StartAlike [] []
  | mark {mark : Mark} (hMark : mark ∈ forkMarks) (place place' : Position) (rest rest' : List Token) :
      StartAlike (⟨.mark mark, place⟩ :: rest) (⟨.mark mark, place'⟩ :: rest')

/-- The comparison of starts does not depend on the order of the two lists. -/
theorem StartAlike.symm {tail tail' : List Token} (hStart : StartAlike tail tail') : StartAlike tail' tail := by
  cases hStart with
  | nil => exact .nil
  | mark hMark place place' rest rest' => exact .mark hMark place' place rest' rest

theorem StartAlike.head?_kind {tail tail' : List Token} (hStart : StartAlike tail tail') :
    tail'.head?.map Token.kind = tail.head?.map Token.kind := by
  cases hStart with
  | nil => rfl
  | mark hMark place place' rest rest' => rfl

/-- What is at the fork is one of the marks for it, so any other token is in front of the fork. -/
theorem StartAlike.mem_forkMarks {tail tail' : List Token} (hStart : StartAlike tail tail') {kind : TokenKind}
    (hHead : tail.head?.map Token.kind = some kind) : ∃ mark ∈ forkMarks, kind = .mark mark := by
  cases hStart with
  | nil => cases hHead
  | mark hMark place place' rest rest' =>
      cases hHead
      exact ⟨_, hMark, rfl⟩

/-- Two ways for tokens to go on, and a relation between the places of tokens that correspond. -/
structure Fork where
  places : Position → Position → Prop
  tail : List Token
  tail' : List Token
  starts : StartAlike tail tail'

namespace Fork

/-- The lists consist of tokens of the same kinds up to the fork. A parenthesis starts a function type in both of
them or in none, although this may be seen only behind the fork. -/
inductive Alike (fork : Fork) : List Token → List Token → Prop where
  | fork : Alike fork fork.tail fork.tail'
  | cons {kind : TokenKind} {place place' : Position} {rest rest' : List Token}
      (hPlace : fork.places place place')
      (hFunction : kind = .mark .openParen →
        Grammar.startsFunction 0 (⟨kind, place'⟩ :: rest') = Grammar.startsFunction 0 (⟨kind, place⟩ :: rest))
      (further : Alike fork rest rest') : Alike fork (⟨kind, place⟩ :: rest) (⟨kind, place'⟩ :: rest')

/-- Less is left than there is behind the fork. -/
def Passed (fork : Fork) (rest : List Token) : Prop :=
  rest.length < fork.tail.length

/-- The second reading does what the first one does, unless the first one goes beyond the fork. A refusal is
matched only where there is no fork. -/
def Follows {α : Type} (fork : Fork) : Reading α → Reading α → Prop
  | .done value rest _, reading' =>
      fork.Passed rest ∨ ∃ rest' warnings', reading' = .done value rest' warnings' ∧ fork.Alike rest rest'
  | .refused error _, reading' =>
      fork.tail ≠ [] ∨ ∃ error' warnings', reading' = .refused error' warnings' ∧
        error'.problem = error.problem ∧ fork.places error.position error'.position

/-- On lists that are alike, with fewer tokens than given, the second reader follows the first one. -/
structure Tracks {α : Type} (fork : Fork) (bound bound' : Nat) (reader reader' : Reader α) : Prop where
  advances : reader.Advances
  advances' : reader'.Advances
  follows : ∀ final final' tokens tokens', fork.places final final' → fork.Alike tokens tokens' →
    tokens.length < bound → tokens'.length < bound' → fork.Follows (reader final tokens) (reader' final' tokens')

variable {fork : Fork} {tokens tokens' rest rest' : List Token}

def swap (fork : Fork) : Fork where
  places place place' := fork.places place' place
  tail := fork.tail'
  tail' := fork.tail
  starts := fork.starts.symm

/-- Being alike does not depend on the order of the two lists. -/
theorem Alike.swap (hAlike : fork.Alike tokens tokens') : fork.swap.Alike tokens' tokens := by
  induction hAlike with
  | fork => exact .fork
  | cons hPlace hFunction further ih => exact .cons hPlace (fun hKind => (hFunction hKind).symm) ih

/-- The fork is not passed yet, so at least the tokens behind it are left. -/
theorem Alike.length_tail_le (hAlike : fork.Alike tokens tokens') : fork.tail.length ≤ tokens.length := by
  induction hAlike with
  | fork => exact Nat.le_refl _
  | cons hPlace hFunction further ih => exact Nat.le_succ_of_le ih

/-- What corresponds to the tokens behind the fork are the other tokens behind the fork. -/
theorem Alike.eq_tail' (hAlike : fork.Alike fork.tail tokens') : tokens' = fork.tail' := by
  generalize hTail : fork.tail = tail at hAlike
  cases hAlike with
  | fork => rfl
  | cons hPlace hFunction further =>
      have hLength := further.length_tail_le
      rw [hTail, List.length_cons] at hLength
      omega

/-- The first tokens, if there are any, are of the same kind. -/
theorem Alike.head?_kind (hAlike : fork.Alike tokens tokens') :
    tokens'.head?.map Token.kind = tokens.head?.map Token.kind := by
  cases hAlike with
  | cons hPlace hFunction further => rfl
  | fork => exact fork.starts.head?_kind

/-- If the first list has come to its end, so has the second. -/
theorem Alike.eq_nil (hAlike : fork.Alike [] tokens') : tokens' = [] := by
  simpa using hAlike.head?_kind

/-- A first token has one of the same kind in its place. Behind it the lists are alike, unless the fork is
there. -/
theorem Alike.uncons {kind : TokenKind} {place : Position} (hAlike : fork.Alike (⟨kind, place⟩ :: rest) tokens') :
    ∃ place' rest', tokens' = ⟨kind, place'⟩ :: rest' ∧ (fork.Passed rest ∨ fork.Alike rest rest') := by
  generalize hTokens : (⟨kind, place⟩ :: rest : List Token) = tokens at hAlike
  cases hAlike with
  | cons hPlace hFunction further =>
      cases hTokens
      exact ⟨_, _, rfl, .inr further⟩
  | fork =>
      have hHead := fork.starts.head?_kind
      rw [← hTokens] at hHead
      obtain ⟨⟨kind', place'⟩, rest', hTail'⟩ : ∃ token rest', fork.tail' = token :: rest' := by
        cases hTail' : fork.tail' with
        | nil => simp [hTail'] at hHead
        | cons token rest' => exact ⟨token, rest', rfl⟩
      obtain rfl : kind' = kind := by simpa [hTail'] using hHead
      refine ⟨place', rest', hTail', .inl ?_⟩
      rw [Passed, ← hTokens, List.length_cons]
      exact Nat.lt_succ_self _

/-- Before the fork the lists are alike token by token. -/
theorem Alike.uncons_of_length_le {token : Token} (hAlike : fork.Alike (token :: rest) tokens')
    (hLength : fork.tail.length ≤ rest.length) :
    ∃ place' rest', tokens' = ⟨token.kind, place'⟩ :: rest' ∧ fork.places token.position place' ∧
      fork.Alike rest rest' := by
  generalize hTokens : token :: rest = tokens at hAlike
  cases hAlike with
  | cons hPlace hFunction further =>
      cases hTokens
      exact ⟨_, _, rfl, hPlace, further⟩
  | fork =>
      rw [← hTokens, List.length_cons] at hLength
      omega

/-- A token that cannot be at the fork is matched by one of the same kind, with lists behind it that are alike. -/
theorem Alike.uncons_of_kind {kind : TokenKind} {place : Position}
    (hAlike : fork.Alike (⟨kind, place⟩ :: rest) tokens') (hKind : ∀ mark ∈ forkMarks, kind ≠ .mark mark) :
    ∃ place' rest', tokens' = ⟨kind, place'⟩ :: rest' ∧ fork.Alike rest rest' := by
  generalize hTokens : (⟨kind, place⟩ :: rest : List Token) = tokens at hAlike
  cases hAlike with
  | cons hPlace hFunction further =>
      cases hTokens
      exact ⟨_, _, rfl, further⟩
  | fork =>
      obtain ⟨mark, hMark, hEq⟩ := fork.starts.mem_forkMarks (congrArg (·.head?.map Token.kind) hTokens.symm)
      exact absurd hEq (hKind mark hMark)

theorem Alike.tail {kind kind' : TokenKind} {place place' : Position}
    (hAlike : fork.Alike (⟨kind, place⟩ :: rest) (⟨kind', place'⟩ :: rest'))
    (hKind : ∀ mark ∈ forkMarks, kind ≠ .mark mark) : fork.Alike rest rest' := by
  obtain ⟨_, _, hEq, hRest⟩ := hAlike.uncons_of_kind hKind
  cases hEq
  exact hRest

/-- An opening parenthesis is decided alike, by what being alike demands of it. -/
theorem Alike.startsFunction_eq (hAlike : fork.Alike tokens tokens')
    (hOpen : tokens.head?.map Token.kind = some (.mark .openParen)) :
    Grammar.startsFunction 0 tokens' = Grammar.startsFunction 0 tokens := by
  cases hAlike with
  | cons hPlace hFunction further => exact hFunction (by simpa using hOpen)
  | fork =>
      obtain ⟨mark, hMark, hEq⟩ := fork.starts.mem_forkMarks hOpen
      cases hEq
      simp [forkMarks] at hMark

/-- Passing over tokens ends at places that correspond, or beyond the fork. -/
theorem Alike.skipTokens (hAlike : fork.Alike tokens tokens') (step : Nat → TokenKind → SkipStep) (depth : Nat) :
    fork.Passed (skipTokens step depth tokens) ∨
      fork.Alike (skipTokens step depth tokens) (skipTokens step depth tokens') := by
  induction hAlike generalizing depth with
  | @cons kind place place' rest rest' hPlace hFunction further ih =>
      cases hStep : step depth kind with
      | onward deeper =>
          rw [skipTokens_onward hStep, skipTokens_onward hStep]
          exact ih deeper
      | endBefore =>
          rw [skipTokens_endBefore hStep, skipTokens_endBefore hStep]
          exact .inr (.cons hPlace hFunction further)
      | endBehind =>
          rw [skipTokens_endBehind hStep, skipTokens_endBehind hStep]
          exact .inr further
  | fork =>
      have hSelf : fork.Alike fork.tail fork.tail' := .fork
      generalize hTail : fork.tail = tail at hSelf ⊢
      rcases tail with _ | ⟨⟨kind, place⟩, rest⟩
      · have hNil := hSelf.eq_nil
        rw [hNil] at hSelf ⊢
        exact .inr hSelf
      · obtain ⟨place', rest', hTail', -⟩ := hSelf.uncons
        rw [hTail'] at hSelf ⊢
        -- Only a step that ends before the first token behind the fork does not go beyond it.
        have hPassed {left : List Token} (hSuffix : left <:+ rest) : fork.Passed left := by
          have hLength := hSuffix.length_le
          rw [Passed, hTail, List.length_cons]
          omega
        cases hStep : step depth kind with
        | onward deeper =>
            rw [skipTokens_onward hStep]
            exact .inl (hPassed (skipTokens_suffix _ _ _))
        | endBefore =>
            rw [skipTokens_endBefore hStep, skipTokens_endBefore hStep]
            exact .inr hSelf
        | endBehind =>
            rw [skipTokens_endBehind hStep]
            exact .inl (hPassed List.suffix_rfl)

section Prefix

open Grammar

variable {before before' : List Token} {awaited : List Mark}

/-- Tokens of the same kinds before the fork are alike if the tokens behind it do not tell apart the parentheses
that are open there. -/
theorem Alike.of_append_tail (hPlaces : ∀ place place', fork.places place place')
    (hKinds : before'.map Token.kind = before.map Token.kind)
    (hTail : ∀ depth, startsFunction (depth + 1) fork.tail' = startsFunction (depth + 1) fork.tail) :
    fork.Alike (before ++ fork.tail) (before' ++ fork.tail') := by
  induction before generalizing before' with
  | nil =>
      rw [List.map_eq_nil_iff.mp hKinds]
      exact .fork
  | cons token before ih =>
      obtain ⟨⟨_, place'⟩, before', rfl, rfl, hBefore⟩ := List.map_eq_cons_iff.mp hKinds
      obtain ⟨kind, place⟩ := token
      refine .cons (hPlaces place place') ?_ (ih hBefore)
      rintro rfl
      exact startsFunction_append_congr hBefore fork.starts.head?_kind hTail 0

/-- Tokens of the same kinds in which brackets match are alike whatever stands behind them. -/
theorem Alike.of_closesAll (hPlaces : ∀ place place', fork.places place place')
    (hKinds : before'.map Token.kind = before.map Token.kind)
    (hCloses : closesAll awaited (before.map Token.kind) = true) :
    fork.Alike (before ++ fork.tail) (before' ++ fork.tail') := by
  induction before generalizing before' awaited with
  | nil =>
      rw [List.map_eq_nil_iff.mp hKinds]
      exact .fork
  | cons token before ih =>
      obtain ⟨⟨_, place'⟩, before', rfl, rfl, hBefore⟩ := List.map_eq_cons_iff.mp hKinds
      obtain ⟨kind, place⟩ := token
      rw [List.map_cons, closesAll] at hCloses
      cases hNext : openAfter awaited kind with
      | none => simp [hNext] at hCloses
      | some further =>
          rw [hNext] at hCloses
          refine .cons (hPlaces place place') ?_ (ih hBefore hCloses)
          rintro rfl
          obtain rfl : Mark.closeParen :: awaited = further := by simpa [openAfter, TokenKind.opens?] using hNext
          exact startsFunction_of_closesAll hBefore fork.starts.head?_kind hCloses
            (by rw [List.count_cons_self]; omega)

end Prefix

section Rules

variable {α β : Type} {bound bound' : Nat} {final final' : Position} {reader reader' : Reader α}

/-- What was reported before by the first reader does not matter. -/
theorem Follows.after_left {reading reading' : Reading α} (hFollows : fork.Follows reading reading')
    (earlier : List Warning) : fork.Follows (reading.after earlier) reading' := by
  cases reading with
  | done value rest warnings => exact hFollows
  | refused error warnings => exact hFollows

/-- What was reported before by the second reader does not matter. -/
theorem Follows.after_right {reading reading' : Reading α} (hFollows : fork.Follows reading reading')
    (earlier : List Warning) : fork.Follows reading (reading'.after earlier) := by
  cases reading with
  | done value rest warnings =>
      rcases hFollows with hPassed | ⟨rest', warnings', rfl, hAlike⟩
      · exact .inl hPassed
      · exact .inr ⟨rest', _, rfl, hAlike⟩
  | refused error warnings =>
      rcases hFollows with hFork | ⟨error', warnings', rfl, hSame⟩
      · exact .inl hFork
      · exact .inr ⟨error', _, rfl, hSame⟩

/-- Nothing is asked of a reading from behind the fork. -/
theorem Follows.of_passed (hAdvances : reader.Advances) (hPassed : fork.Passed rest) (reading' : Reading α) :
    fork.Follows (reader final rest) reading' := by
  have hEnd := hAdvances final rest
  cases hReading : reader final rest with
  | done value left warnings =>
      rw [hReading] at hEnd
      exact .inl (Nat.lt_of_le_of_lt (List.IsSuffix.length_le hEnd) hPassed)
  | refused error warnings =>
      refine .inl fun hNil => ?_
      rw [Passed, hNil] at hPassed
      exact absurd hPassed (Nat.not_lt_zero _)

/-- What is read next needs to be followed only on lists that are alike and are left by the first readings. -/
theorem Follows.bind {next next' : α → Reader β} (hFirst : fork.Follows (reader final tokens) (reader' final' tokens'))
    (hEnd : (reader final tokens).LeavesEndOf tokens) (hEnd' : (reader' final' tokens').LeavesEndOf tokens')
    (hAdvances : ∀ value, (next value).Advances)
    (hNext : ∀ value rest rest', fork.Alike rest rest' → rest <:+ tokens → rest' <:+ tokens' →
      fork.Follows (next value final rest) (next' value final' rest')) :
    fork.Follows ((reader >>= next) final tokens) ((reader' >>= next') final' tokens') := by
  change fork.Follows (Reader.andThen reader next final tokens) (Reader.andThen reader' next' final' tokens')
  unfold Reader.andThen
  cases hReading : reader final tokens with
  | refused error warnings =>
      rw [hReading] at hFirst
      rcases hFirst with hFork | ⟨error', warnings', hReading', hSame⟩
      · exact .inl hFork
      · rw [hReading']
        exact .inr ⟨error', warnings', rfl, hSame⟩
  | done value rest warnings =>
      rw [hReading] at hFirst hEnd
      rcases hFirst with hPassed | ⟨rest', warnings', hReading', hAlike⟩
      · exact (Follows.of_passed (hAdvances value) hPassed _).after_left _
      · rw [hReading'] at hEnd' ⊢
        exact ((hNext value rest rest' hAlike hEnd hEnd').after_left _).after_right _

namespace Tracks

/-- What follows on more tokens follows on fewer. -/
theorem mono {larger larger' : Nat} (hTracks : fork.Tracks larger larger' reader reader') (hBound : bound ≤ larger)
    (hBound' : bound' ≤ larger') : fork.Tracks bound bound' reader reader' where
  advances := hTracks.advances
  advances' := hTracks.advances'
  follows final final' tokens tokens' hFinal hAlike hLength hLength' :=
    hTracks.follows final final' tokens tokens' hFinal hAlike (Nat.lt_of_lt_of_le hLength hBound)
      (Nat.lt_of_lt_of_le hLength' hBound')

/-- There are no lists with fewer than no tokens. -/
theorem of_eq_zero (hAdvances : reader.Advances) (hAdvances' : reader'.Advances) (hZero : bound = 0 ∨ bound' = 0) :
    fork.Tracks bound bound' reader reader' where
  advances := hAdvances
  advances' := hAdvances'
  follows _ _ _ _ _ _ hLength hLength' := by omega

theorem pure (value : α) : fork.Tracks bound bound' (pure value) (pure value) where
  advances := .pure value
  advances' := .pure value
  follows _ _ _ tokens' _ hAlike _ _ := .inr ⟨tokens', [], rfl, hAlike⟩

theorem warn (warning warning' : Warning) : fork.Tracks bound bound' (Reader.warn warning) (Reader.warn warning') where
  advances := .warn warning
  advances' := .warn warning'
  follows _ _ _ tokens' _ hAlike _ _ := .inr ⟨tokens', [warning'], rfl, hAlike⟩

/-- The second reader starts on lists that are alike, unless the first went beyond the fork; then it is enough that
readers advance. -/
theorem bind {next next' : α → Reader β} (hFirst : fork.Tracks bound bound' reader reader')
    (hNext : ∀ value, fork.Tracks bound bound' (next value) (next' value)) :
    fork.Tracks bound bound' (reader >>= next) (reader' >>= next') where
  advances := hFirst.advances.bind fun value => (hNext value).advances
  advances' := hFirst.advances'.bind fun value => (hNext value).advances'
  follows final final' tokens tokens' hFinal hAlike hLength hLength' :=
    Follows.bind (hFirst.follows final final' tokens tokens' hFinal hAlike hLength hLength')
      (hFirst.advances final tokens) (hFirst.advances' final' tokens') (fun value => (hNext value).advances)
      fun value rest rest' hRest hEnd hEnd' => (hNext value).follows final final' rest rest' hFinal hRest
        (Nat.lt_of_le_of_lt hEnd.length_le hLength) (Nat.lt_of_le_of_lt hEnd'.length_le hLength')

theorem ite {condition : Prop} [Decidable condition] {yes yes' no no' : Reader α}
    (hYes : fork.Tracks bound bound' yes yes') (hNo : fork.Tracks bound bound' no no') :
    fork.Tracks bound bound' (if condition then yes else no) (if condition then yes' else no') := by
  split
  · exact hYes
  · exact hNo

/-- The place of the next token may differ, but what is read behind does not depend on it. -/
theorem place_bind {next next' : Position → Reader α}
    (hNext : ∀ place place', fork.Tracks bound bound' (next place) (next' place')) :
    fork.Tracks bound bound' (Reader.place >>= next) (Reader.place >>= next') where
  advances := Reader.Advances.place.bind fun place => (hNext place place).advances
  advances' := Reader.Advances.place.bind fun place => (hNext place place).advances'
  follows final final' tokens tokens' hFinal hAlike hLength hLength' := by
    have hPlace (next : Position → Reader α) (final : Position) (tokens : List Token) :
        ∃ place, (Reader.place >>= next) final tokens = next place final tokens := by
      cases tokens with
      | nil => exact ⟨final, Reading.after_nil _⟩
      | cons token tokens => exact ⟨token.position, Reading.after_nil _⟩
    obtain ⟨place, hFirst⟩ := hPlace next final tokens
    obtain ⟨place', hSecond⟩ := hPlace next' final' tokens'
    rw [hFirst, hSecond]
    exact (hNext place place').follows final final' tokens tokens' hFinal hAlike hLength hLength'

/-- A refusal is followed by one of the same problem, at a place that corresponds. -/
theorem refuse (problem : SyntaxProblem) :
    fork.Tracks bound bound' (Reader.refuse problem : Reader α) (Reader.refuse problem) where
  advances := .refuse problem
  advances' := .refuse problem
  follows final final' tokens tokens' hFinal hAlike _ _ := by
    cases hAlike with
    | @cons kind place place' rest rest' hPlace _ _ => exact .inr ⟨⟨place', problem⟩, [], rfl, rfl, hPlace⟩
    | fork =>
        by_cases hTail : fork.tail = []
        · have hTail' : fork.tail' = [] := by
            have hSelf : fork.Alike fork.tail fork.tail' := .fork
            rw [hTail] at hSelf
            exact hSelf.eq_nil
          rw [hTail, hTail']
          exact .inr ⟨⟨final', problem⟩, [], rfl, rfl, hFinal⟩
        · cases hReading : (Reader.refuse problem : Reader α) final fork.tail with
          | refused error warnings => exact .inl hTail
          | done value rest warnings => cases hTail : fork.tail <;> simp [Reader.refuse, hTail] at hReading

theorem refuseNext (expected : Expectation) :
    fork.Tracks bound bound' (Reader.refuseNext expected : Reader α) (Reader.refuseNext expected) where
  advances := .refuseNext expected
  advances' := .refuseNext expected
  follows final final' tokens tokens' hFinal hAlike hLength hLength' := by
    rw [Reader.refuseNext, Reader.refuseNext, hAlike.head?_kind]
    exact (refuse _).follows final final' tokens tokens' hFinal hAlike hLength hLength'

/-- The lists are looked at as a whole. -/
theorem remaining_bind {next next' : List Token → Reader α} (hAdvances : (Reader.remaining >>= next).Advances)
    (hAdvances' : (Reader.remaining >>= next').Advances)
    (hNext : ∀ final final' tokens tokens', fork.places final final' → fork.Alike tokens tokens' →
      tokens.length < bound → tokens'.length < bound' →
        fork.Follows (next tokens final tokens) (next' tokens' final' tokens')) :
    fork.Tracks bound bound' (Reader.remaining >>= next) (Reader.remaining >>= next') where
  advances := hAdvances
  advances' := hAdvances'
  follows final final' tokens tokens' hFinal hAlike hLength hLength' := by
    rw [Reader.remaining_bind, Reader.remaining_bind]
    exact hNext final final' tokens tokens' hFinal hAlike hLength hLength'

/-- A choice that comes out the same for lists that are alike. -/
theorem if_remaining {look : List Token → Bool}
    (hLook : ∀ tokens tokens', fork.Alike tokens tokens' → look tokens' = look tokens) {yes yes' no no' : Reader α}
    (hYes : fork.Tracks bound bound' yes yes') (hNo : fork.Tracks bound bound' no no') :
    fork.Tracks bound bound' (Reader.remaining >>= fun tokens => if look tokens then yes else no)
      (Reader.remaining >>= fun tokens => if look tokens then yes' else no') := by
  refine remaining_bind (.if_remaining hYes.advances hNo.advances) (.if_remaining hYes.advances' hNo.advances') ?_
  intro final final' tokens tokens' hFinal hAlike hLength hLength'
  rw [hLook tokens tokens' hAlike]
  exact (hYes.ite hNo).follows final final' tokens tokens' hFinal hAlike hLength hLength'

/-- A mark is taken in both lists or in neither. Taking it at the fork goes beyond the fork. -/
theorem accept (mark : Mark) : fork.Tracks bound bound' (Reader.accept mark) (Reader.accept mark) where
  advances := .accept mark
  advances' := .accept mark
  follows final final' tokens tokens' _ hAlike _ _ := by
    rcases tokens with _ | ⟨⟨kind, place⟩, rest⟩
    · obtain rfl := hAlike.eq_nil
      exact .inr ⟨[], [], rfl, hAlike⟩
    · obtain ⟨place', rest', rfl, hRest⟩ := hAlike.uncons
      by_cases hKind : kind = .mark mark
      · rw [Reader.accept, Reader.accept, if_pos hKind, if_pos hKind]
        exact hRest.imp_right fun hRest => ⟨rest', [], rfl, hRest⟩
      · rw [Reader.accept, Reader.accept, if_neg hKind, if_neg hKind]
        exact .inr ⟨_, [], rfl, hAlike⟩

/-- Behind a mark that was taken there are fewer tokens. -/
theorem if_accepted {mark : Mark} {yes yes' no no' : Reader α} (hYes : fork.Tracks bound bound' yes yes')
    (hNo : fork.Tracks (bound + 1) (bound' + 1) no no') :
    fork.Tracks (bound + 1) (bound' + 1) (Reader.accept mark >>= fun accepted => if accepted then yes else no)
      (Reader.accept mark >>= fun accepted => if accepted then yes' else no') where
  advances := .if_accepted hYes.advances hNo.advances
  advances' := .if_accepted hYes.advances' hNo.advances'
  follows final final' tokens tokens' hFinal hAlike hLength hLength' := by
    by_cases hMark : tokens.head?.map Token.kind = some (.mark mark)
    · rcases tokens with _ | ⟨⟨kind, place⟩, rest⟩
      · cases hMark
      · obtain rfl : kind = .mark mark := by simpa using hMark
        obtain ⟨place', rest', rfl, hRest⟩ := hAlike.uncons
        rw [Reader.accept_bind_mark, Reader.accept_bind_mark]
        rcases hRest with hPassed | hRest
        · exact .of_passed hYes.advances hPassed _
        · exact hYes.follows final final' rest rest' hFinal hRest (Nat.lt_of_succ_lt_succ hLength)
            (Nat.lt_of_succ_lt_succ hLength')
    · rw [Reader.accept_bind_other hMark, Reader.accept_bind_other (by rwa [hAlike.head?_kind])]
      exact hNo.follows final final' tokens tokens' hFinal hAlike hLength hLength'

/-- A mark that is demanded is present in both lists or in neither. -/
theorem expectAs (mark : Mark) (expected : Expectation) :
    fork.Tracks bound bound' (Reader.expectAs mark expected) (Reader.expectAs mark expected) :=
  (accept mark).bind fun _ => (pure ()).ite (refuseNext expected)

theorem expect (mark : Mark) : fork.Tracks bound bound' (Reader.expect mark) (Reader.expect mark) :=
  expectAs mark _

/-- Items behind one mark each. Each mark is a token, so the numbers of tokens bound those of the items. -/
theorem eachAfter {mark : Mark} {item item' : Reader α} (hItem : fork.Tracks (bound + 1) (bound' + 1) item item') :
    fork.Tracks (bound + 1) (bound' + 1) (Reader.eachAfter mark item bound) (Reader.eachAfter mark item' bound') := by
  -- A bound that is used up leaves no tokens, on both sides.
  have hNone {bound bound' : Nat} (hEmpty : ∀ tokens tokens', fork.Alike tokens tokens' →
      tokens.length < bound + 1 → tokens'.length < bound' + 1 → tokens = []) :
      fork.Tracks (bound + 1) (bound' + 1) (Reader.eachAfter mark item bound) (Reader.eachAfter mark item' bound') :=
    { advances := hItem.advances.eachAfter bound
      advances' := hItem.advances'.eachAfter bound'
      follows := by
        intro final final' tokens tokens' _ hAlike hLength hLength'
        obtain rfl := hEmpty tokens tokens' hAlike hLength hLength'
        obtain rfl := hAlike.eq_nil
        have hNil (item : Reader α) (bound : Nat) (final : Position) :
            Reader.eachAfter mark item bound final [] = .done [] [] [] := by cases bound <;> rfl
        rw [hNil, hNil]
        exact .inr ⟨[], [], rfl, hAlike⟩ }
  induction bound generalizing bound' with
  | zero => exact hNone fun tokens tokens' _ hLength _ => List.length_eq_zero_iff.mp (Nat.lt_one_iff.mp hLength)
  | succ bound ih =>
      cases bound' with
      | zero =>
          refine hNone fun tokens tokens' hAlike _ hLength' => ?_
          obtain rfl : tokens' = [] := List.length_eq_zero_iff.mp (Nat.lt_one_iff.mp hLength')
          exact hAlike.swap.eq_nil
      | succ bound' =>
          have hFewer := hItem.mono (Nat.le_succ _) (Nat.le_succ _)
          exact if_accepted (hFewer.bind fun _ => (ih hFewer).bind fun _ => pure _) (pure [])

end Tracks

/-- A reading that ends at the fork in the first list ends there in the second one. -/
theorem Tracks.exists_done_at_fork (hTracks : fork.Tracks bound bound' reader reader')
    (hFinal : fork.places final final') (hAlike : fork.Alike tokens tokens') (hLength : tokens.length < bound)
    (hLength' : tokens'.length < bound') {value : α} {warnings : List Warning}
    (hDone : reader final tokens = .done value fork.tail warnings) :
    ∃ warnings', reader' final' tokens' = .done value fork.tail' warnings' := by
  have hFollows := hTracks.follows final final' tokens tokens' hFinal hAlike hLength hLength'
  rw [hDone] at hFollows
  rcases hFollows with hPassed | ⟨rest', warnings', hDone', hRest⟩
  · exact absurd hPassed (Nat.lt_irrefl _)
  · rw [hRest.eq_tail'] at hDone'
    exact ⟨warnings', hDone'⟩

/-- Reading goes on where tokens were passed over to, in both lists at corresponding places or in the first beyond the
fork. -/
theorem Follows.continueAt_bind {next next' : Unit → Reader α} (hNext : fork.Tracks bound bound' (next ()) (next' ()))
    (hRest : fork.Passed rest ∨ fork.Alike rest rest') (hFinal : fork.places final final')
    (hLength : rest.length < bound) (hLength' : rest'.length < bound') :
    fork.Follows ((Reader.continueAt rest >>= next) final tokens)
      ((Reader.continueAt rest' >>= next') final' tokens') := by
  rw [Reader.continueAt_bind, Reader.continueAt_bind]
  rcases hRest with hPassed | hAlike
  · exact .of_passed hNext.advances hPassed _
  · exact hNext.follows final final' rest rest' hFinal hAlike hLength hLength'

theorem Follows.warn_bind {next next' : Unit → Reader α}
    (hNext : fork.Follows (next () final tokens) (next' () final' tokens')) (warning warning' : Warning) :
    fork.Follows ((Reader.warn warning >>= next) final tokens) ((Reader.warn warning' >>= next') final' tokens') :=
  (hNext.after_left _).after_right _

/-- Passing over tokens by a function that ends at places that correspond. -/
theorem Tracks.skip_bind {skip : List Token → List Token} (hSkip : ∀ tokens, skip tokens <:+ tokens)
    (hAlike : ∀ tokens tokens', fork.Alike tokens tokens' →
      fork.Passed (skip tokens) ∨ fork.Alike (skip tokens) (skip tokens'))
    {next next' : Unit → Reader α} (hNext : fork.Tracks bound bound' (next ()) (next' ())) :
    fork.Tracks bound bound' (Reader.remaining >>= fun tokens => Reader.continueAt (skip tokens) >>= next)
      (Reader.remaining >>= fun tokens => Reader.continueAt (skip tokens) >>= next') := by
  refine .remaining_bind (.skip_bind hSkip fun _ => hNext.advances) (.skip_bind hSkip fun _ => hNext.advances') ?_
  intro final final' tokens tokens' hFinal hTokens hLength hLength'
  refine Follows.continueAt_bind hNext (hAlike tokens tokens' hTokens) hFinal ?_ ?_
  · exact Nat.lt_of_le_of_lt (hSkip tokens).length_le hLength
  · exact Nat.lt_of_le_of_lt (hSkip tokens').length_le hLength'

end Rules

end Fork

end SchemaForge
