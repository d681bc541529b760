import SchemaForge.Declaration.Reading

/-! Rules for readers that succeed. What a reader does on tokens of known kinds before others of known
kinds is put together from what its steps do, the way a proof about a program is put together from its
statements. The places of the tokens stay arbitrary. -/
namespace SchemaForge

theorem Reading.after_nil {α : Type} (reading : Reading α) : reading.after [] = reading := by
  cases reading <;> rfl

/-- The tokens that follow start with one of the marks. -/
def StartsWithMark (marks : List Mark) (kinds : List TokenKind) : Prop :=
  ∃ mark ∈ marks, kinds.head? = some (.mark mark)

theorem StartsWithMark.cons {marks : List Mark} {mark : Mark} (hMem : mark ∈ marks)
    (kinds : List TokenKind) : StartsWithMark marks (.mark mark :: kinds) :=
  ⟨mark, hMem, rfl⟩

/-- What starts with one of some marks starts with one of more marks. -/
theorem StartsWithMark.mono {marks larger : List Mark} {kinds : List TokenKind}
    (hStarts : StartsWithMark marks kinds) (hSubset : ∀ mark ∈ marks, mark ∈ larger) :
    StartsWithMark larger kinds := by
  obtain ⟨mark, hMem, hHead⟩ := hStarts
  exact ⟨mark, hSubset mark hMem, hHead⟩

/-- A mark that cannot follow does not follow, so a reader that looks for it finds none. -/
theorem StartsWithMark.head?_ne {marks : List Mark} {kinds : List TokenKind}
    (hStarts : StartsWithMark marks kinds) {other : Mark} (hOther : other ∉ marks) :
    kinds.head? ≠ some (.mark other) := by
  obtain ⟨mark, hMem, hHead⟩ := hStarts
  rw [hHead]
  rintro ⟨⟩
  exact hOther hMem

/-- The tokens are as many as their kinds, which is what the bounds of loops are compared with. -/
theorem length_of_map_kind {tokens : List Token} {kinds following : List TokenKind}
    (hTokens : tokens.map Token.kind = kinds ++ following) : tokens.length = kinds.length + following.length := by
  rw [← List.length_append, ← hTokens, List.length_map]

/-- As many items as there are need no more steps than their tokens are many. -/
theorem length_le_length_flatMap {α : Type} {spelling : α → List TokenKind}
    (hSome : ∀ item, 0 < (spelling item).length) (items : List α) :
    items.length ≤ (items.flatMap spelling).length := by
  induction items with
  | nil => simp
  | cons item items ih =>
      have hItem := hSome item
      simp only [List.flatMap_cons, List.length_append, List.length_cons]
      omega

namespace Reader

variable {α β : Type} {kinds further following : List TokenKind} {value : α} {result : β}

/-- Looking at the tokens takes none of them. -/
@[simp]
theorem remaining_bind (next : List Token → Reader α) (final : Position) (tokens : List Token) :
    (remaining >>= next) final tokens = next tokens final tokens :=
  Reading.after_nil _

/-- Going on elsewhere forgets the tokens at hand. -/
@[simp]
theorem continueAt_bind (rest : List Token) (next : Unit → Reader α) (final : Position)
    (tokens : List Token) : (continueAt rest >>= next) final tokens = next () final rest :=
  Reading.after_nil _

/-- Readers form a monad, and warnings are collected in the same order either way. -/
theorem andThen_assoc {γ : Type} (first : Reader α) (next : α → Reader β) (last : β → Reader γ) :
    andThen (andThen first next) last = andThen first fun value => andThen (next value) last := by
  funext final tokens
  unfold andThen
  cases hFirst : first final tokens with
  | refused error warnings => rfl
  | done value rest warnings =>
      cases hNext : next value final rest with
      | refused error further => simp [Reading.after, hNext]
      | done result left further =>
          cases hLast : last result final left <;> simp [Reading.after, hNext, hLast]

instance : LawfulMonad Reader :=
  LawfulMonad.mk' Reader
    (by
      intro α reader
      funext final tokens
      change andThen reader yield final tokens = reader final tokens
      unfold andThen
      cases reader final tokens <;> simp [yield, Reading.after])
    (fun _ _ => funext fun _ => funext fun _ => Reading.after_nil _)
    andThen_assoc

theorem accept_bind_mark (mark : Mark) (next : Bool → Reader α) (final place : Position) (rest : List Token) :
    (accept mark >>= next) final (⟨.mark mark, place⟩ :: rest) = next true final rest := by
  change andThen (accept mark) next final _ = _
  rw [andThen, accept, if_pos rfl]
  exact Reading.after_nil _

/-- Where the mark is not next, the reader that follows is told so and starts at the same token. -/
theorem accept_bind_other {mark : Mark} {tokens : List Token}
    (hOther : tokens.head?.map Token.kind ≠ some (.mark mark)) (next : Bool → Reader α) (final : Position) :
    (accept mark >>= next) final tokens = next false final tokens := by
  change andThen (accept mark) next final tokens = _
  cases tokens with
  | nil => exact Reading.after_nil _
  | cons token rest =>
      rw [andThen, accept, if_neg (by simpa using hOther)]
      exact Reading.after_nil _

/-- A mark that may be taken is next and taken, or something else is next. -/
theorem accept_bind_cases (mark : Mark) (next : Bool → Reader α) (final : Position) (tokens : List Token) :
    (∃ place rest, tokens = ⟨.mark mark, place⟩ :: rest ∧
      (accept mark >>= next) final tokens = next true final rest) ∨
    (tokens.head?.map Token.kind ≠ some (.mark mark) ∧
      (accept mark >>= next) final tokens = next false final tokens) := by
  by_cases hMark : tokens.head?.map Token.kind = some (.mark mark)
  · rcases tokens with _ | ⟨⟨kind, place⟩, rest⟩
    · cases hMark
    obtain rfl : kind = .mark mark := Option.some.inj hMark
    exact Or.inl ⟨place, rest, rfl, accept_bind_mark mark next final place rest⟩
  · exact Or.inr ⟨hMark, accept_bind_other hMark next final⟩

theorem expect_bind_mark (mark : Mark) (next : Unit → Reader α) (final place : Position) (rest : List Token) :
    (expect mark >>= next) final (⟨.mark mark, place⟩ :: rest) = next () final rest := by
  have hExpect : expect mark final (⟨.mark mark, place⟩ :: rest) = .done () rest [] :=
    accept_bind_mark mark _ final place rest
  change andThen (expect mark) next final _ = _
  rw [andThen, hExpect]
  exact Reading.after_nil _

/-- What a reader yields may be turned into something else. -/
theorem bind_pure_eq_done_iff {reader : Reader α} {turned : α → β} {final : Position} {tokens rest : List Token}
    {warnings : List Warning} :
    (reader >>= fun value => pure (turned value)) final tokens = .done result rest warnings ↔
      ∃ value, reader final tokens = .done value rest warnings ∧ turned value = result := by
  change andThen reader _ final tokens = _ ↔ _
  unfold andThen
  cases reader final tokens with
  | refused error earlier => simp
  | done value left earlier =>
      change Reading.done (turned value) left (earlier ++ []) = _ ↔ _
      simp only [List.append_nil, Reading.done.injEq]
      constructor
      · rintro ⟨rfl, rfl, rfl⟩
        exact ⟨value, ⟨rfl, rfl, rfl⟩, rfl⟩
      · rintro ⟨_, ⟨rfl, rfl, rfl⟩, rfl⟩
        exact ⟨rfl, rfl, rfl⟩

theorem bind_pure_eq_refused_iff {reader : Reader α} {turned : α → β} {final : Position} {tokens : List Token}
    {error : SyntaxError} {warnings : List Warning} :
    (reader >>= fun value => pure (turned value)) final tokens = .refused error warnings ↔
      reader final tokens = .refused error warnings := by
  change andThen reader _ final tokens = _ ↔ _
  unfold andThen
  cases reader final tokens with
  | refused other earlier => simp
  | done value left earlier =>
      change Reading.done (turned value) left (earlier ++ []) = _ ↔ _
      simp

/-- The reader yields the value and leaves these tokens, whatever it reports. -/
def Yields (reader : Reader α) (final : Position) (tokens : List Token) (value : α) (rest : List Token) : Prop :=
  ∃ warnings, reader final tokens = .done value rest warnings

section Yields

variable {final : Position} {tokens left rest : List Token}

theorem Yields.pure (value : α) (final : Position) (tokens : List Token) :
    Yields (pure value) final tokens value tokens :=
  ⟨[], rfl⟩

/-- Readings follow each other, and what was reported is put together. -/
theorem Yields.bind {first : Reader α} {next : α → Reader β} (hFirst : Yields first final tokens value left)
    (hNext : Yields (next value) final left result rest) : Yields (first >>= next) final tokens result rest := by
  obtain ⟨warnings, hFirst⟩ := hFirst
  obtain ⟨further, hNext⟩ := hNext
  refine ⟨warnings ++ further, ?_⟩
  change andThen first next final tokens = _
  rw [andThen, hFirst]
  dsimp only
  rw [hNext, Reading.after]

/-- What is reported does not matter to what is yielded. -/
theorem Yields.warn_bind {next : Unit → Reader β} (hNext : Yields (next ()) final tokens result rest)
    (warning : Warning) : Yields (warn warning >>= next) final tokens result rest :=
  Yields.bind ⟨[warning], rfl⟩ hNext

theorem Yields.warn_pure (warning : Warning) (value : α) (final : Position) (tokens : List Token) :
    Yields (do warn warning; return value) final tokens value tokens :=
  ⟨[warning], rfl⟩

theorem Yields.place_bind {next : Position → Reader β} (hNext : ∀ place, Yields (next place) final tokens result rest) :
    Yields (place >>= next) final tokens result rest := by
  cases tokens with
  | nil => exact Yields.bind ⟨[], rfl⟩ (hNext final)
  | cons token tokens => exact Yields.bind ⟨[], rfl⟩ (hNext token.position)

theorem Yields.remaining_bind {next : List Token → Reader β} (hNext : Yields (next tokens) final tokens result rest) :
    Yields (remaining >>= next) final tokens result rest :=
  Yields.bind ⟨[], rfl⟩ hNext

theorem Yields.continueAt_bind {next : Unit → Reader β} (hNext : Yields (next ()) final left result rest) :
    Yields (continueAt left >>= next) final tokens result rest :=
  Yields.bind ⟨[], rfl⟩ hNext

theorem Yields.accept_bind {next : Bool → Reader β} (hNext : Yields (next true) final tokens result rest) (mark : Mark)
    (place : Position) : Yields (accept mark >>= next) final (⟨.mark mark, place⟩ :: tokens) result rest := by
  obtain ⟨warnings, hNext⟩ := hNext
  exact ⟨warnings, (accept_bind_mark mark next final place tokens).trans hNext⟩

theorem Yields.accept_other_bind {mark : Mark} (hOther : tokens.head?.map Token.kind ≠ some (.mark mark))
    {next : Bool → Reader β} (hNext : Yields (next false) final tokens result rest) :
    Yields (accept mark >>= next) final tokens result rest := by
  obtain ⟨warnings, hNext⟩ := hNext
  exact ⟨warnings, (accept_bind_other hOther next final).trans hNext⟩

theorem Yields.expect_bind {next : Unit → Reader β} (hNext : Yields (next ()) final tokens result rest) (mark : Mark)
    (place : Position) : Yields (expect mark >>= next) final (⟨.mark mark, place⟩ :: tokens) result rest := by
  obtain ⟨warnings, hNext⟩ := hNext
  exact ⟨warnings, (expect_bind_mark mark next final place tokens).trans hNext⟩

theorem Yields.map {reader : Reader α} (hRead : Yields reader final tokens value rest) (turned : α → β) :
    Yields (reader >>= fun value => Pure.pure (turned value)) final tokens (turned value) rest :=
  hRead.bind (Yields.pure _ _ _)

/-- One more item behind its mark, with one round more. -/
theorem Yields.eachAfter_cons {item : Reader α} {values : List α} {mark : Mark} {bound : Nat}
    (hItem : Yields item final tokens value left) (hItems : Yields (eachAfter mark item bound) final left values rest)
    (place : Position) :
    Yields (eachAfter mark item (bound + 1)) final (⟨.mark mark, place⟩ :: tokens) (value :: values) rest :=
  Yields.accept_bind (hItem.bind (hItems.map (value :: ·))) mark place

end Yields

/-- On tokens of these kinds, before others of the kinds that follow, the reader yields the value, takes
those tokens and no more, and reports nothing. -/
def Reads (reader : Reader α) (kinds : List TokenKind) (value : α) (following : List TokenKind) : Prop :=
  ∀ final tokens rest, tokens.map Token.kind = kinds → rest.map Token.kind = following →
    reader final (tokens ++ rest) = .done value rest []

theorem Reads.pure (value : α) (following : List TokenKind) : Reads (pure value) [] value following := by
  intro final tokens rest hTokens _
  rw [List.map_eq_nil_iff.mp hTokens]
  rfl

/-- The kinds of the second reader are among those that follow the first. -/
theorem Reads.bind {first : Reader α} {next : α → Reader β}
    (hFirst : Reads first kinds value (further ++ following))
    (hNext : Reads (next value) further result following) :
    Reads (first >>= next) (kinds ++ further) result following := by
  intro final tokens rest hTokens hRest
  obtain ⟨taken, left, rfl, hTaken, hLeft⟩ := List.map_eq_append_iff.mp hTokens
  have hStep := hFirst final taken (left ++ rest) hTaken (by rw [List.map_append, hLeft, hRest])
  change andThen first next final (taken ++ left ++ rest) = _
  rw [andThen, List.append_assoc, hStep]
  exact (Reading.after_nil _).trans (hNext final left rest hLeft hRest)

/-- A step that takes all tokens but leaves a last computation to be done. -/
theorem Reads.bind_done {first : Reader α} {next : α → Reader β}
    (hFirst : Reads first kinds value following) (hNext : Reads (next value) [] result following) :
    Reads (first >>= next) kinds result following := by
  simpa using Reads.bind (show Reads first kinds value ([] ++ following) from hFirst) hNext

/-- A step that takes nothing. -/
theorem Reads.bind_peek {first : Reader α} {next : α → Reader β}
    (hFirst : Reads first [] value (kinds ++ following)) (hNext : Reads (next value) kinds result following) :
    Reads (first >>= next) kinds result following :=
  Reads.bind hFirst hNext

/-- A reader that looks ahead sees the kinds that it is given and those that follow. -/
theorem Reads.remaining_bind {next : List Token → Reader β}
    (hNext : ∀ tokens : List Token, tokens.map Token.kind = kinds ++ following →
      Reads (next tokens) kinds result following) :
    Reads (remaining >>= next) kinds result following := by
  intro final tokens rest hTokens hRest
  rw [Reader.remaining_bind]
  exact hNext _ (by rw [List.map_append, hTokens, hRest]) final tokens rest hTokens hRest

/-- Passing over the first tokens and reading on. -/
theorem Reads.skip_bind {skipped : List TokenKind} {skip : List Token → List Token} {next : Reader β}
    (hSkip : ∀ taken tokens : List Token, taken.map Token.kind = skipped →
      tokens.map Token.kind = kinds ++ following → skip (taken ++ tokens) = tokens)
    (hNext : Reads next kinds result following) :
    Reads (remaining >>= fun tokens => continueAt (skip tokens) >>= fun _ => next)
      (skipped ++ kinds) result following := by
  intro final tokens rest hTokens hRest
  obtain ⟨taken, left, rfl, hTaken, hLeft⟩ := List.map_eq_append_iff.mp hTokens
  rw [Reader.remaining_bind, continueAt_bind, List.append_assoc,
    hSkip taken (left ++ rest) hTaken (by rw [List.map_append, hLeft, hRest])]
  exact hNext final left rest hLeft hRest

/-- Passing over nothing. -/
theorem Reads.keep_bind {skip : List Token → List Token} {next : Reader β}
    (hKeep : ∀ tokens : List Token, tokens.map Token.kind = kinds ++ following → skip tokens = tokens)
    (hNext : Reads next kinds result following) :
    Reads (remaining >>= fun tokens => continueAt (skip tokens) >>= fun _ => next) kinds result following := by
  intro final tokens rest hTokens hRest
  rw [Reader.remaining_bind, continueAt_bind, hKeep _ (by rw [List.map_append, hTokens, hRest])]
  exact hNext final tokens rest hTokens hRest

/-- A reader that takes the first token for granted and goes on as another one. -/
theorem Reads.take_first {kind : TokenKind} {reader next : Reader α}
    (hStep : ∀ final position tokens, reader final (⟨kind, position⟩ :: tokens) = next final tokens)
    (hNext : Reads next kinds value following) : Reads reader (kind :: kinds) value following := by
  intro final tokens rest hTokens hRest
  obtain ⟨⟨_, position⟩, tokens, rfl, rfl, hLeft⟩ := List.map_eq_cons_iff.mp hTokens
  exact (hStep final position (tokens ++ rest)).trans (hNext final tokens rest hLeft hRest)

/-- A reader that becomes another one when it sees the first token. -/
theorem Reads.see_first {kind : TokenKind} {reader next : Reader α}
    (hStep : ∀ final position tokens,
      reader final (⟨kind, position⟩ :: tokens) = next final (⟨kind, position⟩ :: tokens))
    (hNext : Reads next (kind :: kinds) value following) : Reads reader (kind :: kinds) value following := by
  intro final tokens rest hTokens hRest
  have hRead := hNext final tokens rest hTokens hRest
  obtain ⟨⟨_, position⟩, tokens, rfl, rfl, _⟩ := List.map_eq_cons_iff.mp hTokens
  exact (hStep final position (tokens ++ rest)).trans hRead

theorem Reads.accept (mark : Mark) (following : List TokenKind) :
    Reads (accept mark) [.mark mark] true following := by
  intro final tokens rest hTokens _
  obtain ⟨token, tokens, rfl, hKind, hNil⟩ := List.map_eq_cons_iff.mp hTokens
  rw [List.map_eq_nil_iff.mp hNil]
  simp [Reader.accept, hKind]

theorem Reads.accept_other {mark : Mark} (hOther : following.head? ≠ some (.mark mark)) :
    Reads (Reader.accept mark) [] false following := by
  intro final tokens rest hTokens hRest
  rw [List.map_eq_nil_iff.mp hTokens, List.nil_append]
  subst hRest
  cases rest with
  | nil => rfl
  | cons token rest =>
      have hKind : token.kind ≠ .mark mark := by simpa using hOther
      simp [Reader.accept, hKind]

theorem Reads.accept_bind {mark : Mark} {next : Bool → Reader β} (hNext : Reads (next true) kinds result following) :
    Reads (Reader.accept mark >>= next) (.mark mark :: kinds) result following :=
  Reads.bind (Reads.accept mark _) hNext

theorem Reads.if_accepted {mark : Mark} {yes no : Reader β} (hYes : Reads yes kinds result following) :
    Reads (Reader.accept mark >>= fun accepted => if accepted then yes else no)
      (.mark mark :: kinds) result following :=
  Reads.accept_bind hYes

theorem Reads.if_not_accepted {mark : Mark} {yes no : Reader β}
    (hOther : (kinds ++ following).head? ≠ some (.mark mark)) (hNo : Reads no kinds result following) :
    Reads (Reader.accept mark >>= fun accepted => if accepted then yes else no) kinds result following :=
  Reads.bind_peek (Reads.accept_other hOther) hNo

/-- A mark that is demanded and present is taken without a report. -/
theorem Reads.expectAs (mark : Mark) (expected : Expectation) (following : List TokenKind) :
    Reads (expectAs mark expected) [.mark mark] () following :=
  Reads.if_accepted (Reads.pure () following)

theorem Reads.expect (mark : Mark) (following : List TokenKind) :
    Reads (expect mark) [.mark mark] () following :=
  Reads.expectAs mark _ following

theorem Reads.expect_bind {mark : Mark} {next : Unit → Reader β} (hNext : Reads (next ()) kinds result following) :
    Reads (Reader.expect mark >>= next) (.mark mark :: kinds) result following :=
  Reads.bind (Reads.expect mark _) hNext

/-- Items behind one mark each are read up to the first that has another mark before it. The items may
need that something known follows them, which a mark of this kind must be. -/
theorem Reads.eachAfter {mark : Mark} {item : Reader α} {spelling : α → List TokenKind}
    {ends : List TokenKind → Prop} {values : List α} {bound : Nat}
    (hItem : ∀ value ∈ values, ∀ following, ends following → Reads item (spelling value) value following)
    (hMark : ∀ kinds, ends (.mark mark :: kinds)) (hEnds : ends following)
    (hOther : following.head? ≠ some (.mark mark)) (hBound : values.length ≤ bound) :
    Reads (eachAfter mark item bound) (values.flatMap fun value => .mark mark :: spelling value)
      values following := by
  induction values generalizing bound with
  | nil =>
      cases bound with
      | zero => exact Reads.pure [] following
      | succ bound => exact Reads.if_not_accepted hOther (Reads.pure [] following)
  | cons value values ih =>
      cases bound with
      | zero => simp at hBound
      | succ bound =>
          have hFurther := ih (fun other hMem => hItem other (List.mem_cons_of_mem _ hMem))
            (Nat.le_of_succ_le_succ hBound)
          have hNext : ends ((values.flatMap fun value => .mark mark :: spelling value) ++ following) := by
            cases values with
            | nil => exact hEnds
            | cons second values => exact hMark _
          have hValue := hItem value List.mem_cons_self _ hNext
          rw [List.flatMap_cons, List.cons_append]
          exact Reads.if_accepted (Reads.bind hValue (Reads.bind_done hFurther (Reads.pure _ following)))

end Reader

end SchemaForge
