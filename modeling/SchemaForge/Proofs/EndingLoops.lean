import SchemaForge.Proofs.TakenTokens

/-! Reading comes to an end. Where the grammar reads something again and again, or reads a type inside a type, a number
is counted down that starts from the number of tokens. The number is of no account: a token is taken in each round
before the next one begins, so at the end of the count there is nothing left to do. What would be done there is never
done, and the grammar is what it would be without the count. -/
namespace SchemaForge

namespace Reader

variable {α β σ : Type} {bound : Nat}

/-- The readers do the same on fewer tokens than given. -/
def AgreeBelow (bound : Nat) (reader reader' : Reader α) : Prop :=
  ∀ final tokens, tokens.length < bound → reader final tokens = reader' final tokens

namespace AgreeBelow

theorem refl (bound : Nat) (reader : Reader α) : AgreeBelow bound reader reader :=
  fun _ _ _ => rfl

/-- Where the first readers do the same, what they leave is no more than the tokens, so the next readers do the same
there too. -/
theorem bind {first first' : Reader α} {next next' : α → Reader β} (hFirst : AgreeBelow bound first first')
    (hAdvances : Advances first') (hNext : ∀ value, AgreeBelow bound (next value) (next' value)) :
    AgreeBelow bound (first >>= next) (first' >>= next') := by
  intro final tokens hLength
  change andThen first next final tokens = andThen first' next' final tokens
  rw [andThen, andThen, hFirst final tokens hLength]
  cases hReading : first' final tokens with
  | refused error warnings => rfl
  | done value rest warnings =>
      have hRest := (hAdvances.of_done hReading).length_le
      exact congrArg (Reading.after warnings) (hNext value final rest (by omega))

/-- Behind a token that was taken there is one token less to agree on. -/
theorem behind {first : Reader α} {next next' : α → Reader β} (hTakes : Takes first)
    (hNext : ∀ value, AgreeBelow bound (next value) (next' value)) :
    AgreeBelow (bound + 1) (first >>= next) (first >>= next') := by
  intro final tokens hLength
  change andThen first next final tokens = andThen first next' final tokens
  have hTaken := hTakes final tokens
  rw [andThen, andThen]
  cases hReading : first final tokens with
  | refused error warnings => rfl
  | done value rest warnings =>
      rw [hReading] at hTaken
      have hRest : rest.length < tokens.length := hTaken
      exact congrArg (Reading.after warnings) (hNext value final rest (by omega))

/-- Readers that decide alike agree if they do so on either side. -/
theorem ite {condition : Prop} [Decidable condition] {yes yes' no no' : Reader α} (hYes : AgreeBelow bound yes yes')
    (hNo : AgreeBelow bound no no') :
    AgreeBelow bound (if condition then yes else no) (if condition then yes' else no') := by
  split
  · exact hYes
  · exact hNo

/-- A mark that is taken counts as a token. -/
theorem if_accepted {mark : Mark} {yes yes' no no' : Reader α} (hYes : AgreeBelow bound yes yes')
    (hNo : AgreeBelow (bound + 1) no no') :
    AgreeBelow (bound + 1) (accept mark >>= fun accepted => if accepted then yes else no)
      (accept mark >>= fun accepted => if accepted then yes' else no') := by
  intro final tokens hLength
  rcases accept_bind_cases mark (fun accepted => if accepted then yes else no) final tokens with
    ⟨place, rest, rfl, hTaken⟩ | ⟨hMark, hOther⟩
  · rw [hTaken, accept_bind_mark]
    exact hYes final rest (Nat.lt_of_succ_lt_succ hLength)
  · rw [hOther, accept_bind_other hMark]
    exact hNo final tokens hLength

/-- The same without counting the mark. -/
theorem if_accepted_same {mark : Mark} {yes yes' no no' : Reader α} (hYes : AgreeBelow bound yes yes')
    (hNo : AgreeBelow bound no no') :
    AgreeBelow bound (accept mark >>= fun accepted => if accepted then yes else no)
      (accept mark >>= fun accepted => if accepted then yes' else no') :=
  (refl bound (accept mark)).bind (Advances.accept mark) fun _ => hYes.ite hNo

/-- A reader that looks at what remains may be compared on the tokens it looks at. -/
theorem remaining_bind {next next' : List Token → Reader α}
    (hNext : ∀ final tokens, tokens.length < bound → next tokens final tokens = next' tokens final tokens) :
    AgreeBelow bound (remaining >>= next) (remaining >>= next') := by
  intro final tokens hLength
  rw [Reader.remaining_bind, Reader.remaining_bind]
  exact hNext final tokens hLength

/-- Passing over tokens leaves fewer of them, so the readers behind still agree. -/
theorem skip_bind {skip : List Token → List Token} (hSkip : ∀ tokens, skip tokens <:+ tokens)
    {next next' : List Token → Unit → Reader α}
    (hNext : ∀ tokens, AgreeBelow bound (next tokens ()) (next' tokens ())) :
    AgreeBelow bound (remaining >>= fun tokens => continueAt (skip tokens) >>= next tokens)
      (remaining >>= fun tokens => continueAt (skip tokens) >>= next' tokens) := by
  apply remaining_bind
  intro final tokens hLength
  rw [continueAt_bind, continueAt_bind]
  exact hNext tokens final (skip tokens) (Nat.lt_of_le_of_lt (hSkip tokens).length_le hLength)

/-- Items that agree are read alike behind each mark. The induction is on the count of rounds, which both share. -/
theorem eachAfter {item item' : Reader α} (hItem : AgreeBelow bound item item') (hAdvances : Advances item')
    (mark : Mark) (count : Nat) :
    AgreeBelow bound (eachAfter mark item count) (eachAfter mark item' count) := by
  induction count with
  | zero => exact refl bound _
  | succ count ih =>
      refine if_accepted_same ?_ (refl bound _)
      exact hItem.bind hAdvances fun _ => ih.bind (hAdvances.eachAfter count) fun _ => refl bound _

end AgreeBelow

/-- The body gone round a number of times, with another reader for what would be done after that. -/
def rounds (body : (σ → Reader α) → σ → Reader α) (exhausted : σ → Reader α) : Nat → σ → Reader α
  | 0 => exhausted
  | count + 1 => body (rounds body exhausted count)

/-- The reader goes round the body until it comes to an end. It does so after at most one round more than there are
tokens, whatever would be done after that. -/
structure IsLoop (body : (σ → Reader α) → σ → Reader α) (loop : σ → Reader α) : Prop where
  again : loop = body loop
  ends : ∀ exhausted count state final tokens, tokens.length < count →
    rounds body exhausted count state final tokens = loop state final tokens

/-- The body takes a token before it goes round again. Hence what it does on one token more is determined. -/
def TakesBeforeAgain (body : (σ → Reader α) → σ → Reader α) : Prop :=
  ∀ bound (again again' : σ → Reader α), (∀ state, AgreeBelow bound (again state) (again' state)) →
    (∀ state, Advances (again' state)) → ∀ state, AgreeBelow (bound + 1) (body again state) (body again' state)

section Loops

variable {body : (σ → Reader α) → σ → Reader α} {loop : σ → Reader α} (bounded : Nat → σ → Reader α)
  (hBody : TakesBeforeAgain body) (hBounded : ∀ bound, bounded (bound + 1) = body (bounded bound))
  (hAdvances : ∀ bound state, Advances (bounded bound state))

include hBody hBounded hAdvances

/-- Both counts are longer than the tokens, so neither of them is met. The induction is on both counts. -/
theorem agreeBelow_rounds (exhausted : σ → Reader α) (count bound : Nat) (state : σ) :
    AgreeBelow (min count bound) (rounds body exhausted count state) (bounded bound state) := by
  induction count generalizing bound state with
  | zero =>
      intro final tokens hLength
      omega
  | succ count ih =>
      cases bound with
      | zero =>
          intro final tokens hLength
          omega
      | succ bound =>
          rw [rounds, hBounded, Nat.add_min_add_right]
          exact hBody _ _ _ (ih bound) (hAdvances bound) state

/-- A reader that counts its rounds down from one more than there are tokens. -/
theorem isLoop_of_bounded
    (hLoop : ∀ state final tokens, loop state final tokens = bounded (tokens.length + 1) state final tokens) :
    IsLoop body loop := by
  have hEnds (exhausted : σ → Reader α) (count : Nat) (state : σ) (final : Position) (tokens : List Token)
      (hLength : tokens.length < count) :
      rounds body exhausted count state final tokens = loop state final tokens := by
    rw [hLoop]
    exact agreeBelow_rounds bounded hBody hBounded hAdvances exhausted count _ state final tokens (by omega)
  have hRounds (count : Nat) : rounds body (bounded 0) count = bounded count := by
    induction count with
    | zero => rfl
    | succ count ih => rw [rounds, ih, hBounded]
  refine ⟨?_, hEnds⟩
  funext state final tokens
  rw [hLoop, hBounded]
  -- On fewer tokens the loop does what it does when it counts down from their number.
  have hFewer (other : σ) : AgreeBelow tokens.length (loop other) (bounded tokens.length other) := by
    intro final fewer hLength
    rw [← hRounds]
    exact (hEnds (bounded 0) tokens.length other final fewer hLength).symm
  exact (hBody tokens.length loop _ hFewer (hAdvances _) state final tokens (Nat.lt_succ_self _)).symm

end Loops

def itemRound (mark : Mark) (item : Reader α) (again : Unit → Reader (List α)) (_ : Unit) : Reader (List α) := do
  if ← accept mark then
    let value ← item
    let values ← again ()
    return value :: values
  else return []

/-- The mark in front of an item is the token that a round takes. -/
theorem takesBeforeAgain_itemRound (mark : Mark) {item : Reader α} (hItem : Advances item) :
    TakesBeforeAgain (itemRound mark item) := by
  intro bound again again' hAgree hAgain _
  refine AgreeBelow.if_accepted ?_ (AgreeBelow.refl _ _)
  exact (AgreeBelow.refl bound item).bind hItem fun value => (hAgree ()).bind (hAgain ()) fun _ =>
    AgreeBelow.refl bound _

/-- One round less is enough where each round needs a mark. -/
theorem agreeBelow_eachAfter_succ (mark : Mark) {item : Reader α} (hItem : Advances item) (count : Nat) :
    AgreeBelow (count + 1) (eachAfter mark item count) (eachAfter mark item (count + 1)) := by
  induction count with
  | zero =>
      intro final tokens hLength
      obtain rfl : tokens = [] := List.length_eq_zero_iff.mp (by omega)
      rfl
  | succ count ih =>
      exact takesBeforeAgain_itemRound mark hItem (count + 1) (fun _ => eachAfter mark item count)
        (fun _ => eachAfter mark item (count + 1)) (fun _ => ih) (fun _ => hItem.eachAfter _) ()

/-- Reading items behind a mark needs no count: the number of the tokens is enough for every run. -/
theorem isLoop_eachAfter (mark : Mark) {item : Reader α} (hItem : Advances item) :
    IsLoop (itemRound mark item) (fun _ => do eachAfter mark item (← remaining).length) := by
  refine isLoop_of_bounded (fun bound _ => eachAfter mark item bound) (takesBeforeAgain_itemRound mark hItem)
    (fun bound => rfl) (fun bound _ => hItem.eachAfter bound) ?_
  intro _ final tokens
  rw [remaining_bind]
  exact agreeBelow_eachAfter_succ mark hItem tokens.length final tokens (Nat.lt_succ_self _)

end Reader

namespace Grammar

open Reader

section Types

variable {operand operand' : Reader TypeTerm} {bound : Nat} (hAgree : AgreeBelow bound operand operand')
  (hOperand : Advances operand')

include hAgree hOperand

/-- The operands behind an ampersand are read alike, since each of them starts further on. -/
theorem agreeBelow_intersectionTail (first : TypeTerm) :
    AgreeBelow bound (intersectionTail operand first) (intersectionTail operand' first) := by
  apply AgreeBelow.remaining_bind
  intro final tokens hLength
  exact (hAgree.eachAfter hOperand _ _).bind (hOperand.eachAfter _) (fun _ => AgreeBelow.refl bound _) final tokens
    hLength

theorem agreeBelow_intersection : AgreeBelow bound (intersection operand) (intersection operand') :=
  hAgree.bind hOperand (agreeBelow_intersectionTail hAgree hOperand)

/-- The members behind a bar are intersections, which are read alike. -/
theorem agreeBelow_unionTail (first : TypeTerm) :
    AgreeBelow bound (unionTail operand first) (unionTail operand' first) := by
  apply AgreeBelow.remaining_bind
  intro final tokens hLength
  have hIntersection := advances_intersection hOperand
  exact ((agreeBelow_intersection hAgree hOperand).eachAfter hIntersection _ _).bind (hIntersection.eachAfter _)
    (fun _ => AgreeBelow.refl bound _) final tokens hLength

/-- A type in full is read alike by operands that agree, a leading bar or not. -/
theorem agreeBelow_wholeType : AgreeBelow bound (wholeType operand) (wholeType operand') :=
  (AgreeBelow.refl bound _).bind (Advances.accept _) fun _ =>
    (agreeBelow_intersection hAgree hOperand).bind (advances_intersection hOperand)
      (agreeBelow_unionTail hAgree hOperand)

/-- Only the first type argument of an array is read with the operand; other arguments are passed over by both. -/
theorem agreeBelow_referenceTo (first : String) :
    AgreeBelow bound (referenceTo operand first) (referenceTo operand' first) := by
  refine AgreeBelow.skip_bind (dottedParts_suffix first) fun tokens => ?_
  split
  · refine AgreeBelow.ite ?_ (AgreeBelow.refl bound _)
    exact (AgreeBelow.refl bound _).bind (Advances.accept _) fun _ =>
      (agreeBelow_wholeType hAgree hOperand).bind (advances_wholeType hOperand) fun _ => AgreeBelow.refl bound _
  · exact AgreeBelow.refl bound _

/-- There is one case for each use of a word, and most do not read an operand at all. -/
theorem agreeBelow_namedType (word : String) :
    AgreeBelow bound (namedType operand word) (namedType operand' word) := by
  intro final tokens hLength
  obtain ⟨use, hUse, hNamed⟩ := exists_wordUse word (startsType tokens)
  rw [hNamed operand final tokens rfl, hNamed operand' final tokens rfl]
  -- Only three kinds of words are followed by a type that is nested in this one.
  cases hUse with
  | keyword hWord => rfl
  | unknown hWord => rfl
  | unsupported hWord => rfl
  | modifier hWord hNext => exact hAgree final tokens hLength
  | operator hWord hNext =>
      exact (hAgree.bind hOperand fun _ => AgreeBelow.refl bound _) final tokens hLength
  | reference hWord hNext => exact agreeBelow_referenceTo hAgree hOperand word final tokens hLength

/-- The induction is on the count of elements. Both readers have the same count, so only their operands differ. -/
theorem agreeBelow_tupleElements (count : Nat) (elements : List TypeTerm) (rest : Option TypeTerm) :
    AgreeBelow bound (tupleElements operand count elements rest) (tupleElements operand' count elements rest) := by
  induction count generalizing elements rest with
  | zero => exact AgreeBelow.refl bound _
  | succ count ih =>
      refine AgreeBelow.if_accepted_same (AgreeBelow.refl bound _) ?_
      refine (AgreeBelow.refl bound _).bind (Advances.accept _) fun spread => ?_
      refine AgreeBelow.skip_bind skipLabel_suffix fun _ => ?_
      refine (agreeBelow_wholeType hAgree hOperand).bind (advances_wholeType hOperand) fun element => ?_
      refine (AgreeBelow.refl bound _).bind (Advances.accept _) fun _ => ?_
      refine (AgreeBelow.refl bound _).bind (advances_addElement _ _ _ _) fun added => ?_
      exact AgreeBelow.if_accepted_same (ih _ _) (AgreeBelow.refl bound _)

/-- The opening bracket is taken before any operand is read, so agreement on one token more follows. -/
theorem agreeBelow_tupleType : AgreeBelow (bound + 1) (tupleType operand) (tupleType operand') := by
  refine AgreeBelow.behind (Takes.expect _) fun _ => AgreeBelow.remaining_bind ?_
  exact fun final tokens hLength => agreeBelow_tupleElements hAgree hOperand _ _ _ final tokens hLength

/-- The opening parenthesis is taken before any operand is read, and so is the arrow of a function type. -/
theorem agreeBelow_parenthesized : AgreeBelow (bound + 1) (parenthesized operand) (parenthesized operand') := by
  apply AgreeBelow.remaining_bind
  intro final tokens hLength
  have hWhole := agreeBelow_wholeType hAgree hOperand
  split
  · rw [continueAt_bind, continueAt_bind]
    have hGroup := (skipGroup_suffix .openParen .closeParen 0 tokens).length_le
    refine AgreeBelow.behind (Takes.expect _) (fun _ => ?_) final _ (Nat.lt_of_le_of_lt hGroup hLength)
    exact hWhole.bind (advances_wholeType hOperand) fun _ => AgreeBelow.refl bound _
  · refine AgreeBelow.behind (Takes.expect _) (fun _ => ?_) final tokens hLength
    exact hWhole.bind (advances_wholeType hOperand) fun _ => AgreeBelow.refl bound _

/-- Operands that are nested in a primary type start behind its first token. -/
theorem agreeBelow_primaryType : AgreeBelow (bound + 1) (primaryType operand) (primaryType operand') := by
  apply AgreeBelow.remaining_bind
  intro final tokens hLength
  rcases tokens with _ | ⟨⟨kind, position⟩, rest⟩
  · rfl
  cases kind with
  | word name =>
      dsimp only
      rw [continueAt_bind, continueAt_bind]
      exact agreeBelow_namedType hAgree hOperand name final rest (Nat.lt_of_succ_lt_succ hLength)
  | mark mark =>
      cases mark with
      | openBracket => exact agreeBelow_tupleType hAgree hOperand final _ hLength
      | openParen => exact agreeBelow_parenthesized hAgree hOperand final _ hLength
      | _ => rfl
  | _ => rfl

end Types

/-- One round of reading an operand: a round begins with each operand that is nested in it. -/
def operandRound (again : Unit → Reader TypeTerm) (_ : Unit) : Reader TypeTerm := do
  suffixed (← primaryType (again ()))

/-- The depth that bounds the nesting of types is never reached: a nested operand starts at least one token further
on. -/
theorem isLoop_operandType : IsLoop operandRound fun _ => operandType := by
  have hRound : TakesBeforeAgain operandRound := by
    intro bound again again' hAgree hAgain _
    exact (agreeBelow_primaryType (hAgree ()) (hAgain ())).bind (advances_primaryType (hAgain ())) fun _ =>
      AgreeBelow.refl (bound + 1) _
  refine isLoop_of_bounded (fun depth _ => operandWithin depth) hRound (fun depth => rfl)
    (fun depth _ => advances_operandWithin depth) ?_
  intro _ final tokens
  rw [operandType, remaining_bind]

/-- One round of reading the elements of a tuple, behind those that were read. -/
def tupleRound (operand : Reader TypeTerm) (again : List TypeTerm × Option TypeTerm → Reader TypeTerm)
    (read : List TypeTerm × Option TypeTerm) : Reader TypeTerm := do
  if ← accept .closeBracket then return .tuple read.1 read.2
  else
    let spread ← accept .ellipsis
    continueAt (skipLabel (← remaining))
    let element ← wholeType operand
    let _ ← accept .question
    let read ← addElement read.1 read.2 spread element
    if ← accept .comma then again read
    else
      expectAs .closeBracket .tupleEnd
      return .tuple read.1 read.2

/-- The elements of a tuple need no count, as each of them takes a token. -/
theorem isLoop_tupleElements {operand : Reader TypeTerm} (hTakes : Takes operand) (hOperand : Advances operand) :
    IsLoop (tupleRound operand)
      (fun read => do tupleElements operand ((← remaining).length + 1) read.1 read.2) := by
  have hRound : TakesBeforeAgain (tupleRound operand) := by
    intro bound again again' hAgree hAgain read
    refine AgreeBelow.if_accepted (AgreeBelow.refl bound _) ?_
    refine (AgreeBelow.refl _ _).bind (Advances.accept _) fun spread => ?_
    refine AgreeBelow.skip_bind skipLabel_suffix fun _ => ?_
    refine AgreeBelow.behind (takes_wholeType hTakes hOperand) fun element => ?_
    refine (AgreeBelow.refl bound _).bind (Advances.accept _) fun _ => ?_
    refine (AgreeBelow.refl bound _).bind (advances_addElement _ _ _ _) fun added => ?_
    exact AgreeBelow.if_accepted_same (hAgree added) (AgreeBelow.refl bound _)
  refine isLoop_of_bounded (fun bound read => tupleElements operand bound read.1 read.2) hRound
    (fun bound => rfl) (fun bound read => advances_tupleElements hOperand bound read.1 read.2) ?_
  intro read final tokens
  rw [remaining_bind]

def memberThen (further : Reader (List Property)) : Reader (List Property) := do
  let property ← member
  if endsMember (← remaining) then
    let further ← further
    return property.toList ++ further
  else refuseNext .propertyEnd

def memberRound (again : Unit → Reader (List Property)) (_ : Unit) : Reader (List Property) := do
  continueAt (skipSeparators (← remaining))
  if (← remaining).isEmpty then refuse .unterminatedObject
  else if ← accept .closeBrace then return []
  else memberThen (again ())

/-- A member takes a token, so what follows it is read on fewer tokens. -/
theorem agreeBelow_memberThen {further further' : Reader (List Property)} {bound : Nat}
    (hAgree : AgreeBelow bound further further') (hFurther : Advances further') :
    AgreeBelow (bound + 1) (memberThen further) (memberThen further') := by
  refine AgreeBelow.behind takes_member fun property => AgreeBelow.remaining_bind ?_
  intro final tokens hLength
  exact ((hAgree.bind hFurther fun _ => AgreeBelow.refl bound _).ite (AgreeBelow.refl bound _)) final tokens hLength

/-- The members of an object type need no count, as a member that is read or given up takes a token. -/
theorem isLoop_members : IsLoop memberRound (fun _ => do members ((← remaining).length + 1)) := by
  have hRound : TakesBeforeAgain memberRound := by
    intro bound again again' hAgree hAgain _
    refine AgreeBelow.skip_bind skipSeparators_suffix fun _ => AgreeBelow.remaining_bind ?_
    intro final tokens hLength
    have hMember := agreeBelow_memberThen (hAgree ()) (hAgain ())
    exact ((AgreeBelow.refl _ _).ite
      (AgreeBelow.if_accepted (AgreeBelow.refl bound _) hMember)) final tokens hLength
  refine isLoop_of_bounded (fun bound _ => members bound) hRound (fun bound => rfl)
    (fun bound _ => advances_members bound) ?_
  intro _ final tokens
  rw [remaining_bind]

end Grammar

end SchemaForge
