import SchemaForge.Declaration.Grammar

/-! Passing over tokens. The functions of the grammar that do so differ only in what they do at a token, which
depends on its kind and on a depth; so they are one function with that choice as a parameter. A piece in which
brackets match is passed over as a whole where nothing outside the brackets that are counted ends the skipping. -/
namespace SchemaForge

/-- What is done at a token: go on with a new depth, or end before or behind the token. -/
inductive SkipStep where
  | onward (depth : Nat)
  | endBefore
  | endBehind

def skipTokens (step : Nat → TokenKind → SkipStep) (depth : Nat) : List Token → List Token
  | [] => []
  | token :: rest =>
      match step depth token.kind with
      | .onward depth => skipTokens step depth rest
      | .endBefore => token :: rest
      | .endBehind => rest

section Steps

variable {step : Nat → TokenKind → SkipStep} {depth further : Nat} {token : Token} {rest : List Token}

theorem skipTokens_onward (hStep : step depth token.kind = .onward further) :
    skipTokens step depth (token :: rest) = skipTokens step further rest := by
  rw [skipTokens, hStep]

theorem skipTokens_endBefore (hStep : step depth token.kind = .endBefore) :
    skipTokens step depth (token :: rest) = token :: rest := by
  rw [skipTokens, hStep]

theorem skipTokens_endBehind (hStep : step depth token.kind = .endBehind) :
    skipTokens step depth (token :: rest) = rest := by
  rw [skipTokens, hStep]

/-- Whatever the steps are, what is left is an end of the tokens. -/
theorem skipTokens_suffix (step : Nat → TokenKind → SkipStep) (depth : Nat) (tokens : List Token) :
    skipTokens step depth tokens <:+ tokens := by
  induction tokens generalizing depth with
  | nil => exact List.suffix_rfl
  | cons token rest ih =>
      cases hStep : step depth token.kind with
      | onward further =>
          rw [skipTokens_onward hStep]
          exact (ih further).trans (List.suffix_cons token rest)
      | endBefore => simp [skipTokens_endBefore hStep]
      | endBehind =>
          rw [skipTokens_endBehind hStep]
          exact List.suffix_cons token rest

end Steps

namespace Grammar

def memberStep (depth : Nat) : TokenKind → SkipStep
  | .mark .openBrace => .onward (depth + 1)
  | .mark .openParen => .onward (depth + 1)
  | .mark .openBracket => .onward (depth + 1)
  | .mark .closeParen => .onward (depth - 1)
  | .mark .closeBracket => .onward (depth - 1)
  | .mark .closeBrace => if depth = 0 then .endBefore else .onward (depth - 1)
  | .mark .semicolon => if depth = 0 then .endBefore else .onward depth
  | .mark .comma => if depth = 0 then .endBefore else .onward depth
  | _ => .onward depth

def groupStep (opening closing : Mark) (depth : Nat) (kind : TokenKind) : SkipStep :=
  if kind = .mark opening then .onward (depth + 1)
  else if kind = .mark closing then if depth ≤ 1 then .endBehind else .onward (depth - 1)
  else .onward depth

def argumentStep (depth : Nat) : TokenKind → SkipStep
  | .mark .less => .onward (depth + 1)
  | .mark .greater => if depth ≤ 1 then .endBehind else .onward (depth - 1)
  | .mark .semicolon => if depth ≤ 1 then .endBefore else .onward depth
  | .mark .closeBrace => if depth ≤ 1 then .endBefore else .onward depth
  | _ => .onward depth

def separatorStep (depth : Nat) : TokenKind → SkipStep
  | .mark .semicolon => .onward depth
  | .mark .comma => .onward depth
  | _ => .endBefore

/-- Passing over a member in terms of its steps. The induction follows the recursion of the function. -/
theorem skipMember_eq_skipTokens (depth : Nat) (tokens : List Token) :
    skipMember depth tokens = skipTokens memberStep depth tokens := by
  induction tokens generalizing depth with
  | nil => rfl
  | cons token rest ih =>
      obtain ⟨kind, position⟩ := token
      cases kind with
      | mark mark =>
          by_cases hDepth : depth = 0
          · cases mark <;> simp [skipMember, skipTokens, memberStep, ih, hDepth]
          · cases mark <;> simp [skipMember, skipTokens, memberStep, ih, hDepth]
      | _ => simp [skipMember, skipTokens, memberStep, ih]

/-- Passing over a group in terms of its steps. The induction follows the recursion of the function. -/
theorem skipGroup_eq_skipTokens (opening closing : Mark) (depth : Nat) (tokens : List Token) :
    skipGroup opening closing depth tokens = skipTokens (groupStep opening closing) depth tokens := by
  induction tokens generalizing depth with
  | nil => rfl
  | cons token rest ih =>
      rw [skipGroup, skipTokens, groupStep]
      by_cases hOpening : token.kind = .mark opening
      · simp [hOpening, ih]
      · by_cases hClosing : token.kind = .mark closing
        · have hDistinct : closing ≠ opening := by
            rintro rfl
            exact hOpening hClosing
          by_cases hDepth : depth ≤ 1 <;> simp [hClosing, hDistinct, hDepth, ih]
        · simp [hOpening, hClosing, ih]

/-- Passing over type arguments in terms of their steps. The induction follows the recursion of the function. -/
theorem skipArguments_eq_skipTokens (depth : Nat) (tokens : List Token) :
    skipArguments depth tokens = skipTokens argumentStep depth tokens := by
  induction tokens generalizing depth with
  | nil => rfl
  | cons token rest ih =>
      obtain ⟨kind, position⟩ := token
      cases kind with
      | mark mark =>
          by_cases hDepth : depth ≤ 1
          · cases mark <;> simp [skipArguments, skipTokens, argumentStep, ih, hDepth]
          · cases mark <;> simp [skipArguments, skipTokens, argumentStep, ih, hDepth]
      | _ => simp [skipArguments, skipTokens, argumentStep, ih]

/-- Passing over separators in terms of their steps, in which the depth plays no part. -/
theorem skipSeparators_eq_skipTokens (tokens : List Token) :
    skipSeparators tokens = skipTokens separatorStep 0 tokens := by
  induction tokens with
  | nil => rfl
  | cons token rest ih =>
      obtain ⟨kind, position⟩ := token
      cases kind with
      | mark mark => cases mark <;> simp [skipSeparators, skipTokens, separatorStep, ih]
      | _ => simp [skipSeparators, skipTokens, separatorStep]

/-- A function type starts where an arrow stands behind the group in parentheses. -/
theorem startsFunction_eq_true_iff (depth : Nat) (tokens : List Token) :
    startsFunction depth tokens = true ↔
      (skipGroup .openParen .closeParen depth tokens).head?.map Token.kind = some (.mark .arrow) := by
  induction tokens generalizing depth with
  | nil => simp [startsFunction, skipGroup]
  | cons token rest ih =>
      by_cases hOpening : token.kind = .mark .openParen
      · simp [startsFunction.eq_def depth (token :: rest), skipGroup, hOpening, ih]
      · by_cases hClosing : token.kind = .mark .closeParen
        · by_cases hDepth : depth ≤ 1
          · cases rest <;> simp [startsFunction.eq_def depth (token :: _), skipGroup, hClosing, hDepth]
          · simp [startsFunction.eq_def depth (token :: rest), skipGroup, hClosing, hDepth, ih]
        · rw [startsFunction.eq_def]
          dsimp only
          split
          · exact absurd ‹_› hOpening
          · exact absurd ‹_› hClosing
          · simp [skipGroup, hOpening, hClosing, ih]

end Grammar

def TokenKind.opens? : TokenKind → Option Mark
  | .mark .openBrace => some .closeBrace
  | .mark .openBracket => some .closeBracket
  | .mark .openParen => some .closeParen
  | .mark .less => some .greater
  | _ => none

def TokenKind.closes? : TokenKind → Option Mark
  | .mark .closeBrace => some .closeBrace
  | .mark .closeBracket => some .closeBracket
  | .mark .closeParen => some .closeParen
  | .mark .greater => some .greater
  | _ => none

/-- The brackets that are open after a token, innermost first and each as the mark that closes it. Only the
innermost one can be closed. -/
def openAfter (awaited : List Mark) (kind : TokenKind) : Option (List Mark) :=
  match kind.opens? with
  | some closing => some (closing :: awaited)
  | none =>
      match kind.closes? with
      | none => some awaited
      | some closing => if awaited.head? = some closing then some awaited.tail else none

/-- The brackets that are open are closed by the tokens, and all others in them match. -/
def closesAll (awaited : List Mark) : List TokenKind → Bool
  | [] => awaited.isEmpty
  | kind :: rest =>
      match openAfter awaited kind with
      | some awaited => closesAll awaited rest
      | none => false

def wellNested (kinds : List TokenKind) : Bool :=
  closesAll [] kinds

/-- The tokens that stand outside all brackets which the given marks close. -/
def exposed (shields awaited : List Mark) : List TokenKind → List TokenKind
  | [] => []
  | kind :: rest =>
      (if awaited.any (· ∈ shields) then [] else [kind]) ++
        exposed shields ((openAfter awaited kind).getD []) rest

/-- The steps count the brackets which the given marks close, from a depth on. At that depth itself only the
tokens that are allowed are passed over, above it all of them. -/
structure CountsBrackets (step : Nat → TokenKind → SkipStep) (shields : List Mark) (base : Nat)
    (allowed : TokenKind → Prop) : Prop where
  other : ∀ depth kind, kind.opens? = none → kind.closes? = none → base < depth ∨ depth = base ∧ allowed kind →
    step depth kind = .onward depth
  opening : ∀ depth kind closing, kind.opens? = some closing → base < depth ∨ depth = base ∧ allowed kind →
    step depth kind = .onward (if closing ∈ shields then depth + 1 else depth)
  closing : ∀ depth kind closing, kind.closes? = some closing → closing ∈ shields → base ≤ depth →
    step (depth + 1) kind = .onward depth
  ignored : ∀ depth kind closing, kind.closes? = some closing → closing ∉ shields →
    base < depth ∨ depth = base ∧ allowed kind → step depth kind = .onward depth

section Nesting

variable {step : Nat → TokenKind → SkipStep} {shields awaited further : List Mark} {base : Nat}
  {allowed : TokenKind → Prop} {kind : TokenKind} {tokens : List Token}

/-- The depth counts the brackets that are open. -/
theorem CountsBrackets.step_eq_onward (hCounts : CountsBrackets step shields base allowed)
    (hNext : openAfter awaited kind = some further)
    (hPassed : base < base + awaited.countP (· ∈ shields) ∨
      base + awaited.countP (· ∈ shields) = base ∧ allowed kind) :
    step (base + awaited.countP (· ∈ shields)) kind = .onward (base + further.countP (· ∈ shields)) := by
  unfold openAfter at hNext
  cases hOpens : kind.opens? with
  | some closing =>
      obtain rfl : closing :: awaited = further := by simpa [hOpens] using hNext
      rw [hCounts.opening _ kind closing hOpens hPassed]
      by_cases hShield : closing ∈ shields
      · simp [hShield, Nat.add_assoc]
      · simp [hShield]
  | none =>
      cases hCloses : kind.closes? with
      | none =>
          obtain rfl : awaited = further := by simpa [hOpens, hCloses] using hNext
          exact hCounts.other _ kind hOpens hCloses hPassed
      | some closing =>
          obtain ⟨hHead, rfl⟩ : awaited.head? = some closing ∧ awaited.tail = further := by
            simpa [hOpens, hCloses] using hNext
          obtain ⟨tail, rfl⟩ := List.head?_eq_some_iff.mp hHead
          by_cases hShield : closing ∈ shields
          · simpa [hShield, Nat.add_assoc] using
              hCounts.closing (base + tail.countP (· ∈ shields)) kind closing hCloses hShield (Nat.le_add_right _ _)
          · simpa [hShield] using hCounts.ignored _ kind closing hCloses hShield hPassed

/-- Tokens that close all open brackets are passed over, and the depth is then as if no bracket were open. The
induction is on the tokens, and the depth counts the open brackets all the way. -/
theorem skipTokens_of_closesAll (hCounts : CountsBrackets step shields base allowed)
    (hCloses : closesAll awaited (tokens.map Token.kind) = true)
    (hAllowed : ∀ kind ∈ exposed shields awaited (tokens.map Token.kind), allowed kind) (rest : List Token) :
    skipTokens step (base + awaited.countP (· ∈ shields)) (tokens ++ rest) = skipTokens step base rest := by
  induction tokens generalizing awaited with
  | nil =>
      have hNone : awaited = [] := by simpa [closesAll] using hCloses
      simp [hNone]
  | cons token tokens ih =>
      -- A token that no counted bracket hides is among the allowed ones.
      have hPassed : base < base + awaited.countP (· ∈ shields) ∨
          base + awaited.countP (· ∈ shields) = base ∧ allowed token.kind := by
        by_cases hHidden : awaited.any (· ∈ shields) = true
        · left
          have hPositive : 0 < awaited.countP (· ∈ shields) := by
            rw [List.countP_pos_iff]
            simpa using hHidden
          omega
        · right
          refine ⟨?_, hAllowed token.kind (by simp [exposed, hHidden])⟩
          simpa [List.countP_eq_zero] using hHidden
      rw [List.map_cons, closesAll] at hCloses
      rw [List.map_cons, exposed] at hAllowed
      cases hNext : openAfter awaited token.kind with
      | none => simp [hNext] at hCloses
      | some further =>
          rw [hNext] at hCloses hAllowed
          have hStep := hCounts.step_eq_onward hNext hPassed
          rw [List.cons_append, skipTokens_onward hStep]
          exact ih hCloses fun kind hMem => hAllowed kind (List.mem_append_right _ hMem)

/-- A piece in which brackets match is passed over without a change of the depth. -/
theorem skipTokens_of_wellNested (hCounts : CountsBrackets step shields base allowed)
    (hNested : wellNested (tokens.map Token.kind) = true)
    (hAllowed : ∀ kind ∈ exposed shields [] (tokens.map Token.kind), allowed kind) (rest : List Token) :
    skipTokens step base (tokens ++ rest) = skipTokens step base rest :=
  skipTokens_of_closesAll hCounts hNested hAllowed rest

/-- Brackets that are open further out do not matter to a token that closes an inner one. -/
theorem openAfter_append (hNext : openAfter awaited kind = some further) (outer : List Mark) :
    openAfter (awaited ++ outer) kind = some (further ++ outer) := by
  unfold openAfter at hNext ⊢
  cases hOpens : kind.opens? with
  | some closing =>
      obtain rfl : closing :: awaited = further := by simpa [hOpens] using hNext
      rfl
  | none =>
      cases hCloses : kind.closes? with
      | none =>
          obtain rfl : awaited = further := by simpa [hOpens, hCloses] using hNext
          rfl
      | some closing =>
          obtain ⟨hHead, rfl⟩ : awaited.head? = some closing ∧ awaited.tail = further := by
            simpa [hOpens, hCloses] using hNext
          obtain ⟨others, rfl⟩ := List.head?_eq_some_iff.mp hHead
          simp

/-- Tokens that close all brackets in them leave those open that were open before. -/
theorem closesAll_append {first : List TokenKind} (hCloses : closesAll awaited first = true) (outer : List Mark)
    (second : List TokenKind) : closesAll (awaited ++ outer) (first ++ second) = closesAll outer second := by
  induction first generalizing awaited with
  | nil =>
      obtain rfl : awaited = [] := by simpa [closesAll] using hCloses
      rfl
  | cons kind first ih =>
      rw [closesAll] at hCloses
      cases hNext : openAfter awaited kind with
      | none => simp [hNext] at hCloses
      | some further =>
          rw [hNext] at hCloses
          rw [List.cons_append, closesAll, openAfter_append hNext]
          exact ih hCloses

/-- Tokens whose brackets match may stand one behind the other. -/
theorem wellNested_append {first second : List TokenKind} (hFirst : wellNested first = true)
    (hSecond : wellNested second = true) : wellNested (first ++ second) = true :=
  (closesAll_append hFirst [] second).trans hSecond

theorem wellNested_cons (hOpens : kind.opens? = none) (hCloses : kind.closes? = none) {kinds : List TokenKind}
    (hNested : wellNested kinds = true) : wellNested (kind :: kinds) = true := by
  rw [wellNested, closesAll, openAfter, hOpens, hCloses]
  exact hNested

theorem wellNested_group {opening closing : Mark} (hPair : TokenKind.opens? (.mark opening) = some closing)
    {inner : List TokenKind} (hNested : wellNested inner = true) :
    wellNested (.mark opening :: (inner ++ [.mark closing])) = true := by
  rw [wellNested, closesAll, openAfter, hPair]
  refine (closesAll_append hNested [closing] [.mark closing]).trans ?_
  cases opening <;> cases hPair <;> rfl

end Nesting

namespace Grammar

theorem closes?_of_opens? {opening closing : Mark} (hPair : TokenKind.opens? (.mark opening) = some closing) :
    TokenKind.closes? (.mark closing) = some closing := by
  cases opening <;> cases hPair <;> rfl

/-- Passing over a group counts the brackets of that group, once one of them is open. -/
theorem countsBrackets_groupStep {opening closing : Mark} (hPair : TokenKind.opens? (.mark opening) = some closing)
    (depth : Nat) : CountsBrackets (groupStep opening closing) [closing] (depth + 1) fun _ => True := by
  constructor
  case other =>
    intro depth kind hOpens hCloses _
    have hOpening : kind ≠ .mark opening := by
      rintro rfl
      simp [hOpens] at hPair
    have hClosing : kind ≠ .mark closing := by
      rintro rfl
      simp [closes?_of_opens? hPair] at hCloses
    simp [groupStep, hOpening, hClosing]
  case opening =>
    intro depth kind other hOpens _
    unfold TokenKind.opens? at hOpens
    cases opening <;> cases hPair <;> split at hOpens <;> cases hOpens <;> rfl
  case closing =>
    intro deeper kind other hCloses hShield hDeep
    have hNot : ¬ deeper + 1 ≤ 1 := by omega
    obtain rfl := List.mem_singleton.mp hShield
    unfold TokenKind.closes? at hCloses
    cases opening <;> cases hPair <;> split at hCloses <;> cases hCloses <;> simp [groupStep, hNot]
  case ignored =>
    intro depth kind other hCloses hShield _
    unfold TokenKind.closes? at hCloses
    cases opening <;> cases hPair <;> split at hCloses <;> cases hCloses <;> simp_all [groupStep]

/-- Passing over a member counts three kinds of brackets and stops only outside all of them. -/
theorem countsBrackets_memberStep :
    CountsBrackets memberStep [.closeBrace, .closeBracket, .closeParen] 0
      fun kind => kind ∉ [TokenKind.mark .semicolon, .mark .comma] := by
  constructor
  case other =>
    intro depth kind hOpens hCloses hPassed
    rcases kind with _ | _ | _ | _ | mark | _
    case mark => cases mark <;> simp_all [memberStep, TokenKind.opens?, TokenKind.closes?] <;> omega
    all_goals rfl
  case opening =>
    intro depth kind closing hOpens _
    unfold TokenKind.opens? at hOpens
    split at hOpens <;> cases hOpens <;> rfl
  case closing =>
    intro depth kind closing hCloses hShield _
    unfold TokenKind.closes? at hCloses
    split at hCloses <;> cases hCloses <;> simp_all [memberStep]
  case ignored =>
    intro depth kind closing hCloses hShield _
    unfold TokenKind.closes? at hCloses
    split at hCloses <;> cases hCloses <;> simp_all [memberStep]

/-- Type arguments go on at all other tokens, unless a semicolon or a closing brace stands directly in them. -/
theorem argumentStep_eq_onward {depth : Nat} {kind : TokenKind} (hAngle : kind ∉ [TokenKind.mark .less, .mark .greater])
    (hPassed : 1 < depth ∨ depth = 1 ∧ kind ∉ [TokenKind.mark .semicolon, .mark .closeBrace]) :
    argumentStep depth kind = .onward depth := by
  simp only [List.mem_cons, List.not_mem_nil, or_false, not_or] at hAngle hPassed
  unfold argumentStep
  split
  · exact absurd rfl hAngle.1
  · exact absurd rfl hAngle.2
  · exact if_neg (Nat.not_le.mpr (hPassed.resolve_right fun hEnd => hEnd.2.1 rfl))
  · exact if_neg (Nat.not_le.mpr (hPassed.resolve_right fun hEnd => hEnd.2.2 rfl))
  · rfl

/-- Passing over type arguments counts angle brackets only, from the first one on. -/
theorem countsBrackets_argumentStep :
    CountsBrackets argumentStep [.greater] 1
      fun kind => kind ∉ [TokenKind.mark .semicolon, .mark .closeBrace] := by
  constructor
  case other =>
    intro depth kind hOpens hCloses hPassed
    refine argumentStep_eq_onward ?_ hPassed
    simp only [List.mem_cons, List.not_mem_nil, or_false]
    rintro (rfl | rfl)
    · cases hOpens
    · cases hCloses
  case opening =>
    intro depth kind closing hOpens _
    unfold TokenKind.opens? at hOpens
    split at hOpens <;> cases hOpens <;> rfl
  case closing =>
    intro depth kind closing hCloses hShield hDeep
    have hNot : ¬ depth + 1 ≤ 1 := by omega
    unfold TokenKind.closes? at hCloses
    split at hCloses <;> cases hCloses <;> simp_all [argumentStep]
  case ignored =>
    intro depth kind closing hCloses hShield hPassed
    refine argumentStep_eq_onward ?_ hPassed
    simp only [List.mem_cons, List.not_mem_nil, or_false]
    rintro (rfl | rfl)
    · cases hCloses
    · cases hCloses
      exact hShield (List.mem_singleton.mpr rfl)

section Function

variable {before before' tail tail' : List Token} {awaited : List Mark}

theorem startsFunction_cons {token : Token} (hOpen : token.kind ≠ .mark .openParen)
    (hClose : token.kind ≠ .mark .closeParen) (depth : Nat) (rest : List Token) :
    startsFunction depth (token :: rest) = startsFunction depth rest := by
  rw [startsFunction.eq_def]
  dsimp only
  split
  · exact absurd ‹_› hOpen
  · exact absurd ‹_› hClose
  · rfl

theorem startsFunction_open {token : Token} (hOpen : token.kind = .mark .openParen) (depth : Nat)
    (rest : List Token) : startsFunction depth (token :: rest) = startsFunction (depth + 1) rest := by
  rw [startsFunction.eq_def]
  simp only [hOpen]

theorem startsFunction_close {token : Token} (hClose : token.kind = .mark .closeParen) (depth : Nat)
    (rest : List Token) :
    startsFunction (depth + 2) (token :: rest) = startsFunction (depth + 1) rest := by
  rw [startsFunction.eq_def]
  simp [hClose]

/-- Behind the last parenthesis the next token decides. -/
theorem startsFunction_closing {token : Token} (hClose : token.kind = .mark .closeParen) (rest : List Token) :
    startsFunction 1 (token :: rest) = decide (rest.head?.map Token.kind = some (.mark .arrow)) := by
  rw [startsFunction.eq_def]
  cases rest <;> simp [hClose]

/-- The first kinds agree if the fronts have the same kinds and the tails start alike. -/
theorem head?_kind_append (hKinds : before'.map Token.kind = before.map Token.kind)
    (hHead : tail'.head?.map Token.kind = tail.head?.map Token.kind) :
    (before' ++ tail').head?.map Token.kind = (before ++ tail).head?.map Token.kind := by
  rw [← List.head?_map, ← List.head?_map] at hHead ⊢
  rw [List.map_append, List.map_append, hKinds, List.head?_append, List.head?_append, hHead]

/-- Whether a parenthesis that is open starts a function type is the same behind tokens of the same kinds. -/
theorem startsFunction_append_congr (hKinds : before'.map Token.kind = before.map Token.kind)
    (hHead : tail'.head?.map Token.kind = tail.head?.map Token.kind)
    (hTail : ∀ depth, startsFunction (depth + 1) tail' = startsFunction (depth + 1) tail) (depth : Nat) :
    startsFunction (depth + 1) (before' ++ tail') = startsFunction (depth + 1) (before ++ tail) := by
  induction before generalizing before' depth with
  | nil =>
      rw [List.map_eq_nil_iff.mp hKinds]
      exact hTail depth
  | cons token before ih =>
      obtain ⟨token', before', rfl, hKind, hBefore⟩ := List.map_eq_cons_iff.mp hKinds
      rw [List.cons_append, List.cons_append]
      by_cases hOpen : token.kind = .mark .openParen
      · rw [startsFunction_open (hKind.trans hOpen), startsFunction_open hOpen]
        exact ih hBefore (depth + 1)
      by_cases hClose : token.kind = .mark .closeParen
      · have hClose' := hKind.trans hClose
        cases depth with
        | zero => rw [startsFunction_closing hClose', startsFunction_closing hClose, head?_kind_append hBefore hHead]
        | succ depth =>
            rw [startsFunction_close hClose', startsFunction_close hClose]
            exact ih hBefore depth
      · rw [startsFunction_cons (by rwa [hKind]) (by rwa [hKind]), startsFunction_cons hOpen hClose]
        exact ih hBefore depth

/-- A piece in which brackets match does not matter for a parenthesis that is open before it. -/
theorem startsFunction_of_wellNested (hNested : wellNested (before.map Token.kind) = true) (depth : Nat)
    (rest : List Token) : startsFunction (depth + 1) (before ++ rest) = startsFunction (depth + 1) rest := by
  have hSkip : skipGroup .openParen .closeParen (depth + 1) (before ++ rest) =
      skipGroup .openParen .closeParen (depth + 1) rest := by
    rw [skipGroup_eq_skipTokens, skipGroup_eq_skipTokens]
    exact skipTokens_of_wellNested (countsBrackets_groupStep rfl depth) hNested (fun _ _ => trivial) rest
  rw [Bool.eq_iff_iff, startsFunction_eq_true_iff, startsFunction_eq_true_iff, hSkip]

/-- Other tokens leave the number of open parentheses as it is. -/
theorem count_closeParen_openAfter {kind : TokenKind} {further : List Mark}
    (hNext : openAfter awaited kind = some further) (hOpen : kind ≠ .mark .openParen)
    (hClose : kind ≠ .mark .closeParen) : further.count .closeParen = awaited.count .closeParen := by
  unfold openAfter at hNext
  cases hOpens : kind.opens? with
  | some closing =>
      obtain rfl : closing :: awaited = further := by simpa [hOpens] using hNext
      have hOther : closing ≠ .closeParen := by
        rintro rfl
        unfold TokenKind.opens? at hOpens
        split at hOpens <;> cases hOpens
        exact hOpen rfl
      rw [List.count_cons_of_ne hOther]
  | none =>
      cases hCloses : kind.closes? with
      | none =>
          obtain rfl : awaited = further := by simpa [hOpens, hCloses] using hNext
          rfl
      | some closing =>
          obtain ⟨hHead, rfl⟩ : awaited.head? = some closing ∧ awaited.tail = further := by
            simpa [hOpens, hCloses] using hNext
          obtain ⟨others, rfl⟩ := List.head?_eq_some_iff.mp hHead
          have hOther : closing ≠ .closeParen := by
            rintro rfl
            unfold TokenKind.closes? at hCloses
            split at hCloses <;> cases hCloses
            exact hClose rfl
          rw [List.tail_cons, List.count_cons_of_ne hOther]

/-- Where the open parentheses are closed by the tokens, what stands behind these does not matter except for its
first token. The induction is on the tokens; the depth never exceeds the number of parentheses that are awaited. -/
theorem startsFunction_of_closesAll (hKinds : before'.map Token.kind = before.map Token.kind)
    (hHead : tail'.head?.map Token.kind = tail.head?.map Token.kind)
    (hCloses : closesAll awaited (before.map Token.kind) = true) {depth : Nat}
    (hDepth : depth + 1 ≤ awaited.count .closeParen) :
    startsFunction (depth + 1) (before' ++ tail') = startsFunction (depth + 1) (before ++ tail) := by
  induction before generalizing before' depth awaited with
  | nil =>
      obtain rfl : awaited = [] := by simpa [closesAll] using hCloses
      simp at hDepth
  | cons token before ih =>
      obtain ⟨token', before', rfl, hKind, hBefore⟩ := List.map_eq_cons_iff.mp hKinds
      rw [List.map_cons, closesAll] at hCloses
      cases hNext : openAfter awaited token.kind with
      | none => simp [hNext] at hCloses
      | some further =>
          rw [hNext] at hCloses
          rw [List.cons_append, List.cons_append]
          by_cases hOpen : token.kind = .mark .openParen
          · obtain rfl : Mark.closeParen :: awaited = further := by
              simpa [hOpen, openAfter, TokenKind.opens?] using hNext
            rw [startsFunction_open (hKind.trans hOpen), startsFunction_open hOpen]
            exact ih hBefore hCloses (by rw [List.count_cons_self]; omega)
          by_cases hClose : token.kind = .mark .closeParen
          · have hClose' := hKind.trans hClose
            obtain ⟨hFirst, rfl⟩ : awaited.head? = some .closeParen ∧ awaited.tail = further := by
              simpa [hClose, openAfter, TokenKind.opens?, TokenKind.closes?] using hNext
            obtain ⟨others, rfl⟩ := List.head?_eq_some_iff.mp hFirst
            rw [List.count_cons_self] at hDepth
            cases depth with
            | zero => rw [startsFunction_closing hClose', startsFunction_closing hClose, head?_kind_append hBefore hHead]
            | succ depth =>
                rw [startsFunction_close hClose', startsFunction_close hClose]
                exact ih hBefore hCloses (by rw [List.tail_cons]; omega)
          · rw [startsFunction_cons (by rwa [hKind]) (by rwa [hKind]), startsFunction_cons hOpen hClose]
            refine ih hBefore hCloses ?_
            rwa [count_closeParen_openAfter hNext hOpen hClose]

end Function

end Grammar

end SchemaForge
