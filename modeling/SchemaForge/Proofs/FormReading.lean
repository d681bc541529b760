import SchemaForge.Proofs.GrammarForms

/-! Readers follow the forms of the grammar. Whatever a reader takes fits its form, with one rule for each way to build
a reader, and every part that it passes over unread is reported by a warning of its own. -/
namespace SchemaForge

namespace Grammar

theorem passedBy_append (routine : Routine) (first second : List Piece) :
    passedBy routine (first ++ second) = passedBy routine first ++ passedBy routine second :=
  List.filterMap_append

/-- Nothing is passed over where all tokens are read. -/
theorem passedBy_map_read (routine : Routine) (tokens : List Token) :
    passedBy routine (tokens.map Piece.read) = [] := by
  rw [passedBy, List.filterMap_map, List.filterMap_eq_nil_iff]
  exact fun _ _ => rfl

/-- A single part counts for its own routine only. -/
theorem length_passedBy_singleton (routine used : Routine) (part : List Token) :
    (passedBy routine [.passed used part]).length = [used].count routine := by
  by_cases hSame : used = routine
  · simp [passedBy, Piece.passedBy?, hSame]
  · simp [passedBy, Piece.passedBy?, hSame]

end Grammar

open Grammar

/-- If the reading is done, the tokens that it took fit the form, and for each routine there is a warning of its own for
every part that was passed over. The routines that are given have one more each. -/
def Reading.Matches {α : Type} (form : Form) (owed : List Routine) (tokens : List Token) : Reading α → Prop
  | .done _ rest warnings => ∃ pieces, Derives form tokens pieces rest ∧
      ∀ routine, (passedBy routine pieces).length + owed.count routine ≤ warnings.countP routine.reports
  | .refused _ _ => True

namespace Reading.Matches

variable {α : Type} {reading : Reading α} {form first second : Form} {owed more : List Routine}
  {tokens rest : List Token} {pieces : List Piece}

/-- Reading on behind tokens that fit a form of their own. -/
theorem after (hReading : reading.Matches second owed rest) (hFirst : Derives first tokens pieces rest)
    {earlier : List Warning} (hCount : ∀ routine, (passedBy routine pieces).length + more.count routine ≤
      earlier.countP routine.reports + owed.count routine) :
    (reading.after earlier).Matches (.seq first second) more tokens := by
  cases reading with
  | refused error warnings => trivial
  | done value left warnings =>
      obtain ⟨further, hSecond, hFurther⟩ := hReading
      refine ⟨pieces ++ further, .seq hFirst hSecond, fun routine => ?_⟩
      have hEarlier := hCount routine
      have hLater := hFurther routine
      rw [passedBy_append, List.length_append, List.countP_append]
      omega

/-- Reading on behind tokens that were read one by one. -/
theorem behind (hReading : reading.Matches second owed rest) (hFirst : Derives first tokens pieces rest)
    (hRead : ∀ routine, passedBy routine pieces = []) : reading.Matches (.seq first second) owed tokens := by
  rw [← Reading.after_nil reading]
  apply hReading.after hFirst
  intro routine
  rw [hRead]
  exact Nat.le_refl _

/-- What fits one form fits the other. -/
theorem mono {form' : Form} (hReading : reading.Matches form owed tokens)
    (hForm : ∀ pieces rest, Derives form tokens pieces rest → Derives form' tokens pieces rest) :
    reading.Matches form' owed tokens := by
  cases reading with
  | refused error warnings => trivial
  | done value rest warnings =>
      obtain ⟨pieces, hDerives, hCount⟩ := hReading
      exact ⟨pieces, hForm pieces rest hDerives, hCount⟩

/-- What fits the form that is chosen on the tokens fits the choice. -/
theorem look {choose : List Token → Form} (hReading : reading.Matches (choose tokens) owed tokens) :
    reading.Matches (.look choose) owed tokens :=
  hReading.mono fun _ _ => .look

theorem rule {symbol : Symbol} (hReading : reading.Matches symbol.form owed tokens) :
    reading.Matches (.rule symbol) owed tokens :=
  hReading.mono fun _ _ => .rule

theorem ifNext_mark {mark : Mark} (hReading : reading.Matches first owed rest) (place : Position) :
    reading.Matches (.ifNext mark first second) owed (⟨.mark mark, place⟩ :: rest) := by
  have hMark : (⟨.mark mark, place⟩ :: rest).head?.map Token.kind = some (.mark mark) := rfl
  apply look
  rw [if_pos hMark]
  exact hReading.behind (.token (.mark mark) place rest) fun _ => rfl

/-- Where the mark is not next, nothing is read of it. -/
theorem ifNext_other {mark : Mark} (hReading : reading.Matches second owed tokens)
    (hOther : tokens.head?.map Token.kind ≠ some (.mark mark)) :
    reading.Matches (.ifNext mark first second) owed tokens := by
  apply look
  rwa [if_neg hOther]

/-- Further warnings do no harm. -/
theorem after_warning (hReading : reading.Matches form owed tokens) (warning : Warning) :
    (reading.after [warning]).Matches form owed tokens := by
  cases reading with
  | refused error warnings => trivial
  | done value rest warnings =>
      obtain ⟨pieces, hDerives, hCount⟩ := hReading
      refine ⟨pieces, hDerives, fun routine => ?_⟩
      rw [List.countP_append]
      exact Nat.le_add_left_of_le (hCount routine)

/-- A warning about a part that was passed over before. -/
theorem after_report (hReading : reading.Matches form owed tokens) {routine : Routine} {warning : Warning}
    (hReports : routine.reports warning = true) :
    (reading.after [warning]).Matches form (routine :: owed) tokens := by
  cases reading with
  | refused error warnings => trivial
  | done value rest warnings =>
      obtain ⟨pieces, hDerives, hCount⟩ := hReading
      refine ⟨pieces, hDerives, fun other => ?_⟩
      have hOwed := hCount other
      rw [List.countP_append, List.countP_singleton, List.count_cons]
      by_cases hSame : routine = other
      · subst hSame
        simp only [hReports, beq_self_eq_true, if_true]
        omega
      · rw [if_neg (by simpa using hSame)]
        omega

end Reading.Matches

namespace Reader

variable {α β : Type} {form : Form} {owed : List Routine}

/-- Whatever the reader reads fits the form. -/
def Matches (form : Form) (owed : List Routine) (reader : Reader α) : Prop :=
  ∀ final tokens, (reader final tokens).Matches form owed tokens

/-- What is read by two readers in a row fits their forms in a row. The second one only needs to do its part on as many
tokens as the first one left. -/
theorem matches_bind {firstForm : Form} {first : Reader α} {next : α → Reader β} {final : Position}
    {tokens : List Token} (hFirst : (first final tokens).Matches firstForm [] tokens)
    (hNext : ∀ value rest, rest.length ≤ tokens.length → (next value final rest).Matches form owed rest) :
    ((first >>= next) final tokens).Matches (.seq firstForm form) owed tokens := by
  change (andThen first next final tokens).Matches _ owed tokens
  unfold andThen
  cases hReading : first final tokens with
  | refused error warnings => trivial
  | done value rest warnings =>
      rw [hReading] at hFirst
      obtain ⟨pieces, hDerives, hCount⟩ := hFirst
      apply (hNext value rest hDerives.length_le).after hDerives
      intro routine
      exact Nat.add_le_add_right (hCount routine) _

/-- Readers one after the other fit forms one after the other. What is owed is reported by the second. -/
theorem Matches.bind {firstForm : Form} {first : Reader α} {next : α → Reader β} (hFirst : Matches firstForm [] first)
    (hNext : ∀ value, Matches form owed (next value)) : Matches (.seq firstForm form) owed (first >>= next) :=
  fun final tokens => matches_bind (hFirst final tokens) fun value rest _ => hNext value final rest

/-- What is done at the end without reading on adds nothing to the form. -/
theorem matches_end_bind {first : Reader α} {next : α → Reader β} {final : Position} {tokens : List Token}
    (hFirst : (first final tokens).Matches form [] tokens) (hNext : ∀ value, Matches .nothing owed (next value)) :
    ((first >>= next) final tokens).Matches form owed tokens := by
  apply (matches_bind hFirst fun value rest _ => hNext value final rest).mono
  intro pieces rest hDerives
  cases hDerives with
  | seq hForm hNothing =>
      cases hNothing
      rwa [List.append_nil]

/-- A reader may be followed by one that takes nothing, such as a warning. -/
theorem Matches.end_bind {first : Reader α} {next : α → Reader β} (hFirst : Matches form [] first)
    (hNext : ∀ value, Matches .nothing owed (next value)) : Matches form owed (first >>= next) :=
  fun final tokens => matches_end_bind (hFirst final tokens) hNext

/-- What is done first without reading adds nothing either. -/
theorem Matches.nothing_bind {first : Reader α} {next : α → Reader β} (hFirst : Matches .nothing [] first)
    (hNext : ∀ value, Matches form owed (next value)) : Matches form owed (first >>= next) := by
  intro final tokens
  apply (hFirst.bind hNext final tokens).mono
  intro pieces rest hDerives
  cases hDerives with
  | seq hNothing hForm =>
      cases hNothing
      exact hForm

theorem Matches.pure (value : α) : Matches .nothing [] (pure value) :=
  fun _ tokens => ⟨[], .nothing tokens, fun _ => Nat.zero_le _⟩

/-- A warning about something else takes no token and pays for nothing. -/
theorem Matches.warn_bind {next : Unit → Reader β} (hNext : Matches form owed (next ())) (warning : Warning) :
    Matches form owed (warn warning >>= next) :=
  fun final tokens => (hNext final tokens).after_warning warning

/-- A warning of the kind meant for a routine pays for a part that this routine passed over. -/
theorem Matches.report_bind {next : Unit → Reader β} (hNext : Matches form owed (next ())) {routine : Routine}
    {warning : Warning} (hReports : routine.reports warning = true) :
    Matches form (routine :: owed) (warn warning >>= next) :=
  fun final tokens => (hNext final tokens).after_report hReports

theorem Matches.place_bind {next : Position → Reader α} (hNext : ∀ position, Matches form owed (next position)) :
    Matches form owed (place >>= next) := by
  intro final tokens
  obtain ⟨position, hPlace⟩ : ∃ position, (place >>= next) final tokens = next position final tokens := by
    cases tokens with
    | nil => exact ⟨final, Reading.after_nil _⟩
    | cons token rest => exact ⟨token.position, Reading.after_nil _⟩
  rw [hPlace]
  exact hNext position final tokens

/-- A refusal fits every form, as it leaves nothing to compare. -/
theorem Matches.refuse (problem : SyntaxProblem) : Matches form owed (refuse problem : Reader α) := by
  intro final tokens
  cases tokens <;> trivial

theorem Matches.refuseNext (expected : Expectation) : Matches form owed (refuseNext expected : Reader α) :=
  fun final tokens => Matches.refuse _ final tokens

theorem Matches.rule {symbol : Symbol} {reader : Reader α} (hReader : Matches symbol.form owed reader) :
    Matches (.rule symbol) owed reader :=
  fun final tokens => (hReader final tokens).rule

/-- A choice that depends on whether the mark is next. -/
theorem Matches.if_accepted {mark : Mark} {yes no : Reader α} {yesForm noForm : Form} (hYes : Matches yesForm owed yes)
    (hNo : Matches noForm owed no) :
    Matches (.ifNext mark yesForm noForm) owed (accept mark >>= fun accepted => if accepted then yes else no) := by
  intro final tokens
  rcases accept_bind_cases mark (fun accepted => if accepted then yes else no) final tokens with
    ⟨place, rest, rfl, hTaken⟩ | ⟨hMark, hOther⟩
  · rw [hTaken]
    exact (hYes final rest).ifNext_mark place
  · rw [hOther]
    exact (hNo final tokens).ifNext_other hMark

theorem Matches.accept (mark : Mark) : Matches (.optional mark) [] (accept mark) := by
  intro final tokens
  rw [← bind_pure (Reader.accept mark)]
  rcases accept_bind_cases mark Pure.pure final tokens with ⟨place, rest, rfl, hTaken⟩ | ⟨hMark, hOther⟩
  · rw [hTaken]
    exact (Matches.pure true final rest).ifNext_mark place
  · rw [hOther]
    exact (Matches.pure false final tokens).ifNext_other hMark

/-- A mark that is demanded is read, or the reading is refused. -/
theorem Matches.expectAs (mark : Mark) (expected : Expectation) : Matches (.mark mark) [] (expectAs mark expected) := by
  intro final tokens
  rcases accept_bind_cases mark (fun accepted => if accepted then Pure.pure () else Reader.refuseNext expected) final
    tokens with ⟨place, rest, rfl, hTaken⟩ | ⟨-, hOther⟩
  · rw [Reader.expectAs, hTaken]
    exact ⟨_, .token (.mark mark) place rest, fun _ => Nat.le_refl 0⟩
  · rw [Reader.expectAs, hOther]
    exact Matches.refuseNext expected final tokens

theorem Matches.expect (mark : Mark) : Matches (.mark mark) [] (expect mark) :=
  Matches.expectAs mark _

theorem Matches.remaining_bind {next : List Token → Reader α}
    (hNext : ∀ final tokens, (next tokens final tokens).Matches form owed tokens) :
    Matches form owed (remaining >>= next) := by
  intro final tokens
  rw [Reader.remaining_bind]
  exact hNext final tokens

/-- A reader that looks ahead fits the choice made on the same tokens. -/
theorem Matches.look {choose : List Token → Form} {next : List Token → Reader α}
    (hNext : ∀ final tokens, (next tokens final tokens).Matches (choose tokens) owed tokens) :
    Matches (.look choose) owed (remaining >>= next) :=
  Matches.remaining_bind fun final tokens => (hNext final tokens).look

/-- A choice by a look at the tokens that are left. -/
theorem Matches.if_remaining {look : List Token → Bool} {yes no : Reader α} {yesForm noForm : Form}
    (hYes : Matches yesForm owed yes) (hNo : Matches noForm owed no) :
    Matches (.look fun tokens => if look tokens then yesForm else noForm) owed
      (remaining >>= fun tokens => if look tokens then yes else no) := by
  apply Matches.look
  intro final tokens
  split
  · exact hYes final tokens
  · exact hNo final tokens

/-- Going on behind tokens that were looked at. -/
theorem matches_stretch_bind {skip : List Token → List Token} {next : Unit → Reader α} {final : Position}
    {tokens : List Token} (hSkip : skip tokens <:+ tokens)
    (hNext : (next () final (skip tokens)).Matches form owed (skip tokens)) :
    ((continueAt (skip tokens) >>= next) final tokens).Matches (.seq (.stretch skip) form) owed tokens := by
  obtain ⟨read, hRead⟩ := hSkip
  rw [continueAt_bind]
  exact hNext.behind (.stretch hRead) fun routine => passedBy_map_read routine read

/-- Tokens that are passed over by a rule of the grammar, and belong to it, are read. -/
theorem Matches.stretch_bind {skip : List Token → List Token} (hSkip : ∀ tokens, skip tokens <:+ tokens)
    {next : List Token → Unit → Reader α} (hNext : ∀ tokens, Matches form owed (next tokens ())) :
    Matches (.seq (.stretch skip) form) owed (remaining >>= fun tokens => continueAt (skip tokens) >>= next tokens) :=
  Matches.remaining_bind fun final tokens =>
    matches_stretch_bind (hSkip tokens) (hNext tokens final (skip tokens))

/-- Going on behind the first token. -/
theorem matches_token_bind {kind : TokenKind} {next : Unit → Reader α} (hNext : Matches form owed (next ()))
    (final place : Position) (rest : List Token) :
    ((continueAt rest >>= next) final (⟨kind, place⟩ :: rest)).Matches (.seq (.token kind) form) owed
      (⟨kind, place⟩ :: rest) := by
  rw [continueAt_bind]
  exact (hNext final rest).behind (.token kind place rest) fun _ => rfl

/-- Going on behind the first token to the end. -/
theorem matches_token_end {kind : TokenKind} {next : Unit → Reader α} (hNext : Matches .nothing [] (next ()))
    (final place : Position) (rest : List Token) :
    ((continueAt rest >>= next) final (⟨kind, place⟩ :: rest)).Matches (.token kind) [] (⟨kind, place⟩ :: rest) :=
  matches_end_bind ⟨_, .token kind place rest, fun _ => Nat.le_refl 0⟩ fun _ => hNext

/-- Going on behind a part that is passed over. It is reported later. -/
theorem matches_pass_bind {routine : Routine} {next : Unit → Reader α}
    (hNext : Matches form (routine :: owed) (next ())) (final : Position) (tokens : List Token) :
    ((continueAt (routine.skip tokens) >>= next) final tokens).Matches (.seq (.pass routine) form) owed tokens := by
  obtain ⟨part, hPart⟩ := routine.skip_suffix tokens
  rw [continueAt_bind, ← Reading.after_nil (next () final (routine.skip tokens))]
  apply (hNext final _).after (.pass hPart)
  intro other
  rw [length_passedBy_singleton, ← List.count_append, List.singleton_append]
  exact Nat.le_add_left _ _

/-- A part is reported and then passed over. -/
theorem matches_warn_pass {routine : Routine} {warning : Warning} (hReports : routine.reports warning = true)
    (value : α) (final : Position) (tokens : List Token) :
    ((do warn warning; continueAt (routine.skip tokens); return value : Reader α) final tokens).Matches
      (.pass routine) [] tokens := by
  obtain ⟨part, hPart⟩ := routine.skip_suffix tokens
  refine ⟨[.passed routine part], .pass hPart, fun other => ?_⟩
  have hWarned : ([warning] ++ ([] ++ [])).countP other.reports = [warning].countP other.reports := rfl
  rw [length_passedBy_singleton, List.count_nil, Nat.add_zero, hWarned, List.count_singleton, List.countP_singleton]
  by_cases hSame : routine = other
  · subst hSame
    simp [hReports]
  · simp [hSame]

/-- A part is passed over and then reported. -/
theorem matches_pass_warn {routine : Routine} {warning : Warning} (hReports : routine.reports warning = true)
    (value : α) (final : Position) (tokens : List Token) :
    ((do continueAt (routine.skip tokens); warn warning; return value : Reader α) final tokens).Matches
      (.pass routine) [] tokens :=
  matches_warn_pass hReports value final tokens

/-- Items behind marks follow the form that tells them one after the other. The tokens that are left bound their number,
since each of them stands behind a mark. -/
theorem matches_eachAfter {mark : Mark} {symbol : Symbol} {itemForm : Form}
    (hForm : symbol.form = .ifNext mark (.seq itemForm (.rule symbol)) .nothing) {item : Reader α}
    (hItem : Matches itemForm [] item) {bound : Nat} (final : Position) {tokens : List Token}
    (hBound : tokens.length ≤ bound) : (eachAfter mark item bound final tokens).Matches (.rule symbol) [] tokens := by
  induction bound generalizing tokens with
  | zero =>
      obtain rfl := List.length_eq_zero_iff.mp (Nat.le_zero.mp hBound)
      have hNone : Derives (.rule symbol) [] [] [] := .rule (hForm ▸ .look (.nothing []))
      exact ⟨[], hNone, fun _ => Nat.zero_le _⟩
  | succ bound ih =>
      apply Reading.Matches.rule
      rw [hForm, eachAfter]
      rcases accept_bind_cases mark _ final tokens with ⟨place, rest, rfl, hTaken⟩ | ⟨hMark, hOther⟩
      · rw [hTaken]
        apply Reading.Matches.ifNext_mark
        apply matches_bind (hItem final rest)
        intro value left hLeft
        have hFurther := ih (Nat.le_trans hLeft (Nat.le_of_succ_le_succ hBound))
        exact matches_end_bind hFurther fun values => Matches.pure (value :: values)
      · rw [hOther]
        exact (Matches.pure [] final tokens).ifNext_other hMark

end Reader

namespace Grammar

open Reader

/-- How many array suffixes there are does not depend on the type they are put behind. -/
theorem arraySuffixes_rest (term term' : TypeTerm) (tokens : List Token) :
    (arraySuffixes term tokens).2 = (arraySuffixes term' tokens).2 := by
  fun_induction arraySuffixes term tokens generalizing term' with
  | case1 term opening closing rest ih =>
      rw [arraySuffixes]
      exact ih (.array term')
  | case2 term rest hOther => rw [arraySuffixes.eq_2 term' rest hOther]

/-- The form and the reader count the same pairs of brackets. -/
theorem matches_suffixed (term : TypeTerm) : Matches .suffixes [] (suffixed term) := by
  apply Matches.remaining_bind
  intro final tokens
  dsimp only
  rw [arraySuffixes_rest term .unknown]
  obtain ⟨read, hRead⟩ := arraySuffixes_suffix .unknown tokens
  exact matches_end_bind ⟨_, .stretch hRead, fun routine => by rw [passedBy_map_read]; exact Nat.le_refl 0⟩
    fun _ => Matches.pure _

section Types

variable {operand : Reader TypeTerm} (hOperand : Matches (.rule .operand) [] operand)

include hOperand

/-- The form has no bound, the reader has one; both end where no ampersand follows. -/
theorem matches_intersectionTail (first : TypeTerm) :
    Matches (.rule .furtherOperands) [] (intersectionTail operand first) := by
  apply Matches.remaining_bind
  intro final tokens
  apply matches_end_bind (matches_eachAfter rfl hOperand final (Nat.le_refl _))
  intro further
  split
  · exact Matches.pure _
  · exact Matches.place_bind fun _ => (Matches.pure _).warn_bind _

theorem matches_intersection : Matches .intersection [] (intersection operand) :=
  hOperand.bind (matches_intersectionTail hOperand)

/-- The alternatives are intersections, each behind a bar. -/
theorem matches_unionTail (first : TypeTerm) :
    Matches (.rule .furtherAlternatives) [] (unionTail operand first) := by
  apply Matches.remaining_bind
  intro final tokens
  apply matches_end_bind (matches_eachAfter rfl (matches_intersection hOperand) final (Nat.le_refl _))
  intro further
  split
  · exact Matches.pure _
  · exact Matches.pure _

theorem matches_wholeType : Matches (.rule .type) [] (wholeType operand) :=
  Matches.rule <| (Matches.accept .pipe).bind fun _ =>
    (matches_intersection hOperand).bind (matches_unionTail hOperand)

omit hOperand in
/-- Type arguments that have no meaning are passed over. -/
theorem matches_degraded (name : String) : Matches (.pass .arguments) [] (do
    continueAt (skipArguments 0 (← remaining))
    warn (.genericArguments name)
    return TypeTerm.unknown) := by
  apply Matches.remaining_bind
  intro final tokens
  exact matches_pass_warn rfl _ final tokens

/-- The arguments of an array are read up to their first. All others are passed over and reported. -/
theorem matches_referenceTo (first : String) : Matches (.reference first) [] (referenceTo operand first) := by
  apply Matches.look
  intro final tokens
  apply matches_stretch_bind (dottedParts_suffix first tokens)
  apply Reading.Matches.look
  generalize (dottedParts first tokens).1 = name, (dottedParts first tokens).2 = rest
  have hArgument : Matches (.seq (.rule .type) (.ifNext .greater .nothing (.pass .arguments))) [] (do
      let element ← wholeType operand
      if ← accept .greater then return TypeTerm.array element
      else
        continueAt (skipArguments 0 (← remaining))
        warn (.genericArguments name)
        return TypeTerm.unknown) :=
    (matches_wholeType hOperand).bind fun _ => Matches.if_accepted (Matches.pure _) (matches_degraded name)
  rcases rest with _ | ⟨⟨kind, place⟩, rest⟩
  · exact Matches.pure _ final []
  cases kind with
  | mark mark =>
      cases mark with
      | less =>
          have hLess : (⟨.mark .less, place⟩ :: rest).head?.map Token.kind = some (.mark .less) := rfl
          rw [if_pos hLess, hLess]
          dsimp only
          split
          case isTrue hArray =>
            rw [accept_bind_mark]
            exact (hArgument final rest).behind (.token (.mark .less) place rest) fun _ => rfl
          case isFalse hOther => exact matches_degraded name final _
      | _ => exact Matches.pure _ final _
  | _ => exact Matches.pure _ final _

/-- There is one case for each use of a word; the form makes the same distinction. -/
theorem matches_namedType (word : String) : Matches (.named word) [] (namedType operand word) := by
  have hWarned (warning : Warning) : Matches .nothing [] (do warn warning; return TypeTerm.unknown) :=
    (Matches.pure _).warn_bind warning
  intro final tokens
  apply Reading.Matches.look
  obtain ⟨use, hUse, hNamed⟩ := exists_wordUse word (startsType tokens)
  rw [hNamed operand final tokens rfl]
  -- A word that stands for a type is none of those before an operand.
  have hApart : ∀ operator ∈ "readonly" :: operatorWords, operator ∉ typeWords := by decide
  cases hUse with
  | keyword hWord =>
      have hType : word ∈ typeWords := List.mem_append_left _ (List.mem_append_left _ (List.mem_map_of_mem hWord))
      rw [if_pos hType]
      exact Matches.pure _ final tokens
  | unknown hWord =>
      have hType : word ∈ typeWords := List.mem_append_left _ (List.mem_append_right _ (by simpa using hWord))
      rw [if_pos hType]
      exact Matches.pure _ final tokens
  | unsupported hWord =>
      have hType : word ∈ typeWords := List.mem_append_right _ hWord
      rw [if_pos hType]
      exact hWarned _ final tokens
  | modifier hWord hNext =>
      have hOperator : word ∈ "readonly" :: operatorWords := List.mem_cons.mpr (Or.inl hWord)
      rw [if_neg (hApart word hOperator), if_pos ⟨hOperator, hNext⟩]
      exact hOperand final tokens
  | operator hWord hNext =>
      have hOperator : word ∈ "readonly" :: operatorWords := List.mem_cons_of_mem _ hWord
      rw [if_neg (hApart word hOperator), if_pos ⟨hOperator, hNext⟩]
      exact (hOperand.end_bind fun _ => hWarned _) final tokens
  | reference hWord hNext =>
      have hOther : ¬ (word ∈ "readonly" :: operatorWords ∧ startsType tokens = true) := fun hBoth =>
        Bool.false_ne_true ((hNext hBoth.1).symm.trans hBoth.2)
      rw [if_neg hWord, if_neg hOther]
      exact matches_referenceTo hOperand word final tokens

omit hOperand in
theorem matches_addElement (elements : List TypeTerm) (rest : Option TypeTerm) (spread : Bool)
    (element : TypeTerm) : Matches .nothing [] (addElement elements rest spread element) := by
  unfold addElement
  cases rest <;> cases spread
  · exact Matches.pure _
  · exact Matches.pure _
  · exact (Matches.pure _).warn_bind _
  · exact (Matches.pure _).warn_bind _

/-- The induction is on the bound. The form goes on behind a comma and ends at the bracket, as the reader does. -/
theorem matches_tupleElements (bound : Nat) (elements : List TypeTerm) (rest : Option TypeTerm) :
    Matches (.rule .elements) [] (tupleElements operand bound elements rest) := by
  induction bound generalizing elements rest with
  | zero => exact Matches.refuseNext _
  | succ bound ih =>
      apply Matches.rule
      apply Matches.if_accepted (Matches.pure _)
      apply (Matches.accept .ellipsis).bind
      intro spread
      apply Matches.stretch_bind skipLabel_suffix
      intro tokens
      apply (matches_wholeType hOperand).bind
      intro element
      apply (Matches.accept .question).bind
      intro optional
      apply (matches_addElement _ _ _ _).nothing_bind
      intro added
      apply Matches.if_accepted (ih _ _)
      exact (Matches.expectAs .closeBracket _).end_bind fun _ => Matches.pure _

theorem matches_tupleType : Matches .tuple [] (tupleType operand) :=
  (Matches.expect .openBracket).bind fun _ => Matches.remaining_bind fun final tokens =>
    matches_tupleElements hOperand _ _ _ final tokens

/-- The parameters of a function type are passed over, and its warning follows behind its result. -/
theorem matches_parenthesized : Matches .parenthesized [] (parenthesized operand) := by
  have hWhole := matches_wholeType hOperand
  apply Matches.look
  intro final tokens
  split
  case isTrue hFunction =>
    have hResult : Matches (.seq (.mark .arrow) (.rule .type)) [.parameters] (do
        expect .arrow
        let _ ← wholeType operand
        warn (.functionType (← place).line)
        return TypeTerm.unknown) :=
      (Matches.expect .arrow).bind fun _ => hWhole.end_bind fun _ => Matches.place_bind fun _ =>
        (Matches.pure _).report_bind rfl
    exact matches_pass_bind hResult final tokens
  case isFalse =>
    have hGroup : Matches (.seq (.mark .openParen) (.seq (.rule .type) (.mark .closeParen))) [] (do
        expect .openParen
        let term ← wholeType operand
        expect .closeParen
        return term) :=
      (Matches.expect .openParen).bind fun _ => hWhole.bind fun _ => (Matches.expect .closeParen).end_bind fun _ =>
        Matches.pure _
    exact hGroup final tokens

/-- There is one case for each kind of token; a nested object type is passed over and reported. -/
theorem matches_primaryType : Matches .primary [] (primaryType operand) := by
  apply Matches.look
  intro final tokens
  rcases tokens with _ | ⟨⟨kind, place⟩, rest⟩
  · exact Matches.refuseNext _ final []
  cases kind with
  | word name => exact matches_token_bind (matches_namedType hOperand name) final place rest
  | text value => exact matches_token_end (Matches.pure _) final place rest
  | number value => exact matches_token_end (Matches.pure _) final place rest
  | template => exact matches_token_end ((Matches.pure _).warn_bind _) final place rest
  | other c => exact Matches.refuseNext _ final _
  | mark mark =>
      cases mark with
      | openBracket => exact matches_tupleType hOperand final _
      | openParen => exact matches_parenthesized hOperand final _
      | openBrace => exact matches_warn_pass rfl _ final _
      | minus =>
          rcases rest with _ | ⟨⟨following, number⟩, rest⟩
          · exact Matches.refuse _ final _
          cases following with
          | number value =>
              have hNegative : Derives (.seq (.mark .minus) (.token (.number value))) _ _ rest :=
                .seq (.token (.mark .minus) place _) (.token (.number value) number rest)
              exact ⟨_, hNegative, fun _ => Nat.le_refl 0⟩
          | _ => exact Matches.refuse _ final _
      | _ => exact Matches.refuseNext _ final _

end Types

/-- The induction is on the depth, which the form does not have: an operand nested in another is the same rule
again. -/
theorem matches_operandWithin (depth : Nat) : Matches (.rule .operand) [] (operandWithin depth) := by
  induction depth with
  | zero => exact Matches.refuseNext _
  | succ depth ih => exact Matches.rule ((matches_primaryType ih).bind matches_suffixed)

theorem matches_operandType : Matches (.rule .operand) [] operandType := by
  apply Matches.remaining_bind
  intro final tokens
  exact matches_operandWithin _ final tokens

theorem matches_typeTerm : Matches (.rule .type) [] typeTerm :=
  matches_wholeType matches_operandType

/-- A member is passed over with one warning, whose kind is among those for members. -/
theorem matches_skipped {warning : Warning} (hReports : Routine.member.reports warning = true) :
    Matches (.pass .member) [] (skipped warning) := by
  intro final tokens
  exact matches_warn_pass hReports none final tokens

/-- A method is passed over behind its name; another property is read with its type. -/
theorem matches_namedProperty (name : String) (readonly : Bool) :
    Matches .property [] (namedProperty name readonly) := by
  apply (Matches.accept .question).bind
  intro optional
  apply Matches.if_remaining (matches_skipped rfl)
  exact (Matches.expect .colon).bind fun _ => matches_typeTerm.end_bind fun _ => Matches.pure _

/-- The decisions of the form on a member are those of the reader, in the same order. -/
theorem matches_modifiedMember (readonly : Bool) (final : Position) (tokens : List Token) :
    (modifiedMember readonly tokens final tokens).Matches .modifiedMember [] tokens := by
  have hNamed (name : String) := matches_namedProperty name readonly
  have hSkipped {warning : Position → Warning}
      (hReports : ∀ position, Routine.member.reports (warning position) = true) :
      Matches (.pass .member) [] (do skipped (warning (← place))) :=
    Matches.place_bind fun position => matches_skipped (hReports position)
  apply Reading.Matches.look
  unfold modifiedMember
  split
  case isTrue hAccessor => exact hSkipped (fun _ => rfl) final tokens
  case isFalse =>
    rcases tokens with _ | ⟨⟨kind, position⟩, rest⟩
    · exact Matches.refuseNext _ final []
    cases kind with
    | word name => exact matches_token_bind (hNamed name) final position rest
    | text name => exact matches_token_bind (hNamed name) final position rest
    | number value => exact matches_token_bind (hNamed value.literalText) final position rest
    | mark mark =>
        cases mark with
        | openBracket => exact hSkipped (fun _ => rfl) final _
        | openParen => exact hSkipped (fun _ => rfl) final _
        | less => exact hSkipped (fun _ => rfl) final _
        | _ => exact Matches.refuseNext _ final _
    | _ => exact Matches.refuseNext _ final _

theorem matches_member : Matches .member [] member := by
  intro final tokens
  rw [member_apply]
  apply Reading.Matches.look
  split
  case isTrue hMapping => exact Matches.place_bind (fun _ => matches_skipped rfl) final tokens
  case isFalse =>
    obtain ⟨read, hRead⟩ := skipReadonly_suffix tokens
    exact (matches_modifiedMember _ final _).behind (.stretch hRead) fun routine => passedBy_map_read routine read

/-- The induction is on the bound, which the form does not have. -/
theorem matches_members (bound : Nat) : Matches (.rule .members) [] (members bound) := by
  induction bound with
  | zero => exact Matches.refuse _
  | succ bound ih =>
      apply Matches.rule
      apply Matches.stretch_bind skipSeparators_suffix
      intro tokens
      apply Matches.remaining_bind
      intro final tokens
      split
      · exact Matches.refuse _ final tokens
      · apply Matches.if_accepted (Matches.pure _)
        apply matches_member.bind
        intro property
        exact Matches.if_remaining (ih.end_bind fun _ => Matches.pure _) (Matches.refuseNext _)

theorem matches_objectType : Matches .object [] objectType :=
  (Matches.expect .openBrace).bind fun _ => Matches.remaining_bind fun final tokens =>
    matches_members _ final tokens

theorem matches_continuedType : Matches .continued [] continuedType :=
  (matches_suffixed _).bind fun _ => (matches_intersectionTail matches_operandType _).bind
    (matches_unionTail matches_operandType)

/-- Only here an object type is read; what continues it is read and given up. -/
theorem matches_body (name : String) : Matches .body [] (body name) := by
  have hEnd (properties : List Property) :
      Matches (.look fun tokens => if continuesType tokens then .continued else .nothing) []
        (objectBodyEnd name properties) := by
    apply Matches.if_remaining _ (Matches.pure _)
    have hAlias : Matches .continued [] (do return Body.alias (← continuedType)) :=
      matches_continuedType.end_bind fun _ => Matches.pure _
    exact hAlias.warn_bind _
  intro final tokens
  rw [body_apply]
  apply Reading.Matches.look
  split
  · exact (matches_objectType.bind hEnd) final tokens
  · exact (matches_typeTerm.end_bind fun _ => Matches.pure _) final tokens

/-- Type parameters are reported behind the body, with a warning that pays for no part of it. -/
theorem matches_definitionEnd (heading : Heading) (generic : Bool) (contents : Body) :
    Matches (.optional .semicolon) [] (definitionEnd heading generic contents) := by
  have hEnd (found : Body) : Matches (.optional .semicolon) [] (do let _ ← accept .semicolon; return found) :=
    (Matches.accept .semicolon).end_bind fun _ => Matches.pure found
  unfold definitionEnd
  split
  · exact (hEnd _).warn_bind _
  · exact hEnd _

/-- What is read of a declaration behind its equals sign fits the form of a definition. -/
theorem exists_derives_of_declaration {position final : Position} {heading : Heading} {following left : List Token}
    {found : Declaration} {warnings : List Warning}
    (hRead : declaration position heading final following = .done found left warnings) :
    ∃ pieces, Derives .definition (skipParameters following).tail pieces left ∧
      ∀ routine, (passedBy routine pieces).length ≤ warnings.countP routine.reports := by
  rw [declaration_apply, bind_pure_eq_done_iff] at hRead
  obtain ⟨contents, hRead, -⟩ := hRead
  generalize startsParameters following = generic at hRead
  generalize skipParameters following = tokens at hRead ⊢
  have hBody : Matches .definition [] (body heading.name >>= definitionEnd heading generic) :=
    (matches_body heading.name).bind (matches_definitionEnd heading generic)
  rw [definition, expect, expectAs, bind_assoc] at hRead
  rcases accept_bind_cases .equals (fun accepted =>
    (if accepted then Pure.pure () else refuseNext (.mark .equals)) >>= fun _ =>
      body heading.name >>= definitionEnd heading generic) final tokens with ⟨place, rest, rfl, hTaken⟩ | ⟨-, hOther⟩
  · rw [hTaken, if_pos rfl, pure_bind] at hRead
    have hReading := hBody final rest
    rw [hRead] at hReading
    exact hReading
  · rw [hOther] at hRead
    cases tokens <;> cases hRead

end Grammar

end SchemaForge
