import SchemaForge.Proofs.TypeLookahead

/-! Reading a written type gives the type back. A whole type is read when its operands are, an operand when
its first part and its suffixes are, and the induction over the number of tokens ties the two together, as
the depth does in the grammar. -/
namespace SchemaForge.Grammar

open Reader

def typeEnds : List Mark := [.comma, .semicolon, .closeBracket, .closeParen]

def operandEnds : List Mark := .pipe :: typeEnds

def primaryEnds : List Mark := .openBracket :: operandEnds

variable {operand : Reader TypeTerm} {kinds following : List TokenKind} {term value : TypeTerm}

/-- What ends an operand is no bracket, so there are no suffixes. -/
theorem reads_suffixed (hEnds : StartsWithMark operandEnds following) (term : TypeTerm) :
    Reads (suffixed term) [] term following := by
  intro final tokens rest hTokens hRest
  have hSuffixes : arraySuffixes term rest = (term, rest) := by
    have hHead := hEnds.head?_ne (show .openBracket ∉ operandEnds by decide)
    unfold arraySuffixes
    split
    · simp [← hRest] at hHead
    · rfl
  rw [List.map_eq_nil_iff.mp hTokens, List.nil_append, suffixed, remaining_bind, hSuffixes]
  rfl

/-- An array suffix is taken with those behind it. -/
theorem reads_suffixed_array (hArray : Reads (suffixed (.array term)) kinds value following) :
    Reads (suffixed term) (.mark .openBracket :: .mark .closeBracket :: kinds) value following := by
  intro final tokens rest hTokens hRest
  obtain ⟨⟨_, opening⟩, tokens, rfl, rfl, hBehind⟩ := List.map_eq_cons_iff.mp hTokens
  obtain ⟨⟨_, closing⟩, tokens, rfl, rfl, hLeft⟩ := List.map_eq_cons_iff.mp hBehind
  exact hArray final tokens rest hLeft hRest

/-- What ends an operand is no ampersand, so the intersection is the operand. -/
theorem reads_intersection (hOperand : Reads operand kinds term following)
    (hEnds : StartsWithMark operandEnds following) : Reads (intersection operand) kinds term following := by
  refine Reads.bind_done hOperand (Reads.remaining_bind fun tokens _ => ?_)
  have hNone : Reads (eachAfter .ampersand operand tokens.length) [] [] following := by
    cases tokens.length with
    | zero => exact Reads.pure [] following
    | succ bound =>
        exact Reads.if_not_accepted (hEnds.head?_ne (show .ampersand ∉ operandEnds by decide))
          (Reads.pure [] following)
  exact Reads.bind_done hNone (Reads.pure term following)

/-- The reader reads the written operands of at most so many tokens. -/
def ReadsOperands (operand : Reader TypeTerm) (bound : Nat) : Prop :=
  ∀ term : TypeTerm, term.isPrintable = true → term.operandKinds.length ≤ bound →
    ∀ following, StartsWithMark operandEnds following → Reads operand term.operandKinds term following

/-- The type that a list of operands with bars between them stands for. -/
def unionOf (first : TypeTerm) (further : List TypeTerm) : TypeTerm :=
  if further.isEmpty then first else .union (first :: further)

/-- The further members are read one by one behind their bars. -/
theorem reads_unionTail {first : TypeTerm} {further : List TypeTerm}
    (hFurther : ∀ term ∈ further, ∀ following, StartsWithMark operandEnds following →
      Reads operand term.operandKinds term following)
    (hEnds : StartsWithMark typeEnds following) :
    Reads (unionTail operand first) (further.flatMap fun term => .mark .pipe :: term.operandKinds)
      (unionOf first further) following := by
  apply Reads.remaining_bind
  intro tokens hTokens
  have hBound : further.length ≤ tokens.length := by
    have hItems : further.length ≤ (further.flatMap fun term => .mark .pipe :: term.operandKinds).length :=
      length_le_length_flatMap (fun _ => by simp) further
    rw [length_of_map_kind hTokens]
    omega
  have hEach : Reads (eachAfter .pipe (intersection operand) tokens.length)
      (further.flatMap fun term => .mark .pipe :: term.operandKinds) further following :=
    Reads.eachAfter
      (fun term hMem following hEnds => reads_intersection (hFurther term hMem following hEnds) hEnds)
      (StartsWithMark.cons (by decide)) (hEnds.mono (by decide)) (hEnds.head?_ne (by decide)) hBound
  apply Reads.bind_done hEach
  unfold unionOf
  split
  · exact Reads.pure first following
  · exact Reads.pure _ following

/-- A written union does not start with a bar, so its first member is read first. -/
theorem reads_wholeType_of_members {first : TypeTerm} {further : List TypeTerm}
    (hMembers : ∀ term ∈ first :: further, term.isPrintable = true ∧ ∀ following,
      StartsWithMark operandEnds following → Reads operand term.operandKinds term following)
    (hEnds : StartsWithMark typeEnds following) :
    Reads (wholeType operand) (separated .pipe ((first :: further).map TypeTerm.operandKinds))
      (unionOf first further) following := by
  rw [List.forall_mem_cons] at hMembers
  obtain ⟨⟨hPrintable, hFirst⟩, hFurther⟩ := hMembers
  have hStarts := TypeTerm.startsOperand_operandKinds (TypeTerm.startsOperand_kinds hPrintable)
  have hTail : separated .pipe ((first :: further).map TypeTerm.operandKinds) =
      first.operandKinds ++ further.flatMap fun term => .mark .pipe :: term.operandKinds := by
    simp [separated, List.flatMap_map]
  have hBehind : StartsWithMark operandEnds
      ((further.flatMap fun term => .mark .pipe :: term.operandKinds) ++ following) := by
    cases further with
    | nil => exact hEnds.mono (by decide)
    | cons second further => exact StartsWithMark.cons (by decide) _
  rw [hTail]
  refine Reads.bind_peek (Reads.accept_other ?_) ?_
  · exact head?_ne_of_startsOperand (startsOperand_append (startsOperand_append hStarts _) _) (by decide)
  · exact Reads.bind (reads_intersection (hFirst _ hBehind) hBehind)
      (reads_unionTail (fun term hMem => (hFurther term hMem).2) hEnds)

/-- A whole type is read when its operands are. -/
theorem reads_wholeType {bound : Nat} (hOperand : ReadsOperands operand bound)
    (hPrintable : term.isPrintable = true) (hBound : term.kinds.length ≤ bound)
    (hEnds : StartsWithMark typeEnds following) : Reads (wholeType operand) term.kinds term following := by
  cases hUnion : term.isUnion with
  | false =>
      have hKinds := TypeTerm.operandKinds_of_not_isUnion hUnion
      have hSingle : Reads (wholeType operand) (separated .pipe ([term].map TypeTerm.operandKinds))
          (unionOf term []) following := by
        refine reads_wholeType_of_members ?_ hEnds
        rintro _ (_ | ⟨_, ⟨⟩⟩)
        exact ⟨hPrintable, hOperand term hPrintable (by rwa [hKinds])⟩
      simpa [separated, unionOf, hKinds] using hSingle
  | true =>
      obtain ⟨members, rfl⟩ : ∃ members, term = .union members := by
        cases term <;> simp [TypeTerm.isUnion] at hUnion ⊢
      rw [TypeTerm.isPrintable_union] at hPrintable
      rw [TypeTerm.kinds_union] at hBound ⊢
      obtain ⟨hTwo, hPrintable⟩ := hPrintable
      rcases members with _ | ⟨first, _ | ⟨second, further⟩⟩
      · simp at hTwo
      · simp at hTwo
      · refine reads_wholeType_of_members (fun member hMem => ?_) hEnds
        have hLength : member.operandKinds.length ≤ bound :=
          (length_le_separated (List.mem_map_of_mem hMem)).trans hBound
        exact ⟨hPrintable member hMem, hOperand member (hPrintable member hMem) hLength⟩

/-- The reader takes the written type wherever a type may end. -/
def ReadsElement (operand : Reader TypeTerm) (term : TypeTerm) : Prop :=
  startsOperand term.kinds = true ∧
    ∀ following, StartsWithMark typeEnds following → Reads (wholeType operand) term.kinds term following

/-- What is read of a tuple behind an element. -/
def tupleBehind (operand : Reader TypeTerm) (bound : Nat) (elements : List TypeTerm)
    (rest : Option TypeTerm) : Reader TypeTerm := do
  if ← accept .comma then tupleElements operand bound elements rest
  else
    expectAs .closeBracket .tupleEnd
    return .tuple elements rest

section Tuples

variable {element : TypeTerm} {bound : Nat} {done : List TypeTerm}

/-- The part of a tuple from the label of an element on. -/
theorem reads_element {next : TypeTerm → Reader TypeTerm} (hElement : ReadsElement operand element)
    (hEnds : StartsWithMark [.comma, .closeBracket] (kinds ++ following))
    (hNext : Reads (next element) kinds value following) :
    Reads (remaining >>= fun tokens => continueAt (skipLabel tokens) >>= fun _ =>
        wholeType operand >>= fun element => accept .question >>= fun _ => next element)
      (element.kinds ++ kinds) value following := by
  refine Reads.keep_bind (fun tokens hTokens => ?_) ?_
  · rw [List.append_assoc] at hTokens
    exact skipLabel_of_kinds hElement.1 hEnds (by decide) (by decide) hTokens
  · apply Reads.bind (hElement.2 _ (hEnds.mono (by decide)))
    exact Reads.bind_peek (Reads.accept_other (hEnds.head?_ne (by decide))) hNext

theorem reads_tupleElements_plain (hElement : ReadsElement operand element)
    (hEnds : StartsWithMark [.comma, .closeBracket] (kinds ++ following))
    (hBehind : Reads (tupleBehind operand bound (done ++ [element]) none) kinds value following) :
    Reads (tupleElements operand (bound + 1) done none) (element.kinds ++ kinds) value following := by
  have hStarts := startsOperand_append (startsOperand_append hElement.1 kinds) following
  refine Reads.if_not_accepted (head?_ne_of_startsOperand hStarts (by decide)) ?_
  refine Reads.bind_peek (Reads.accept_other (head?_ne_of_startsOperand hStarts (by decide))) ?_
  exact reads_element hElement hEnds (Reads.bind_peek (Reads.pure _ _) hBehind)

theorem reads_tupleElements_rest (hElement : ReadsElement operand element)
    (hEnds : StartsWithMark [.comma, .closeBracket] (kinds ++ following))
    (hBehind : Reads (tupleBehind operand bound done (some element)) kinds value following) :
    Reads (tupleElements operand (bound + 1) done none) (.mark .ellipsis :: (element.kinds ++ kinds))
      value following := by
  apply Reads.if_not_accepted (by simp)
  apply Reads.accept_bind
  exact reads_element hElement hEnds (Reads.bind_peek (Reads.pure _ _) hBehind)

theorem reads_tupleBehind_end (elements : List TypeTerm) (rest : Option TypeTerm) :
    Reads (tupleBehind operand bound elements rest) [.mark .closeBracket] (.tuple elements rest) following :=
  Reads.if_not_accepted (by simp) (Reads.bind_done (Reads.expectAs _ _ _) (Reads.pure _ _))

/-- The rest of a tuple is read when its elements are. The induction is on the elements that are left; those
read before them are carried along. -/
theorem reads_tupleElements {elements : List TypeTerm} {rest : Option TypeTerm}
    (hElements : ∀ element ∈ elements, ReadsElement operand element)
    (hRest : ∀ term ∈ rest, ReadsElement operand term)
    (hBound : elements.length + rest.toList.length < bound) :
    Reads (tupleElements operand bound done none)
      (separated .comma (TypeTerm.tupleParts elements rest) ++ [.mark .closeBracket])
      (.tuple (done ++ elements) rest) following := by
  induction elements generalizing done bound with
  | nil =>
      obtain ⟨bound, rfl⟩ : ∃ fewer, bound = fewer + 1 := ⟨bound - 1, by omega⟩
      rw [List.append_nil]
      cases rest with
      | none => exact Reads.if_accepted (Reads.pure _ _)
      | some term =>
          have hLast := reads_tupleElements_rest (hRest term rfl) (StartsWithMark.cons (by decide) _)
            (@reads_tupleBehind_end operand following bound done (some term))
          simpa [TypeTerm.tupleParts, separated] using hLast
  | cons element elements ih =>
      obtain ⟨bound, rfl⟩ : ∃ fewer, bound = fewer + 1 := ⟨bound - 1, by omega⟩
      rw [List.forall_mem_cons] at hElements
      cases hParts : TypeTerm.tupleParts elements rest with
      | nil =>
          obtain ⟨rfl, rfl⟩ : elements = [] ∧ rest = none := by
            simpa [TypeTerm.tupleParts] using hParts
          have hLast := reads_tupleElements_plain hElements.1 (StartsWithMark.cons (by decide) _)
            (@reads_tupleBehind_end operand following bound (done ++ [element]) none)
          simpa [TypeTerm.tupleParts, separated] using hLast
      | cons part parts =>
          have hFurther := @ih bound (done ++ [element]) hElements.2 (by simp at hBound; omega)
          have hNext := reads_tupleElements_plain hElements.1 (StartsWithMark.cons (by decide) _)
            (Reads.if_accepted hFurther)
          have hKinds : separated .comma (TypeTerm.tupleParts (element :: elements) rest) =
              element.kinds ++ .mark .comma :: separated .comma (TypeTerm.tupleParts elements rest) := by
            rw [TypeTerm.tupleParts_cons, hParts]
            simp [separated]
          rw [hKinds]
          simpa using hNext

end Tuples

/-- A word is taken before it is decided what it means. -/
theorem reads_primaryType_word {name : String} (hNamed : Reads (namedType operand name) kinds value following) :
    Reads (primaryType operand) (.word name :: kinds) value following := by
  refine Reads.take_first (fun final position tokens => ?_) hNamed
  rw [primaryType, remaining_bind]
  exact continueAt_bind _ _ _ _

/-- A word that is a type by itself takes nothing more. -/
theorem reads_keyword {name : String}
    (hNamed : ∀ final rest, namedType operand name final rest = (pure value : Reader TypeTerm) final rest) :
    Reads (primaryType operand) [.word name] value following := by
  apply reads_primaryType_word
  intro final tokens rest hTokens _
  rw [List.map_eq_nil_iff.mp hTokens]
  exact hNamed final rest

/-- A name behind which neither a dot nor an angle bracket stands is a reference, or the built-in type of dates. -/
theorem reads_referenceTo (name : String) (hEnds : StartsWithMark primaryEnds following) :
    Reads (referenceTo operand name) [] (if name = "Date" then .date else .reference name) following := by
  intro final tokens rest hTokens hRest
  have hDot : (rest.map Token.kind).head? ≠ some (.mark .dot) := hRest ▸ hEnds.head?_ne (by decide)
  have hLess : (rest.map Token.kind).head? ≠ some (.mark .less) := hRest ▸ hEnds.head?_ne (by decide)
  rw [List.map_eq_nil_iff.mp hTokens, List.nil_append, referenceTo, remaining_bind, dottedParts_of_head? hDot]
  refine (continueAt_bind _ _ _ _).trans ?_
  rw [List.head?_map] at hLess
  generalize rest.head?.map Token.kind = head at hLess ⊢
  rcases head with _ | kind
  · rfl
  · cases kind with
    | mark mark =>
        cases mark
        case less => exact absurd rfl hLess
        all_goals rfl
    | _ => rfl

theorem reads_reference {name : String} (hReserved : name ∉ reservedWords)
    (hEnds : StartsWithMark primaryEnds following) :
    Reads (primaryType operand) [.word name] (.reference name) following := by
  have hWords : ∀ word ∈ reservedWords, name ≠ word := fun word hMem hEq => hReserved (hEq ▸ hMem)
  have hReference := @reads_referenceTo operand following name hEnds
  rw [if_neg (hWords "Date" (by decide))] at hReference
  simp only [reservedWords, List.forall_mem_cons] at hWords
  refine reads_primaryType_word (Reads.remaining_bind fun tokens _ => ?_)
  simpa only [hWords, if_false, List.mem_cons, or_self, false_and, List.not_mem_nil] using hReference

theorem reads_date (hEnds : StartsWithMark primaryEnds following) :
    Reads (primaryType operand) [.word "Date"] .date following := by
  refine reads_primaryType_word (Reads.remaining_bind fun tokens _ => ?_)
  simpa using @reads_referenceTo operand following "Date" hEnds

theorem reads_text (value : String) :
    Reads (primaryType operand) [.text value] (.literal (.text value)) following :=
  Reads.take_first (fun _ _ _ => rfl) (Reads.pure _ _)

theorem reads_number (value : Binary64) :
    Reads (primaryType operand) [.number value] (.literal (.number value)) following :=
  Reads.take_first (fun _ _ _ => rfl) (Reads.pure _ _)

/-- A negative number is two tokens, of which the second is negated. -/
theorem reads_minus_number (value : Binary64) :
    Reads (primaryType operand) [.mark .minus, .number value] (.literal (.number value.neg)) following := by
  intro final tokens rest hTokens hRest
  obtain ⟨⟨_, minus⟩, tokens, rfl, rfl, hBehind⟩ := List.map_eq_cons_iff.mp hTokens
  obtain ⟨⟨_, position⟩, tokens, rfl, rfl, hNil⟩ := List.map_eq_cons_iff.mp hBehind
  rw [List.map_eq_nil_iff.mp hNil]
  rfl

/-- The parentheses do not start a function, as no arrow can follow an operand. -/
theorem reads_parenthesized
    (hTerm : ∀ following, StartsWithMark typeEnds following → Reads (wholeType operand) term.kinds term following)
    (hEnds : StartsWithMark primaryEnds following) :
    Reads (parenthesized operand) (.mark .openParen :: (term.kinds ++ [.mark .closeParen])) term following := by
  apply Reads.remaining_bind
  intro tokens hTokens
  have hPlain : startsFunction 0 tokens = false := by
    rw [List.cons_append, List.append_assoc] at hTokens
    obtain ⟨opening, tokens, rfl, hOpening, hBehind⟩ := List.map_eq_cons_iff.mp hTokens
    obtain ⟨inner, tokens, rfl, hInner, hClosing⟩ := List.map_eq_append_iff.mp hBehind
    obtain ⟨closing, rest, rfl, hClose, hRest⟩ := List.map_eq_cons_iff.mp hClosing
    rw [startsFunction_open hOpening, startsFunction_append term 0 inner _ hInner]
    exact startsFunction_last hClose (hRest ▸ hEnds.head?_ne (by decide))
  simp only [hPlain, Bool.false_eq_true, if_false]
  refine Reads.expect_bind (Reads.bind (hTerm _ (StartsWithMark.cons (by decide) _)) ?_)
  exact Reads.bind_done (Reads.expect _ _) (Reads.pure _ _)

/-- The number of tokens bounds the number of elements, each of which has a token of its own. -/
theorem reads_tupleType {elements : List TypeTerm} {rest : Option TypeTerm}
    (hElements : ∀ element ∈ elements, ReadsElement operand element)
    (hRest : ∀ term ∈ rest, ReadsElement operand term) :
    Reads (tupleType operand) (TypeTerm.tuple elements rest).kinds (.tuple elements rest) following := by
  rw [TypeTerm.kinds_tuple, List.cons_append]
  refine Reads.expect_bind (Reads.remaining_bind fun tokens hTokens => ?_)
  apply reads_tupleElements hElements hRest
  have hParts := @length_le_separated_add_one .comma (TypeTerm.tupleParts elements rest)
  have hCount : (TypeTerm.tupleParts elements rest).length = elements.length + rest.toList.length := by
    simp [TypeTerm.tupleParts]
  rw [length_of_map_kind hTokens, List.length_append, List.length_singleton]
  omega

/-- There is one case for each kind of literal; only a negative number has more than one token. -/
theorem reads_literal (value : Literal) :
    Reads (primaryType operand) value.kinds (.literal value) following := by
  cases value with
  | text value => exact reads_text value
  | bool value => cases value <;> exact reads_keyword (by simp [namedType])
  | null => exact reads_keyword (by simp [namedType])
  | number value =>
      cases value with
      | infinite negative => exact reads_number _
      | nan => exact reads_number _
      | finite negative steps =>
          cases negative with
          | false => exact reads_number _
          | true => exact reads_minus_number _

theorem ReadsOperands.readsElement {bound : Nat} (hOperand : ReadsOperands operand bound)
    (hPrintable : term.isPrintable = true) (hBound : term.kinds.length ≤ bound) : ReadsElement operand term :=
  ⟨TypeTerm.startsOperand_kinds hPrintable, fun _ hEnds => reads_wholeType hOperand hPrintable hBound hEnds⟩

/-- A type without array suffixes is read when the operands in it are. -/
theorem reads_primaryType {bound : Nat} (hOperand : ReadsOperands operand bound)
    (hPrintable : term.isPrintable = true) (hArray : ∀ element, term ≠ .array element)
    (hBound : term.operandKinds.length ≤ bound + 1) (hEnds : StartsWithMark primaryEnds following) :
    Reads (primaryType operand) term.operandKinds term following := by
  cases term with
  | primitive kind => cases kind <;> exact reads_keyword (by simp [namedType, Primitive.keyword])
  | anyObject => exact reads_keyword (by simp [namedType])
  | unknown => exact reads_keyword (by simp [namedType])
  | date => exact reads_date hEnds
  | literal value => exact reads_literal value
  | reference name =>
      simp only [TypeTerm.isPrintable, Bool.and_eq_true, decide_eq_true_eq] at hPrintable
      exact reads_reference hPrintable.2 hEnds
  | array element => exact absurd rfl (hArray element)
  | tuple elements rest =>
      rw [TypeTerm.isPrintable_tuple] at hPrintable
      have hPart : ∀ part ∈ TypeTerm.tupleParts elements rest, part.length ≤ bound := by
        intro part hMem
        have hLength := @length_le_separated .comma part _ hMem
        rw [TypeTerm.operandKinds_of_not_isUnion rfl, TypeTerm.kinds_tuple] at hBound
        simp only [List.cons_append, List.length_cons, List.length_append] at hBound
        omega
      simp only [TypeTerm.tupleParts, List.forall_mem_append, List.forall_mem_map] at hPart
      rw [TypeTerm.operandKinds_of_not_isUnion rfl]
      have hTuple : Reads (tupleType operand) (TypeTerm.tuple elements rest).kinds (.tuple elements rest)
          following := by
        refine reads_tupleType (fun element hMem => ?_) (fun term hMem => ?_)
        · exact hOperand.readsElement (hPrintable.1 element hMem) (hPart.1 element hMem)
        · have hLength := hPart.2 term (by simpa using hMem)
          exact hOperand.readsElement (hPrintable.2 term hMem) (Nat.le_of_succ_le hLength)
      rw [TypeTerm.kinds_tuple] at hTuple ⊢
      exact Reads.see_first (fun _ _ _ => remaining_bind _ _ _) hTuple
  | union members =>
      rw [TypeTerm.operandKinds_union] at hBound ⊢
      simp only [List.cons_append, List.length_cons, List.length_append] at hBound
      refine Reads.see_first (fun _ _ _ => remaining_bind _ _ _) (reads_parenthesized ?_ hEnds)
      exact fun following hEnds => reads_wholeType hOperand hPrintable (by omega) hEnds

/-- An operand is read together with the suffixes behind it. The induction is on the number of its tokens,
which bounds the depth of the operands in it. -/
theorem reads_operandWithin (bound : Nat) : ∀ {term : TypeTerm} {depth : Nat} {kinds following : List TokenKind}
    {value : TypeTerm}, term.isPrintable = true → term.operandKinds.length ≤ bound → bound ≤ depth →
      Reads (suffixed term) kinds value following → StartsWithMark primaryEnds (kinds ++ following) →
        Reads (operandWithin depth) (term.operandKinds ++ kinds) value following := by
  induction bound with
  | zero =>
      intro term depth kinds following value hPrintable hBound
      have hStarts := TypeTerm.startsOperand_operandKinds (TypeTerm.startsOperand_kinds hPrintable)
      rw [List.eq_nil_of_length_eq_zero (Nat.le_zero.mp hBound)] at hStarts
      cases hStarts
  | succ bound ih =>
      intro term depth kinds following value hPrintable hBound hDepth hSuffixed hEnds
      by_cases hArray : ∃ element, term = .array element
      · obtain ⟨element, rfl⟩ := hArray
        have hKinds : (TypeTerm.array element).operandKinds =
            element.operandKinds ++ [.mark .openBracket, .mark .closeBracket] :=
          TypeTerm.kinds_array element
        rw [hKinds] at hBound ⊢
        simp only [List.length_append, List.length_cons] at hBound
        rw [List.append_assoc]
        exact ih hPrintable (by omega) (by omega) (reads_suffixed_array hSuffixed)
          (StartsWithMark.cons (by decide) _)
      · obtain ⟨depth, rfl⟩ : ∃ fewer, depth = fewer + 1 := ⟨depth - 1, by omega⟩
        have hOperand : ReadsOperands (operandWithin depth) bound := by
          intro part hPart hLength following hEnds
          simpa using ih hPart hLength (by omega) (reads_suffixed hEnds part) (hEnds.mono (by decide))
        exact Reads.bind (reads_primaryType hOperand hPrintable (fun element hEq => hArray ⟨element, hEq⟩)
          hBound hEnds) hSuffixed

/-- The depth that bounds the nesting exceeds the number of tokens, so operands of any length are read. -/
theorem readsOperands_operandType (bound : Nat) : ReadsOperands operandType bound := by
  intro term hPrintable _ following hEnds
  apply Reads.remaining_bind
  intro tokens hTokens
  have hDepth : term.operandKinds.length ≤ tokens.length + 1 := by
    rw [length_of_map_kind hTokens]
    omega
  simpa using reads_operandWithin _ hPrintable (Nat.le_refl _) hDepth (reads_suffixed hEnds term)
    (hEnds.mono (by decide))

/-- A written type is read back wherever a type may end. -/
theorem reads_typeTerm (hPrintable : term.isPrintable = true) (hEnds : StartsWithMark typeEnds following) :
    Reads typeTerm term.kinds term following :=
  reads_wholeType (readsOperands_operandType _) hPrintable (Nat.le_refl _) hEnds

end SchemaForge.Grammar
