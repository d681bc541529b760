import SchemaForge.Declaration.TypeGrammar
import SchemaForge.Proofs.PrintedTokens
import SchemaForge.Proofs.ReaderRules
import SchemaForge.Proofs.SkippedTokens

/-! What the look-aheads of the grammar find in written types: a parenthesis opens no function type, no
tuple element has a label, and no bar, closing bracket or ellipsis stands where an operand starts. -/
namespace SchemaForge

/-- A property of token lists that holds of the single tokens that types are made of and is kept when lists
are put together or in parentheses. -/
structure TypeKindsClosed (holds : List TokenKind → Prop) : Prop where
  nil : holds []
  append : ∀ first second, holds first → holds second → holds (first ++ second)
  word : ∀ name, holds [.word name]
  text : ∀ value, holds [.text value]
  number : ∀ value, holds [.number value]
  mark : ∀ mark ∈ [Mark.openBracket, .closeBracket, .comma, .pipe, .minus, .ellipsis], holds [.mark mark]
  group : ∀ kinds, holds kinds → holds (.mark .openParen :: kinds ++ [.mark .closeParen])

namespace TypeKindsClosed

variable {holds : List TokenKind → Prop} (closed : TypeKindsClosed holds)

include closed

/-- What holds of parts and of a mark holds of the parts with the mark between them. -/
theorem separated {mark : Mark} (hMark : holds [.mark mark]) {parts : List (List TokenKind)}
    (hParts : ∀ part ∈ parts, holds part) : holds (separated mark parts) := by
  have hMarked : ∀ parts : List (List TokenKind), (∀ part ∈ parts, holds part) →
      holds (parts.flatMap (.mark mark :: ·)) := by
    intro parts hParts
    induction parts with
    | nil => exact closed.nil
    | cons part parts ih =>
        rw [List.forall_mem_cons] at hParts
        exact closed.append _ _ (closed.append _ _ hMark hParts.1) (ih hParts.2)
  cases parts with
  | nil => exact closed.nil
  | cons part parts =>
      rw [List.forall_mem_cons] at hParts
      exact closed.append _ _ hParts.1 (hMarked parts hParts.2)

theorem literal (value : Literal) : holds value.kinds := by
  cases value with
  | text value => exact closed.text value
  | bool value => exact closed.word _
  | null => exact closed.word _
  | number value =>
      cases value with
      | finite negative steps =>
          cases negative with
          | false => exact closed.number _
          | true => exact closed.append _ _ (closed.mark .minus (by simp)) (closed.number _)
      | infinite negative => exact closed.number _
      | nan => exact closed.number _

theorem operand {term : TypeTerm} (hTerm : holds term.kinds) : holds term.operandKinds := by
  cases hUnion : term.isUnion with
  | false => rwa [TypeTerm.operandKinds_of_not_isUnion hUnion]
  | true => simpa [TypeTerm.operandKinds, TypeTerm.groupedKinds, hUnion] using closed.group _ hTerm

/-- Such a property holds of the tokens of every type. -/
theorem kinds (term : TypeTerm) : holds term.kinds := by
  induction term using TypeTerm.induction_parts with
  | primitive kind => exact closed.word _
  | reference name => exact closed.word _
  | date => exact closed.word _
  | anyObject => exact closed.word _
  | unknown => exact closed.word _
  | literal value => exact closed.literal value
  | array element ih =>
      rw [TypeTerm.kinds_array]
      exact closed.append _ _ (closed.operand ih)
        (closed.append _ _ (closed.mark .openBracket (by simp)) (closed.mark .closeBracket (by simp)))
  | tuple elements rest ihElements ihRest =>
      have hParts : ∀ part ∈ TypeTerm.tupleParts elements rest, holds part := by
        simp only [TypeTerm.tupleParts, List.mem_append, List.mem_map, Option.mem_toList]
        rintro _ (⟨element, hMem, rfl⟩ | ⟨term, hMem, rfl⟩)
        · exact ihElements element hMem
        · exact closed.append _ _ (closed.mark .ellipsis (by simp)) (ihRest term hMem)
      rw [TypeTerm.kinds_tuple]
      exact closed.append _ _
        (closed.append _ _ (closed.mark .openBracket (by simp))
          (closed.separated (closed.mark .comma (by simp)) hParts))
        (closed.mark .closeBracket (by simp))
  | union members ih =>
      rw [TypeTerm.kinds_union]
      apply closed.separated (closed.mark .pipe (by simp))
      simp only [List.mem_map]
      rintro _ ⟨member, hMem, rfl⟩
      exact closed.operand (ih member hMem)

end TypeKindsClosed

theorem length_le_separated {mark : Mark} {part : List TokenKind} {parts : List (List TokenKind)}
    (hMem : part ∈ parts) : part.length ≤ (separated mark parts).length := by
  cases parts with
  | nil => simp at hMem
  | cons first parts =>
      simp only [separated, List.length_append]
      rcases List.mem_cons.mp hMem with rfl | hFurther
      · omega
      · obtain ⟨before, behind, rfl⟩ := List.append_of_mem hFurther
        simp only [List.flatMap_append, List.flatMap_cons, List.length_append, List.length_cons]
        omega

/-- There is a mark between any two parts, so the number of tokens bounds the number of parts. -/
theorem length_le_separated_add_one {mark : Mark} (parts : List (List TokenKind)) :
    parts.length ≤ (separated mark parts).length + 1 := by
  cases parts with
  | nil => simp
  | cons first parts =>
      have hMarks : parts.length ≤ (parts.flatMap (.mark mark :: ·)).length :=
        length_le_length_flatMap (fun _ => by simp) parts
      simp only [separated, List.length_cons, List.length_append]
      omega

/-- The tokens of a type hold nothing that a label ends with. -/
theorem TypeTerm.labelMarks_notMem_kinds (term : TypeTerm) :
    .mark .colon ∉ term.kinds ∧ .mark .question ∉ term.kinds := by
  have closed : TypeKindsClosed fun kinds => .mark .colon ∉ kinds ∧ .mark .question ∉ kinds :=
    { nil := by simp
      append := by
        intro first second hFirst hSecond
        simp [hFirst, hSecond]
      word := by simp
      text := by simp
      number := by simp
      mark := by simp
      group := by
        intro kinds hKinds
        simp [hKinds] }
  exact closed.kinds term

/-- The tokens start as the tokens of an operand do. -/
def startsOperand : List TokenKind → Bool
  | .word _ :: _ => true
  | .text _ :: _ => true
  | .number _ :: _ => true
  | .mark mark :: _ => decide (mark ∈ [Mark.minus, .openBracket, .openParen])
  | _ => false

theorem startsOperand_append {first : List TokenKind} (hFirst : startsOperand first = true)
    (second : List TokenKind) : startsOperand (first ++ second) = true := by
  cases first with
  | nil => simp [startsOperand] at hFirst
  | cons kind first => cases kind <;> simp_all [startsOperand]

/-- An operand starts with one of few marks, so all others can be excluded. -/
theorem head?_ne_of_startsOperand {kinds : List TokenKind} (hStarts : startsOperand kinds = true) {mark : Mark}
    (hMark : mark ∉ [Mark.minus, .openBracket, .openParen]) : kinds.head? ≠ some (.mark mark) := by
  intro hHead
  obtain ⟨rest, rfl⟩ := List.head?_eq_some_iff.mp hHead
  exact hMark (of_decide_eq_true hStarts)

theorem Literal.startsOperand_kinds (value : Literal) : startsOperand value.kinds = true := by
  rcases value with value | (⟨negative, steps⟩ | negative | _) | value | _
  case number.finite => cases negative <;> rfl
  all_goals rfl

namespace TypeTerm

theorem startsOperand_operandKinds {term : TypeTerm} (hTerm : startsOperand term.kinds = true) :
    startsOperand term.operandKinds = true := by
  cases hUnion : term.isUnion with
  | false => rwa [operandKinds_of_not_isUnion hUnion]
  | true => simp [operandKinds, groupedKinds, hUnion, startsOperand]

/-- Every written type starts as an operand does. The induction is over its parts. -/
theorem startsOperand_kinds {term : TypeTerm} (hPrintable : term.isPrintable = true) :
    startsOperand term.kinds = true := by
  induction term using TypeTerm.induction_parts with
  | primitive kind => rfl
  | reference name => rfl
  | date => rfl
  | anyObject => rfl
  | unknown => rfl
  | literal value => exact value.startsOperand_kinds
  | array element ih =>
      rw [kinds_array]
      exact startsOperand_append (startsOperand_operandKinds (ih hPrintable)) _
  | tuple elements rest ihElements ihRest =>
      rw [kinds_tuple]
      rfl
  | union members ih =>
      rw [isPrintable_union] at hPrintable
      rw [kinds_union]
      cases members with
      | nil => simp at hPrintable
      | cons first members =>
          have hFirst := ih first List.mem_cons_self (hPrintable.2 first List.mem_cons_self)
          exact startsOperand_append (startsOperand_operandKinds hFirst) _

end TypeTerm

namespace Grammar

open Reader

/-- The last parenthesis is not followed by an arrow, so no function type starts here. -/
theorem startsFunction_last {token : Token} (hClose : token.kind = .mark .closeParen) {rest : List Token}
    (hArrow : (rest.map Token.kind).head? ≠ some (.mark .arrow)) : startsFunction 1 (token :: rest) = false := by
  rw [startsFunction.eq_def]
  cases rest with
  | nil => simp [hClose]
  | cons next rest => simpa [hClose] using hArrow

/-- A parenthesis that is open where a type starts is still open behind it. -/
theorem startsFunction_append (term : TypeTerm) : ∀ (depth : Nat) (tokens rest : List Token),
    tokens.map Token.kind = term.kinds →
      startsFunction (depth + 1) (tokens ++ rest) = startsFunction (depth + 1) rest := by
  have hSingle : ∀ kind : TokenKind, kind ≠ .mark .openParen → kind ≠ .mark .closeParen →
      ∀ (depth : Nat) (tokens rest : List Token), tokens.map Token.kind = [kind] →
        startsFunction (depth + 1) (tokens ++ rest) = startsFunction (depth + 1) rest := by
    intro kind hOpen hClose depth tokens rest hTokens
    obtain ⟨token, tokens, rfl, rfl, hNil⟩ := List.map_eq_cons_iff.mp hTokens
    rw [List.map_eq_nil_iff.mp hNil]
    exact startsFunction_cons hOpen hClose _ _
  have closed : TypeKindsClosed fun kinds => ∀ (depth : Nat) (tokens rest : List Token),
      tokens.map Token.kind = kinds →
        startsFunction (depth + 1) (tokens ++ rest) = startsFunction (depth + 1) rest :=
    { nil := by
        intro depth tokens rest hNil
        rw [List.map_eq_nil_iff.mp hNil, List.nil_append]
      append := by
        intro first second hFirst hSecond depth tokens rest hTokens
        obtain ⟨taken, left, rfl, hTaken, hLeft⟩ := List.map_eq_append_iff.mp hTokens
        rw [List.append_assoc, hFirst depth taken _ hTaken, hSecond depth left rest hLeft]
      word := fun name => hSingle _ (by simp) (by simp)
      text := fun value => hSingle _ (by simp) (by simp)
      number := fun value => hSingle _ (by simp) (by simp)
      mark := fun mark hMem => hSingle _ (by rintro ⟨⟩; simp at hMem) (by rintro ⟨⟩; simp at hMem)
      group := by
        intro kinds hKinds depth tokens rest hTokens
        rw [List.cons_append] at hTokens
        obtain ⟨opening, tokens, rfl, hOpening, hTokens⟩ := List.map_eq_cons_iff.mp hTokens
        obtain ⟨inner, closing, rfl, hInner, hClosing⟩ := List.map_eq_append_iff.mp hTokens
        obtain ⟨closing, tokens, rfl, hClosing, hNil⟩ := List.map_eq_cons_iff.mp hClosing
        rw [List.map_eq_nil_iff.mp hNil, List.cons_append, startsFunction_open hOpening, List.append_assoc,
          hKinds (depth + 1) inner _ hInner, List.singleton_append, startsFunction_close hClosing] }
  exact closed.kinds term

/-- A written element of a tuple has no label. -/
theorem skipLabel_of_kinds {term : TypeTerm} {marks : List Mark} {following : List TokenKind}
    {tokens : List Token} (hTerm : startsOperand term.kinds = true) (hEnds : StartsWithMark marks following)
    (hColon : .colon ∉ marks) (hQuestion : .question ∉ marks)
    (hTokens : tokens.map Token.kind = term.kinds ++ following) : skipLabel tokens = tokens := by
  -- The token at the second place belongs to the type or is the first one behind it.
  have hSecond : ∀ first second rest, tokens = first :: second :: rest →
      second.kind ≠ .mark .colon ∧ second.kind ≠ .mark .question := by
    rintro first second rest rfl
    have hLabel := term.labelMarks_notMem_kinds
    rcases hKinds : term.kinds with _ | ⟨kind, _ | ⟨other, kinds⟩⟩
    · simp [hKinds, startsOperand] at hTerm
    · have hHead : following.head? = some second.kind := by
        rw [hKinds] at hTokens
        simp only [List.map_cons, List.singleton_append, List.cons.injEq] at hTokens
        simp [← hTokens.2]
      have hNotColon := hEnds.head?_ne hColon
      have hNotQuestion := hEnds.head?_ne hQuestion
      simpa [hHead] using And.intro hNotColon hNotQuestion
    · have hOther : second.kind = other := by
        rw [hKinds] at hTokens
        simp only [List.map_cons, List.cons_append, List.cons.injEq] at hTokens
        exact hTokens.2.1
      have hMem : second.kind ∈ term.kinds := by simp [hKinds, hOther]
      exact ⟨fun hEq => hLabel.1 (hEq ▸ hMem), fun hEq => hLabel.2 (hEq ▸ hMem)⟩
  unfold skipLabel
  split
  · exact absurd rfl (hSecond _ _ _ rfl).1
  · exact absurd rfl (hSecond _ _ _ rfl).2
  · rfl

theorem dottedParts_of_head? {tokens : List Token} (hHead : (tokens.map Token.kind).head? ≠ some (.mark .dot))
    (name : String) : dottedParts name tokens = (name, tokens) := by
  unfold dottedParts
  split
  · simp at hHead
  · rfl

end Grammar

end SchemaForge
