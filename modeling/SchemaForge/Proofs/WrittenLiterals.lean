import SchemaForge.Proofs.LexedPieces
import SchemaForge.Proofs.PrintedTokens

/-! Literals as generated code writes them. A quoted text is one token whatever it holds and whatever follows
it; a number is one token, or two when it is negative. -/
namespace SchemaForge

open Lexeme

namespace Lexeme

/-- No digit of a code ends a quoted text or starts an escape. -/
theorem hexDigit_inside : ∀ value < 16, Text.hexDigit value ≠ '\n' ∧ Text.hexDigit value ≠ '\\' ∧
    Text.hexDigit value ≠ '"' := by
  decide

/-- An escaped character is read as some characters, and the text goes on behind it. -/
theorem quoted_escapeChar (c : Char) : ∃ value, ∀ rest,
    quoted '"' (Text.escapeChar c ++ rest) =
      (value ++ (quoted '"' rest).1, Text.escapeChar c ++ (quoted '"' rest).2) := by
  by_cases hQuote : c = '"'
  · subst hQuote
    exact ⟨['"'], fun rest => rfl⟩
  by_cases hSlash : c = '\\'
  · subst hSlash
    exact ⟨['\\'], fun rest => rfl⟩
  by_cases hFeed : c = '\n'
  · subst hFeed
    exact ⟨['\n'], fun rest => rfl⟩
  by_cases hReturn : c = '\r'
  · subst hReturn
    exact ⟨['\r'], fun rest => rfl⟩
  by_cases hTab : c = '\t'
  · subst hTab
    exact ⟨['\t'], fun rest => rfl⟩
  by_cases hBack : c = '\x08'
  · subst hBack
    exact ⟨['b'], fun rest => rfl⟩
  by_cases hForm : c = '\x0c'
  · subst hForm
    exact ⟨['f'], fun rest => rfl⟩
  rw [Text.escapeChar, if_neg hQuote, if_neg hSlash, if_neg hFeed, if_neg hReturn, if_neg hTab, if_neg hBack,
    if_neg hForm]
  split
  · have hHigh := hexDigit_inside (c.toNat / 16) (by omega)
    have hLow := hexDigit_inside (c.toNat % 16) (by omega)
    refine ⟨['u', '0', '0', Text.hexDigit (c.toNat / 16), Text.hexDigit (c.toNat % 16)], fun rest => ?_⟩
    simp [quoted, unescape, hHigh, hLow]
  · exact ⟨[c], fun rest => by simp [quoted, hQuote, hSlash]⟩

/-- The induction is over the characters: none of the escapes contains a quote that would end the text. -/
theorem quoted_escaped (chars : List Char) : ∃ value, ∀ rest,
    quoted '"' (chars.flatMap Text.escapeChar ++ '"' :: rest) = (value, chars.flatMap Text.escapeChar ++ ['"']) := by
  induction chars with
  | nil => exact ⟨[], fun rest => rfl⟩
  | cons c chars ih =>
      obtain ⟨first, hFirst⟩ := quoted_escapeChar c
      obtain ⟨value, hValue⟩ := ih
      refine ⟨first ++ value, fun rest => ?_⟩
      rw [List.flatMap_cons, List.append_assoc, hFirst, hValue, List.append_assoc]

/-- The value that a text between quotes is read as. -/
def quotedValue (text : String) : String :=
  String.ofList (quoted '"' (text.toList.flatMap Text.escapeChar ++ ['"'])).1

/-- A quoted text is one token, whatever follows its quote. -/
theorem cuts_quoted (text : String) : Cuts (Text.quoted text) [.text (quotedValue text)] := by
  intro rest
  obtain ⟨value, hValue⟩ := quoted_escaped text.toList
  have hRead : read '"' ((text.toList.flatMap Text.escapeChar ++ ['"']) ++ rest) =
      ⟨'"' :: (text.toList.flatMap Text.escapeChar ++ ['"']), some (.text (quotedValue text))⟩ := by
    rw [List.append_assoc, List.singleton_append]
    simp [read, quotedValue, hValue, show Text.isBlank '"' = false by decide]
  rw [Text.quoted, String.toList_ofList, List.cons_append, kindsOf_of_read hRead]
  rfl

/-- A row of digits with a point inside is taken whole when nothing after it goes on with a number. -/
theorem numeral_point {whole fraction rest : List Char} (hWhole : whole.all Char.isDigit = true)
    (hFraction : fraction.all Char.isDigit = true) (hNonempty : fraction ≠ []) (hEnds : endsWord rest = true)
    (started : Bool) :
    numeral false started (whole ++ '.' :: (fraction ++ rest)) = (whole ++ '.' :: fraction, whole ++ '.' :: fraction) := by
  induction whole generalizing started with
  | nil =>
      have hDigit : startsWithDigit (fraction ++ rest) = true := by
        obtain ⟨c, more, rfl⟩ := List.exists_cons_of_ne_nil hNonempty
        exact (List.all_eq_true.mp hFraction) c List.mem_cons_self
      rw [List.nil_append, numeral.eq_def]
      simp [hDigit, numeral_digits hFraction hEnds]
  | cons c whole ih =>
      rw [List.all_cons, Bool.and_eq_true] at hWhole
      rw [List.cons_append, numeral.eq_def]
      simp [hWhole.1, ih hWhole.2]

def IsNumeral (chars : List Char) : Prop :=
  startsWithDigit chars = true ∧
    ∀ rest, endsWord rest = true → numeral false false (chars ++ rest) = (chars, chars)

theorem isNumeral_digits {digits : List Char} (hDigits : digits.all Char.isDigit = true) (hNonempty : digits ≠ []) :
    IsNumeral digits := by
  obtain ⟨c, more, rfl⟩ := List.exists_cons_of_ne_nil hNonempty
  exact ⟨(List.all_eq_true.mp hDigits) c List.mem_cons_self, fun rest hEnds => numeral_digits hDigits hEnds _ _⟩

theorem isNumeral_point {whole fraction : List Char} (hWhole : whole.all Char.isDigit = true) (hFirst : whole ≠ [])
    (hFraction : fraction.all Char.isDigit = true) (hNonempty : fraction ≠ []) :
    IsNumeral (whole ++ '.' :: fraction) := by
  refine ⟨?_, fun rest hEnds => ?_⟩
  · obtain ⟨c, more, rfl⟩ := List.exists_cons_of_ne_nil hFirst
    exact (List.all_eq_true.mp hWhole) c List.mem_cons_self
  · rw [List.append_assoc, List.cons_append]
    exact numeral_point hWhole hFraction hNonempty hEnds false

def isLiteralKind : TokenKind → Bool
  | .text _ => true
  | .number _ => true
  | .other _ => true
  | .mark sign => decide (sign = .minus)
  | .word name => decide (name ∈ ["true", "false", "null", "NaN", "inf"])
  | .template => false

/-- The text is cut into tokens of literals when nothing after it goes on with its last word or number. -/
def SpellsLiteral (text : String) : Prop :=
  ∃ kinds, (∀ kind ∈ kinds, isLiteralKind kind = true) ∧ Spells text kinds

theorem spellsLiteral_word {word : String} (hWord : isOneWord word = true)
    (hLiteral : isLiteralKind (.word word) = true) : SpellsLiteral word :=
  ⟨[.word word], List.forall_mem_singleton.mpr hLiteral, spells_word hWord⟩

theorem spellsLiteral_quoted (text : String) : SpellsLiteral (Text.quoted text) :=
  ⟨[.text (quotedValue text)], List.forall_mem_singleton.mpr rfl, fun rest _ => cuts_quoted text rest⟩

theorem spellsLiteral_minus {text : String} (hText : SpellsLiteral text) : SpellsLiteral ("-" ++ text) := by
  obtain ⟨kinds, hKinds, hSpells⟩ := hText
  refine ⟨.mark .minus :: kinds, List.forall_mem_cons.mpr ⟨rfl, hKinds⟩, fun rest hEnds => ?_⟩
  rw [String.toList_append, List.append_assoc]
  exact (kindsOf_mark rfl _).trans (congrArg _ (hSpells rest hEnds))

/-- A numeral is a token of a literal even if it is no number. -/
theorem exists_ofNumeral (chars : List Char) : ∃ kind, isLiteralKind kind = true ∧
    ∀ rest, numeral false false (chars ++ rest) = (chars, chars) →
      ofNumeral (chars ++ rest) = ⟨chars, some kind⟩ := by
  cases hValue : Binary64.ofUnsignedText? false chars with
  | some value => exact ⟨.number value, rfl, fun rest hTaken => by simp only [ofNumeral, hTaken, hValue]⟩
  | none => exact ⟨.other '0', rfl, fun rest hTaken => by simp only [ofNumeral, hTaken, hValue]⟩

/-- A numeral is one token if what follows does not go on with it. -/
theorem spellsLiteral_numeral {text : String} (hNumeral : IsNumeral text.toList) : SpellsLiteral text := by
  obtain ⟨hDigit, hTaken⟩ := hNumeral
  obtain ⟨kind, hKind, hRead⟩ := exists_ofNumeral text.toList
  refine ⟨[kind], List.forall_mem_singleton.mpr hKind, fun rest hEnds => ?_⟩
  have hNumeral := hRead rest (hTaken rest hEnds)
  cases hChars : text.toList with
  | nil => simp [hChars, startsWithDigit] at hDigit
  | cons c chars =>
      rw [hChars] at hDigit hNumeral
      rw [List.cons_append, kindsOf_of_read ((read_digit hDigit (chars ++ rest)).trans hNumeral)]
      rfl

end Lexeme

/-- The digits of a decimal, with zeros and a point as needed, form a numeral. -/
theorem Decimal.isNumeral_positional (d : Decimal) : IsNumeral d.positional.toList := by
  have hDigits : d.digits.all Char.isDigit = true := all_isDigit_toDigits d.significand
  have hNonempty : d.digits ≠ [] := Nat.toDigits_ne_nil
  have hZeros (count : Nat) : (List.replicate count '0').all Char.isDigit = true := by
    simp [show '0'.isDigit = true by decide]
  unfold Decimal.positional
  simp only
  split_ifs with hWhole hBefore
  · rw [String.toList_ofList]
    exact isNumeral_digits (by rw [List.all_append, hDigits, hZeros]; rfl) (by simp [hNonempty])
  · rw [String.toList_ofList]
    apply isNumeral_point
    · exact List.all_eq_true.mpr fun c hMem => List.all_eq_true.mp hDigits c (List.mem_of_mem_take hMem)
    · simp [hNonempty]
      omega
    · exact List.all_eq_true.mpr fun c hMem => List.all_eq_true.mp hDigits c (List.mem_of_mem_drop hMem)
    · simp
      omega
  · rw [String.toList_ofList, ← List.singleton_append]
    apply isNumeral_point
    · decide
    · simp
    · rw [List.all_append, hDigits, hZeros]
      rfl
    · simp [hNonempty]

theorem Binary64.spellsLiteral_positional (x : Binary64) : SpellsLiteral x.positional := by
  have hSign {text : String} (hText : SpellsLiteral text) (negative : Bool) :
      SpellsLiteral (signText negative ++ text) := by
    cases negative with
    | true => exact spellsLiteral_minus hText
    | false => exact hText
  cases x with
  | nan => exact spellsLiteral_word (by decide) (by decide)
  | infinite negative => exact hSign (spellsLiteral_word (by decide) (by decide)) negative
  | finite negative steps =>
      refine hSign ?_ negative
      split
      · exact spellsLiteral_numeral (isNumeral_digits (by decide) (by decide))
      · exact spellsLiteral_numeral (Decimal.isNumeral_positional _)

theorem spellsLiteral_toString_nat (n : Nat) : SpellsLiteral (toString n) := by
  apply spellsLiteral_numeral
  rw [Nat.toString_eq_repr, Nat.repr_eq_ofList_toDigits, String.toList_ofList]
  exact isNumeral_digits (all_isDigit_toDigits n) Nat.toDigits_ne_nil

theorem spellsLiteral_toString_int (n : Int) : SpellsLiteral (toString n) := by
  cases n with
  | ofNat n => exact spellsLiteral_toString_nat n
  | negSucc n => exact spellsLiteral_minus (spellsLiteral_toString_nat (n + 1))

/-- There is one case for each way a number is written. -/
theorem Binary64.spellsLiteral_literalText (x : Binary64) : SpellsLiteral x.literalText := by
  unfold literalText
  split
  · split
    · exact spellsLiteral_toString_int _
    · exact spellsLiteral_positional _
  · exact spellsLiteral_positional _

theorem Literal.spellsLiteral_code (value : Literal) : SpellsLiteral value.code := by
  cases value with
  | text value => exact spellsLiteral_quoted value
  | number value => exact value.spellsLiteral_literalText
  | bool value => cases value <;> exact spellsLiteral_word (by decide) (by decide)
  | null => exact spellsLiteral_word (by decide) (by decide)

end SchemaForge
