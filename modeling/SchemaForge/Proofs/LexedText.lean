import SchemaForge.Proofs.Printing
import SchemaForge.Proofs.WholeNumbers

/-! What the lexer makes of a text that starts with a given piece. Marks, blanks and quoted texts are read
whatever follows them; a word or a number ends where the next character does not go on with it. Positions
play no part here. -/
namespace SchemaForge

/-- The characters of a text are given here, so that they need not be decoded. -/
theorem tokenize_ofList (chars : List Char) :
    tokenize (String.ofList chars) = Lexeme.tokens Position.start (Lexeme.readAll chars) := by
  rw [tokenize, String.toList_ofList]

namespace Lexeme

def kindsOf (chars : List Char) : List TokenKind :=
  (readAll chars).filterMap Lexeme.kind

/-- Places are counted along the way and do not change the kinds. -/
theorem map_kind_tokens (position : Position) (lexemes : List Lexeme) :
    (tokens position lexemes).map Token.kind = lexemes.filterMap Lexeme.kind := by
  induction lexemes generalizing position with
  | nil => rfl
  | cons lexeme rest ih =>
      cases hKind : lexeme.kind with
      | none => simp only [tokens, hKind, ih, List.filterMap_cons]
      | some kind => simp only [tokens, hKind, ih, List.filterMap_cons, List.map_cons]

theorem map_kind_tokenize (source : String) : (tokenize source).map Token.kind = kindsOf source.toList :=
  map_kind_tokens _ _

/-- Characters of the last lexeme are passed over one by one, which amounts to dropping them. -/
theorem readFrom_eq_readAll_drop (taken : Nat) (chars : List Char) :
    readFrom taken chars = readAll (chars.drop taken) := by
  induction chars generalizing taken with
  | nil => simp [readFrom, readAll]
  | cons c rest ih =>
      cases taken with
      | zero => rfl
      | succ taken => exact ih taken

/-- A text whose first lexeme is known goes on after that lexeme. -/
theorem kindsOf_of_read {c : Char} {taken rest : List Char} {kind : Option TokenKind}
    (hRead : read c (taken ++ rest) = ⟨c :: taken, kind⟩) :
    kindsOf (c :: (taken ++ rest)) = kind.toList ++ kindsOf rest := by
  have hAll : readAll (c :: (taken ++ rest)) = ⟨c :: taken, kind⟩ :: readAll rest := by
    rw [readAll, readFrom]
    simp only [hRead, readFrom_eq_readAll_drop, List.length_cons, Nat.add_sub_cancel, List.drop_left]
  cases kind <;> simp [kindsOf, hAll]

theorem kindsOf_nil : kindsOf [] = [] := rfl

theorem kindsOf_blank {c : Char} (hBlank : Text.isBlank c = true) (rest : List Char) :
    kindsOf (c :: rest) = kindsOf rest := by
  have hRead : read c ([] ++ rest) = ⟨[c], none⟩ := by
    rw [read, if_pos hBlank]
  simpa using kindsOf_of_read hRead

theorem kindsOf_blanks {gap : List Char} (hBlank : ∀ c ∈ gap, Text.isBlank c = true) (rest : List Char) :
    kindsOf (gap ++ rest) = kindsOf rest := by
  induction gap with
  | nil => rfl
  | cons c gap ih =>
      rw [List.cons_append, kindsOf_blank (hBlank c List.mem_cons_self)]
      exact ih fun d hMem => hBlank d (List.mem_cons_of_mem _ hMem)

@[simp]
theorem kindsOf_space (rest : List Char) : kindsOf (' ' :: rest) = kindsOf rest :=
  kindsOf_blank (by decide) rest

/-- A mark of one character does not depend on what follows. -/
theorem read_mark {c : Char} {mark : Mark} (hMark : singleMark? c = some mark) (rest : List Char) :
    read c rest = ofMark [c] mark := by
  unfold singleMark? at hMark
  split at hMark
  case h_16 => cases hMark
  all_goals
    cases hMark
    rfl

/-- A mark of one character is read whatever follows. -/
theorem kindsOf_mark {c : Char} {mark : Mark} (hMark : singleMark? c = some mark) (rest : List Char) :
    kindsOf (c :: rest) = .mark mark :: kindsOf rest := by
  have hRead : read c ([] ++ rest) = ⟨[c], some (.mark mark)⟩ := read_mark hMark rest
  simpa using kindsOf_of_read hRead

/-- No character is both a letter and white space. -/
theorem letterRanges_disjoint_blankRanges :
    ∀ letters ∈ Text.letterRanges, ∀ blanks ∈ Text.blankRanges,
      letters.2 < blanks.1 ∨ blanks.2 < letters.1 := by
  decide +kernel

theorem toNat_lt_of_isDigit {c : Char} (hDigit : c.isDigit = true) : c.toNat < 0x80 := by
  have hRange : 48 ≤ c.toNat ∧ c.toNat ≤ 57 := by
    simpa [Char.isDigit, UInt32.le_iff_toNat_le] using hDigit
  omega

/-- Among the first characters the letters, the dollar and the underscore are neither blank nor digits. -/
theorem startsWord_ascii : ∀ n < 0x80, startsWord (Char.ofNat n) = true →
    Text.isBlank (Char.ofNat n) = false ∧ (Char.ofNat n).isDigit = false := by
  decide +kernel

/-- A character that starts a word is neither white space nor a digit. Beyond ASCII this is what the tables
say. -/
theorem isBlank_and_isDigit_of_startsWord {c : Char} (hStart : startsWord c = true) :
    Text.isBlank c = false ∧ c.isDigit = false := by
  by_cases hAscii : c.toNat < 0x80
  · have hTable := startsWord_ascii c.toNat hAscii
    rw [Char.ofNat_toNat] at hTable
    exact hTable hStart
  · have hLetter : Text.letterRanges.contains c = true := by
      have hOther : c ≠ '_' ∧ c ≠ '$' := by
        constructor <;> rintro rfl <;> exact hAscii (by decide)
      simpa [startsWord, Text.isLetter, Text.isAscii, hAscii, hOther] using hStart
    obtain ⟨letters, hLetters, hAbove, hBelow⟩ := (Text.CodeRanges.contains_iff _ _).mp hLetter
    constructor
    · apply Bool.eq_false_iff.mpr
      intro hBlank
      obtain ⟨blanks, hBlanks, hLow, hHigh⟩ := (Text.CodeRanges.contains_iff _ _).mp hBlank
      have hDisjoint := letterRanges_disjoint_blankRanges letters hLetters blanks hBlanks
      omega
    · exact Bool.eq_false_iff.mpr fun hDigit => hAscii (toNat_lt_of_isDigit hDigit)

/-- The text does not go on with a word that stands before it. -/
def stopsWord : List Char → Bool
  | [] => true
  | c :: _ => !continuesWord c

/-- The text does not go on with a word or a number that stands before it. -/
def endsWord : List Char → Bool
  | [] => true
  | c :: _ => !continuesWord c && c != '.'

theorem stopsWord_of_endsWord {rest : List Char} (hEnds : endsWord rest = true) : stopsWord rest = true := by
  cases rest with
  | nil => rfl
  | cons c rest => exact (Bool.and_eq_true_iff.mp hEnds).1

theorem takeWhile_continuesWord {name rest : List Char} (hName : name.all continuesWord = true)
    (hStops : stopsWord rest = true) : (name ++ rest).takeWhile continuesWord = name := by
  have hRest : rest.takeWhile continuesWord = [] := by
    cases rest with
    | nil => rfl
    | cons c rest =>
        have hStop : continuesWord c = false := by simpa [stopsWord] using hStops
        simp [hStop]
  rw [List.takeWhile_append_of_pos (List.all_eq_true.mp hName), hRest, List.append_nil]

theorem read_word {c : Char} {name rest : List Char} (hStart : startsWord c = true)
    (hName : name.all continuesWord = true) (hStops : stopsWord rest = true) :
    read c (name ++ rest) = ⟨c :: name, some (.word (String.ofList (c :: name)))⟩ := by
  obtain ⟨hBlank, hDigit⟩ := isBlank_and_isDigit_of_startsWord hStart
  have hOther : c ≠ '/' ∧ c ≠ '"' ∧ c ≠ '\x27' ∧ c ≠ '\x60' := by
    refine ⟨?_, ?_, ?_, ?_⟩ <;> rintro rfl <;> exact absurd hStart (by decide)
  simp only [read, hBlank, hDigit, hStart, hOther, takeWhile_continuesWord hName hStops, if_true, if_false,
    or_self, Bool.false_eq_true]

/-- A word is one token if what follows does not continue it. -/
theorem kindsOf_word {name : String} {rest : List Char} (hWord : isOneWord name = true)
    (hStops : stopsWord rest = true) :
    kindsOf (name.toList ++ rest) = .word name :: kindsOf rest := by
  cases hChars : name.toList with
  | nil => simp [isOneWord, hChars] at hWord
  | cons c chars =>
      simp only [isOneWord, hChars, Bool.and_eq_true] at hWord
      have hName : String.ofList (c :: chars) = name := by rw [← hChars, String.ofList_toList]
      rw [List.cons_append, kindsOf_of_read (read_word hWord.1 hWord.2 hStops), hName]
      rfl

/-- A character as it is written in quotes is read as that character. -/
theorem quoted_quotedChar (c : Char) (rest : List Char) :
    quoted '"' (quotedChar c ++ rest) =
      (c :: (quoted '"' rest).1, quotedChar c ++ (quoted '"' rest).2) := by
  unfold quotedChar
  split <;> simp_all [quoted, unescape]

/-- The induction is over the characters: each escape is read as what it was written for. -/
theorem quoted_quotedChars (value rest : List Char) :
    quoted '"' (value.flatMap quotedChar ++ '"' :: rest) = (value, value.flatMap quotedChar ++ ['"']) := by
  induction value with
  | nil => simp [quoted]
  | cons c value ih =>
      rw [List.flatMap_cons, List.append_assoc, quoted_quotedChar, ih, List.append_assoc]

/-- A quoted text is read whatever follows. -/
theorem kindsOf_quotedSource (value : String) (rest : List Char) :
    kindsOf ((quotedSource value).toList ++ rest) = .text value :: kindsOf rest := by
  have hRead : read '"' ((value.toList.flatMap quotedChar ++ ['"']) ++ rest) =
      ⟨'"' :: (value.toList.flatMap quotedChar ++ ['"']), some (.text value)⟩ := by
    have hQuoted := quoted_quotedChars value.toList rest
    rw [List.append_assoc, List.singleton_append]
    simp [read, hQuoted, show Text.isBlank '"' = false by decide]
  have hSource : (quotedSource value).toList = '"' :: (value.toList.flatMap quotedChar ++ ['"']) := by
    simp [quotedSource, String.toList_append]
  rw [hSource, List.cons_append, kindsOf_of_read hRead]
  rfl

/-- The blank behind an equals sign keeps it from becoming part of an arrow. -/
theorem kindsOf_equals (rest : List Char) : kindsOf ('=' :: ' ' :: rest) = .mark .equals :: kindsOf rest := by
  have hRead : read '=' ([] ++ ' ' :: rest) = ⟨['='], some (.mark .equals)⟩ := rfl
  simpa using kindsOf_of_read hRead

theorem kindsOf_ellipsis (rest : List Char) :
    kindsOf ('.' :: '.' :: '.' :: rest) = .mark .ellipsis :: kindsOf rest := by
  have hRead : read '.' (['.', '.'] ++ rest) = ⟨['.', '.', '.'], some (.mark .ellipsis)⟩ := rfl
  simpa using kindsOf_of_read hRead

theorem startsWithDigit_of_endsWord {rest : List Char} (hEnds : endsWord rest = true) :
    startsWithDigit rest = false := by
  cases rest with
  | nil => rfl
  | cons c rest =>
      apply Bool.eq_false_iff.mpr
      intro hDigit
      have hAscii : Text.isAscii c = true := decide_eq_true (toNat_lt_of_isDigit hDigit)
      have hDigit : c.isDigit = true := hDigit
      simp [endsWord, continuesWord, Text.isLetterOrNumeral, Text.isNumeral, hAscii, hDigit] at hEnds

/-- A row of digits is taken whole when nothing after it goes on with a number. -/
theorem numeral_digits {digits rest : List Char} (hDigits : digits.all Char.isDigit = true)
    (hEnds : endsWord rest = true) (pointSeen started : Bool) :
    numeral pointSeen started (digits ++ rest) = (digits, digits) := by
  induction digits generalizing started with
  | nil =>
      cases rest with
      | nil => rfl
      | cons c rest =>
          have hDigit : c.isDigit = false := startsWithDigit_of_endsWord hEnds
          have hOther : c ≠ '.' ∧ c ≠ '_' ∧ c ≠ 'e' ∧ c ≠ 'E' := by
            refine ⟨?_, ?_, ?_, ?_⟩ <;> rintro rfl <;> simp [endsWord] at hEnds <;>
              exact absurd hEnds (by decide)
          unfold numeral
          simp [hDigit, hOther]
  | cons c digits ih =>
      rw [List.all_cons, Bool.and_eq_true] at hDigits
      rw [List.cons_append]
      unfold numeral
      simp [hDigits.1, ih hDigits.2]

theorem isBlank_of_isDigit {c : Char} (hDigit : c.isDigit = true) : Text.isBlank c = false := by
  have hTable : ∀ n < 0x80, (Char.ofNat n).isDigit = true → Text.isBlank (Char.ofNat n) = false := by
    decide +kernel
  simpa [Char.ofNat_toNat, hDigit] using hTable c.toNat (toNat_lt_of_isDigit hDigit)

theorem read_digit {c : Char} (hDigit : c.isDigit = true) (rest : List Char) :
    read c rest = ofNumeral (c :: rest) := by
  have hOther : c ≠ '/' ∧ c ≠ '"' ∧ c ≠ '\x27' ∧ c ≠ '\x60' := by
    refine ⟨?_, ?_, ?_, ?_⟩ <;> rintro rfl <;> exact absurd hDigit (by decide)
  simp only [read, isBlank_of_isDigit hDigit, hDigit, hOther, if_true, if_false, or_self,
    Bool.false_eq_true]

/-- A whole number that is written in digits is read back exactly, within the range where all of them can be
represented. -/
theorem kindsOf_toString {n : Nat} {rest : List Char} (hBound : n < 2 ^ 53) (hEnds : endsWord rest = true) :
    kindsOf ((toString n).toList ++ rest) =
      .number (.finite false (n * Binary64.stepsInOne)) :: kindsOf rest := by
  have hChars : (toString n).toList = Nat.toDigits 10 n := by
    rw [Nat.toString_eq_repr, Nat.repr_eq_ofList_toDigits, String.toList_ofList]
  have hNumeral : ofNumeral (Nat.toDigits 10 n ++ rest) =
      ⟨Nat.toDigits 10 n, some (.number (.finite false (n * Binary64.stepsInOne)))⟩ := by
    simp only [ofNumeral, numeral_digits (all_isDigit_toDigits n) hEnds,
      Binary64.ofUnsignedText?_toDigits false hBound]
  have hDigits := all_isDigit_toDigits n
  rw [hChars]
  cases hCons : Nat.toDigits 10 n with
  | nil => exact absurd hCons Nat.toDigits_ne_nil
  | cons c digits =>
      rw [hCons] at hNumeral hDigits
      rw [List.all_cons, Bool.and_eq_true] at hDigits
      have hRead := (read_digit hDigits.1 (digits ++ rest)).trans hNumeral
      rw [List.cons_append, kindsOf_of_read hRead]
      rfl

end Lexeme

end SchemaForge
