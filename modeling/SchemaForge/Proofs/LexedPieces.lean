import SchemaForge.Proofs.LexedText

/-! Lexing is local. A lexeme that ends before a text does is read alike whatever follows that text. So a
text that ends with a blank or a mark of one character is cut into the same lexemes wherever it stands, and
the text after it as if it stood alone. -/
namespace SchemaForge.Lexeme

variable {chars rest : List Char}

/-- The ways in which the lexeme that starts with a character depends on the text behind it. -/
inductive Reads (c : Char) : (List Char → Lexeme) → Prop
  | alone {kind : Option TokenKind} : (∀ word, kind ≠ some (.word word)) → Reads c fun _ => ⟨[c], kind⟩
  | slash : c = '/' → Reads c ofSlash
  | quote : Reads c fun rest => ⟨c :: (quoted c rest).2, some (.text (String.ofList (quoted c rest).1))⟩
  | template : Reads c fun rest => ⟨c :: Lexeme.template rest, some .template⟩
  | digit : c.isDigit = true → Reads c fun rest => ofNumeral (c :: rest)
  | word : startsWord c = true → Reads c fun rest =>
      ⟨c :: rest.takeWhile continuesWord, some (.word (String.ofList (c :: rest.takeWhile continuesWord)))⟩
  | equals : c = '=' → Reads c ofEquals
  | dot : c = '.' → Reads c ofDot

/-- There is one case for each character that the lexer tells apart. -/
theorem reads_read (c : Char) : Reads c (read c) := by
  by_cases hBlank : Text.isBlank c = true
  · have hRead : read c = fun _ => ⟨[c], none⟩ := by
      funext rest
      rw [read, if_pos hBlank]
    exact hRead ▸ .alone (by simp)
  by_cases hSlash : c = '/'
  · have hRead : read c = ofSlash := by
      funext rest
      rw [read, if_neg hBlank, if_pos hSlash]
    exact hRead ▸ .slash hSlash
  by_cases hQuote : c = '"' ∨ c = '\x27'
  · have hRead : read c = fun rest =>
        ⟨c :: (quoted c rest).2, some (.text (String.ofList (quoted c rest).1))⟩ := by
      funext rest
      rw [read, if_neg hBlank, if_neg hSlash, if_pos hQuote]
    exact hRead ▸ .quote
  by_cases hTemplate : c = '\x60'
  · have hRead : read c = fun rest => ⟨c :: Lexeme.template rest, some .template⟩ := by
      funext rest
      rw [read, if_neg hBlank, if_neg hSlash, if_neg hQuote, if_pos hTemplate]
    exact hRead ▸ .template
  by_cases hDigit : c.isDigit = true
  · have hRead : read c = fun rest => ofNumeral (c :: rest) := by
      funext rest
      exact read_digit hDigit rest
    exact hRead ▸ .digit hDigit
  by_cases hWord : startsWord c = true
  · have hRead : read c = fun rest =>
        ⟨c :: rest.takeWhile continuesWord, some (.word (String.ofList (c :: rest.takeWhile continuesWord)))⟩ := by
      funext rest
      rw [read, if_neg hBlank, if_neg hSlash, if_neg hQuote, if_neg hTemplate, if_neg hDigit, if_pos hWord]
    exact hRead ▸ .word hWord
  by_cases hEquals : c = '='
  · subst hEquals
    have hRead : read '=' = ofEquals := rfl
    exact hRead ▸ .equals rfl
  by_cases hDot : c = '.'
  · subst hDot
    have hRead : read '.' = ofDot := rfl
    exact hRead ▸ .dot rfl
  cases hMark : singleMark? c with
  | some mark =>
      have hRead : read c = fun _ => ⟨[c], some (.mark mark)⟩ := by
        funext rest
        exact read_mark hMark rest
      exact hRead ▸ .alone (by simp)
  | none =>
      have hRead : read c = fun _ => ⟨[c], some (.other c)⟩ := by
        funext rest
        rw [read, if_neg hBlank, if_neg hSlash, if_neg hQuote, if_neg hTemplate, if_neg hDigit, if_neg hWord,
          if_neg hEquals, if_neg hDot, hMark]
      exact hRead ▸ .alone (by simp)

/-- Characters of a kind are taken up to the first of another kind; if that is in the text, what follows does not
matter. -/
theorem takeWhile_append_of_length_lt {keep : Char → Bool} (hShort : (chars.takeWhile keep).length < chars.length) :
    (chars ++ rest).takeWhile keep = chars.takeWhile keep := by
  rw [List.takeWhile_append, if_neg hShort.ne]

/-- A comment that is closed in the text ends there. -/
theorem blockComment_append (hShort : (blockComment chars).length < chars.length) :
    blockComment (chars ++ rest) = blockComment chars := by
  fun_induction blockComment chars with
  | case1 => simp at hShort
  | case2 more => rfl
  | case3 c more hOpen ih =>
      rw [List.length_cons, List.length_cons, Nat.add_lt_add_iff_right] at hShort
      cases more with
      | nil => simp at hShort
      | cons next more =>
          have hOther : ∀ after, c = '*' → next :: more ++ rest = '/' :: after → False := by
            intro after hStar hNext
            exact hOpen more hStar (by rw [List.head_eq_of_cons_eq hNext])
          rw [List.cons_append, blockComment.eq_3 _ _ hOther, ih hShort]

theorem template_append (hShort : (template chars).length < chars.length) :
    template (chars ++ rest) = template chars := by
  fun_induction template chars with
  | case1 => simp at hShort
  | case2 c more ih => simpa [template] using ih (by simpa using hShort)
  | case3 more hEscape => cases more <;> simp_all [template]
  | case4 c more hEscape hOpen ih =>
      rw [List.length_cons, List.length_cons, Nat.add_lt_add_iff_right] at hShort
      cases more with
      | nil => simp at hShort
      | cons next more =>
          have hOther : ∀ d after, c = '\\' → next :: more ++ rest = d :: after → False := by
            intro d after hSlash _
            exact hEscape next more hSlash rfl
          rw [List.cons_append, template.eq_3 _ _ hOther, if_neg hOpen, ih hShort]

theorem quoted_append {quote : Char} (hShort : (quoted quote chars).2.length < chars.length) :
    quoted quote (chars ++ rest) = quoted quote chars := by
  fun_induction quoted quote chars with
  | case1 => simp at hShort
  | case2 more => rfl
  | case3 => simp at hShort
  | case4 c more value taken hRead ih =>
      rw [hRead] at ih
      simp [quoted, ih (by simpa using hShort)]
  | case5 more hLine hLast hEscape => cases more <;> simp_all [quoted]
  | case6 c more hLine hLast hEscape hQuote value taken hRead ih =>
      rw [hRead] at ih
      cases more with
      | nil => simp_all [quoted]
      | cons next more => simp_all [quoted]

theorem startsWithDigit_append (hChars : chars ≠ []) : startsWithDigit (chars ++ rest) = startsWithDigit chars := by
  cases chars with
  | nil => exact absurd rfl hChars
  | cons c chars => rfl

/-- A point at the very end of the text could belong to a number that goes on behind it. -/
theorem numeral_append {pointSeen started : Bool}
    (hShort : (numeral pointSeen started chars).2.length < chars.length) (hPoint : ¬ ['.'] <:+ chars) :
    numeral pointSeen started (chars ++ rest) = numeral pointSeen started chars := by
  fun_induction numeral pointSeen started chars with
  | case1 => simp at hShort
  | case2 pointSeen started c more hDigit text taken hRead ih =>
      have hMore := ih (by simpa [hRead] using hShort) fun h => hPoint (h.trans (List.suffix_cons c more))
      rw [List.cons_append, numeral.eq_def]
      simp only [if_pos hDigit, hMore, hRead]
  | case3 pointSeen started c more hDigit hAfter text taken hRead ih =>
      have hMore := ih (by simpa [hRead] using hShort) fun h => hPoint (h.trans (List.suffix_cons c more))
      have hNonempty : more ≠ [] := by
        rintro rfl
        simp [startsWithDigit] at hAfter
      rw [List.cons_append, numeral.eq_def]
      simp only [if_neg hDigit, startsWithDigit_append hNonempty, if_pos hAfter, hMore, hRead]
  | case4 pointSeen started c more hDigit hAfter hLow text taken hRead ih =>
      have hMore := ih (by simpa [hRead] using hShort) fun h => hPoint (h.trans (List.suffix_cons c more))
      obtain rfl : c = '_' := by simpa using hLow
      rw [List.cons_append, numeral.eq_def]
      simp [hMore, hRead]
  | case5 => simp at hShort
  | case6 pointSeen started c hDigit hLow hExponent sign more hSign text taken hRead hAfter ih =>
      have hMore := ih (by simpa [hRead] using hShort) fun h =>
        hPoint ((h.trans (List.suffix_cons sign more)).trans (List.suffix_cons c _))
      have hAfter : ¬ (c == '.' && !pointSeen && startsWithDigit (sign :: (more ++ rest))) = true := hAfter
      rw [List.cons_append, List.cons_append, numeral, if_neg hDigit, if_neg hAfter, if_neg hLow, if_pos hExponent]
      simp [hSign, hMore, hRead]
  | case7 pointSeen started c hDigit hLow hExponent next more hSign text taken hRead hAfter ih =>
      have hMore := ih (by simpa [hRead] using hShort) fun h => hPoint (h.trans (List.suffix_cons c _))
      have hAfter : ¬ (c == '.' && !pointSeen && startsWithDigit (next :: (more ++ rest))) = true := hAfter
      rw [List.cons_append] at hMore
      rw [List.cons_append, List.cons_append, numeral, if_neg hDigit, if_neg hAfter, if_neg hLow, if_pos hExponent]
      simp only [hSign, hMore, hRead, Bool.false_eq_true, if_false]
  | case8 pointSeen started c more hDigit hAfter hLow hExponent =>
      have hAfter : ¬ (c == '.' && !pointSeen && startsWithDigit (more ++ rest)) = true := by
        by_cases hNonempty : more = []
        · subst hNonempty
          have hOther : c ≠ '.' := fun h => hPoint (h ▸ List.suffix_rfl)
          simp [hOther]
        · rwa [startsWithDigit_append hNonempty]
      rw [List.cons_append, numeral.eq_def]
      simp only [if_neg hDigit, if_neg hAfter, if_neg hLow, if_neg hExponent]

theorem chars_ofNumeral (chars : List Char) : (ofNumeral chars).chars = (numeral false false chars).2 := by
  simp only [ofNumeral]
  split <;> rfl

/-- A numeral is a number or a stray character, never a word. -/
theorem kind_ofNumeral_ne_word (chars : List Char) (word : String) : (ofNumeral chars).kind ≠ some (.word word) := by
  simp only [ofNumeral]
  split <;> simp

/-- Only a name is read as a word, and it is read to its end. -/
theorem read_of_kind_word {c : Char} {word : String} (hKind : (read c rest).kind = some (.word word)) :
    startsWord c = true ∧ read c rest =
      ⟨c :: rest.takeWhile continuesWord, some (.word (String.ofList (c :: rest.takeWhile continuesWord)))⟩ := by
  have hReads := reads_read c
  generalize read c = reading at hReads hKind ⊢
  cases hReads with
  | alone hOther => exact absurd hKind (hOther word)
  | slash hSlash =>
      unfold ofSlash at hKind
      split at hKind <;> cases hKind
  | quote => cases hKind
  | template => cases hKind
  | digit hDigit => exact absurd hKind (kind_ofNumeral_ne_word _ _)
  | word hStart => exact ⟨hStart, rfl⟩
  | equals hEquals =>
      unfold ofEquals at hKind
      split at hKind <;> cases hKind
  | dot hDot =>
      unfold ofDot at hKind
      split at hKind
      · cases hKind
      · split_ifs at hKind
        · exact absurd hKind (kind_ofNumeral_ne_word _ _)
        · cases hKind

/-- A point at the end of the text is excluded: whether it belongs to a numeral depends on the character behind it. -/
theorem ofNumeral_append {c : Char} (hShort : (ofNumeral (c :: chars)).chars.length ≤ chars.length)
    (hChars : chars ≠ []) (hPoint : ¬ ['.'] <:+ chars) :
    ofNumeral (c :: (chars ++ rest)) = ofNumeral (c :: chars) := by
  have hPoint : ¬ ['.'] <:+ c :: chars := by
    intro h
    rcases List.suffix_cons_iff.mp h with hAll | hRest
    · exact hChars (List.cons.inj hAll).2.symm
    · exact hPoint hRest
  rw [chars_ofNumeral] at hShort
  unfold ofNumeral
  rw [← List.cons_append, numeral_append (Nat.lt_succ_of_le hShort) hPoint]

/-- A slash starts a comment or stands alone, which the next character decides. -/
theorem ofSlash_append (hShort : (ofSlash chars).chars.length ≤ chars.length) (hChars : chars ≠ []) :
    ofSlash (chars ++ rest) = ofSlash chars := by
  fun_cases ofSlash chars with
  | case1 more =>
      have hLine : (more.takeWhile (· ≠ '\n')).length < more.length := by
        simp only [ofSlash, List.length_cons] at hShort
        omega
      rw [List.cons_append, ofSlash, takeWhile_append_of_length_lt hLine]
  | case2 more =>
      have hBlock : (blockComment more).length < more.length := by
        simp only [ofSlash, List.length_cons] at hShort
        omega
      rw [List.cons_append, ofSlash, blockComment_append hBlock]
  | case3 hLine hBlock =>
      cases chars with
      | nil => exact absurd rfl hChars
      | cons c more => simp_all [ofSlash]

theorem ofEquals_append (hChars : chars ≠ []) : ofEquals (chars ++ rest) = ofEquals chars := by
  fun_cases ofEquals chars with
  | case1 more => rfl
  | case2 hArrow =>
      cases chars with
      | nil => exact absurd rfl hChars
      | cons c more => simp_all [ofEquals]

/-- Dots make an ellipsis, a numeral or stand alone, which is decided within two characters. -/
theorem ofDot_append (hShort : (ofDot chars).chars.length ≤ chars.length) (hChars : chars ≠ [])
    (hPoint : ¬ ['.'] <:+ chars) : ofDot (chars ++ rest) = ofDot chars := by
  have hDots (hOther : ∀ more, chars = '.' :: '.' :: more → False) :
      ∀ more, chars ++ rest = '.' :: '.' :: more → False := by
    intro more hMore
    rcases chars with _ | ⟨c, _ | ⟨d, after⟩⟩
    · exact hChars rfl
    · simp_all
    · simp_all
  fun_cases ofDot chars with
  | case1 more => rfl
  | case2 _ hOther hDigit =>
      rw [ofDot.eq_2 _ hOther, if_pos hDigit] at hShort
      rw [ofDot.eq_2 _ (hDots hOther), startsWithDigit_append hChars, if_pos hDigit,
        ofNumeral_append hShort hChars hPoint]
  | case3 _ hOther hDigit =>
      rw [ofDot.eq_2 _ (hDots hOther), startsWithDigit_append hChars, if_neg hDigit]

/-- A lexeme that ends before the text does is read alike whatever follows the text. -/
theorem read_append {c : Char} (hShort : (read c chars).chars.length ≤ chars.length) (hChars : chars ≠ [])
    (hPoint : ¬ ['.'] <:+ chars) : read c (chars ++ rest) = read c chars := by
  have hReads := reads_read c
  generalize read c = reading at hReads hShort ⊢
  cases hReads with
  | alone hOther => rfl
  | slash hSlash => exact ofSlash_append hShort hChars
  | quote => simp only [quoted_append (Nat.lt_of_succ_le hShort)]
  | template => simp only [template_append (Nat.lt_of_succ_le hShort)]
  | digit hDigit => exact ofNumeral_append hShort hChars hPoint
  | word hStart => simp only [takeWhile_append_of_length_lt (Nat.lt_of_succ_le hShort)]
  | equals hEquals => exact ofEquals_append hChars
  | dot hDot => exact ofDot_append hShort hChars hPoint

/-- The character is a lexeme by itself wherever a lexeme starts with it. -/
def standsAlone (c : Char) : Bool :=
  Text.isBlank c || (singleMark? c).isSome

/-- The last lexeme of a text is one character that stands alone. -/
def endsApart (chars : List Char) : Bool :=
  match (readAll chars).getLast? with
  | some ⟨[c], _⟩ => standsAlone c
  | _ => false

/-- The last character of a source is a lexeme by itself. -/
theorem read_nil (c : Char) : (read c []).chars = [c] := by
  have hReads := reads_read c
  generalize read c = reading at hReads ⊢
  cases hReads with
  | alone hOther => rfl
  | slash hSlash => rw [hSlash]; rfl
  | quote => rfl
  | template => rfl
  | digit hDigit =>
      simp only [ofNumeral, numeral, if_pos hDigit]
      split <;> rfl
  | word hStart => rfl
  | equals hEquals => rw [hEquals]; rfl
  | dot hDot => rw [hDot]; rfl

/-- What follows such a character does not matter. -/
theorem read_of_standsAlone {c : Char} (hAlone : standsAlone c = true) (rest : List Char) :
    read c rest = read c [] := by
  rcases Bool.or_eq_true_iff.mp hAlone with hBlank | hMark
  · simp only [read, if_pos hBlank]
  · obtain ⟨mark, hMark⟩ := Option.isSome_iff_exists.mp hMark
    rw [read_mark hMark, read_mark hMark]

/-- The recursion of the lexer in steps of a lexeme: one is read, and then what is behind it. -/
theorem readAll_cons (c : Char) (chars : List Char) :
    readAll (c :: chars) = read c chars :: readAll (chars.drop ((read c chars).chars.length - 1)) := by
  rw [readAll, readFrom, readFrom_eq_readAll_drop]

theorem readAll_ne_nil (hChars : chars ≠ []) : readAll chars ≠ [] := by
  obtain ⟨c, more, rfl⟩ := List.exists_cons_of_ne_nil hChars
  rw [readAll_cons]
  exact List.cons_ne_nil _ _

/-- A text that ends apart is one character that stands alone, or it goes on behind its first lexeme with a
text that ends apart. -/
theorem endsApart_cons {c : Char} (hApart : endsApart (c :: chars) = true) :
    (chars = [] ∧ standsAlone c = true) ∨
      endsApart (chars.drop ((read c chars).chars.length - 1)) = true := by
  by_cases hLast : chars.drop ((read c chars).chars.length - 1) = []
  · left
    rw [endsApart, readAll_cons, hLast] at hApart
    cases hRead : read c chars with
    | mk taken kind =>
        rcases taken with _ | ⟨d, _ | ⟨e, more⟩⟩
        · simp [hRead, readAll, readFrom] at hApart
        · have hNil : chars = [] := by simpa [hRead] using hLast
          have hFirst := read_nil c
          rw [hNil] at hRead
          rw [hRead] at hFirst
          obtain rfl : d = c := (List.cons.inj hFirst).1
          exact ⟨hNil, by simpa [hNil, hRead, readAll, readFrom] using hApart⟩
        · simp [hRead, readAll, readFrom] at hApart
  · right
    obtain ⟨lexeme, hLexeme⟩ := Option.isSome_iff_exists.mp
      (List.getLast?_isSome.mpr (readAll_ne_nil hLast))
    rw [endsApart, readAll_cons, List.getLast?_cons, hLexeme] at hApart
    rw [endsApart, hLexeme]
    exact hApart

theorem exists_suffix_of_endsApart (hApart : endsApart chars = true) :
    ∃ c, standsAlone c = true ∧ [c] <:+ chars := by
  induction hLength : chars.length using Nat.strong_induction_on generalizing chars with
  | _ length ih =>
      cases chars with
      | nil => cases hApart
      | cons c chars =>
          rcases endsApart_cons hApart with ⟨rfl, hAlone⟩ | hRest
          · exact ⟨c, hAlone, List.suffix_rfl⟩
          · have hSuffix := List.drop_suffix ((read c chars).chars.length - 1) chars
            obtain ⟨d, hAlone, hLast⟩ := ih _ (hLength ▸ Nat.lt_succ_of_le hSuffix.length_le) hRest rfl
            exact ⟨d, hAlone, (hLast.trans hSuffix).trans (List.suffix_cons c chars)⟩

/-- A text that ends apart is cut into the same lexemes wherever it stands, and so is the text after it. -/
theorem readAll_append (hApart : endsApart chars = true) (rest : List Char) :
    readAll (chars ++ rest) = readAll chars ++ readAll rest := by
  induction hLength : chars.length using Nat.strong_induction_on generalizing chars with
  | _ length ih =>
      cases chars with
      | nil => cases hApart
      | cons c chars =>
          rcases endsApart_cons hApart with ⟨rfl, hAlone⟩ | hRest
          · rw [List.singleton_append, readAll_cons, readAll_cons, read_of_standsAlone hAlone, read_nil]
            rfl
          · have hSuffix := List.drop_suffix ((read c chars).chars.length - 1) chars
            obtain ⟨d, hAlone, hLast⟩ := exists_suffix_of_endsApart hRest
            have hShort : (read c chars).chars.length - 1 < chars.length := by
              by_contra hLong
              rw [List.drop_eq_nil_of_le (Nat.le_of_not_lt hLong)] at hRest
              cases hRest
            have hChars : chars ≠ [] := List.ne_nil_of_length_pos (Nat.zero_lt_of_lt hShort)
            have hPoint : ¬ ['.'] <:+ chars := by
              intro hPoint
              have hSame : [d] = ['.'] :=
                (List.suffix_of_suffix_length_le (hLast.trans hSuffix) hPoint le_rfl).eq_of_length rfl
              rw [(List.cons.inj hSame).1] at hAlone
              exact absurd hAlone (by decide)
            have hRead : read c (chars ++ rest) = read c chars :=
              read_append (by omega) hChars hPoint
            have hMore := ih _ (hLength ▸ Nat.lt_succ_of_le hSuffix.length_le) hRest rfl
            rw [List.cons_append, readAll_cons, readAll_cons, hRead,
              List.drop_append_of_le_length (Nat.le_of_lt hShort), hMore, List.cons_append]

/-- The text is cut into these tokens whatever follows it. -/
def Cuts (text : String) (kinds : List TokenKind) : Prop :=
  ∀ rest, kindsOf (text.toList ++ rest) = kinds ++ kindsOf rest

/-- The text is cut into the same tokens whatever follows it. -/
def Apart (text : String) : Prop :=
  Cuts text (kindsOf text.toList)

/-- The text is cut into the same tokens whatever follows it and does not go on with a word. -/
def WordApart (text : String) : Prop :=
  ∀ rest, stopsWord rest = true → kindsOf (text.toList ++ rest) = kindsOf text.toList ++ kindsOf rest

section Pieces

variable {first second text word : String} {kinds firstKinds secondKinds : List TokenKind}

theorem Cuts.kindsOf_eq (hCuts : Cuts text kinds) : kindsOf text.toList = kinds := by
  have hAlone := hCuts []
  rwa [List.append_nil, kindsOf_nil, List.append_nil] at hAlone

theorem Cuts.apart (hCuts : Cuts text kinds) : Apart text := by
  rw [Apart, hCuts.kindsOf_eq]
  exact hCuts

theorem cuts_empty : Cuts "" [] :=
  fun _ => rfl

/-- Texts that are cut whatever follows them are cut one after the other. -/
theorem Cuts.append (hFirst : Cuts first firstKinds) (hSecond : Cuts second secondKinds) :
    Cuts (first ++ second) (firstKinds ++ secondKinds) := by
  intro rest
  rw [String.toList_append, List.append_assoc, hFirst, hSecond, List.append_assoc]

/-- Fixed texts are given by their characters, so that they need not be decoded. -/
theorem cuts_ofList (hEnds : endsApart chars = true := by decide) (hKinds : kindsOf chars = kinds := by rfl) :
    Cuts (String.ofList chars) kinds := by
  intro rest
  rw [String.toList_ofList, ← hKinds, kindsOf, readAll_append hEnds, List.filterMap_append]
  rfl

theorem apart_ofList (hEnds : endsApart chars = true := by decide) : Apart (String.ofList chars) :=
  (cuts_ofList hEnds rfl).apart

theorem Apart.append (hFirst : Apart first) (hSecond : Apart second) : Apart (first ++ second) :=
  (Cuts.append hFirst hSecond).apart

theorem Apart.wordApart (hApart : Apart text) : WordApart text :=
  fun rest _ => hApart rest

/-- The tokens of a text that ends apart come first. -/
theorem Apart.kindsOf_append (hFirst : Apart first) (second : String) :
    kindsOf (first ++ second).toList = kindsOf first.toList ++ kindsOf second.toList := by
  rw [String.toList_append, hFirst]

/-- Only the end of the second text meets what follows. -/
theorem Apart.append_wordApart (hFirst : Apart first) (hSecond : WordApart second) :
    WordApart (first ++ second) := by
  intro rest hRest
  rw [hFirst.kindsOf_append, String.toList_append, List.append_assoc, hFirst, hSecond rest hRest,
    List.append_assoc]

/-- A text that does not go on with a word separates the word before it from all that follows. -/
theorem WordApart.append_cuts (hFirst : WordApart first) (hSecond : Cuts second kinds)
    (hStops : stopsWord second.toList = true) (hNonempty : second.toList ≠ []) :
    Cuts (first ++ second) (kindsOf first.toList ++ kinds) := by
  intro rest
  have hBehind : stopsWord (second.toList ++ rest) = true := by
    obtain ⟨c, chars, hChars⟩ := List.exists_cons_of_ne_nil hNonempty
    rw [hChars] at hStops ⊢
    exact hStops
  rw [String.toList_append, List.append_assoc, hFirst _ hBehind, hSecond, List.append_assoc]

/-- A text may end with a word if what follows is known not to continue it. -/
theorem WordApart.append_ofList (hFirst : WordApart first) (hEnds : endsApart chars = true := by decide)
    (hStops : stopsWord chars = true := by rfl) (hKinds : kindsOf chars = kinds := by rfl) :
    Cuts (first ++ String.ofList chars) (kindsOf first.toList ++ kinds) := by
  apply hFirst.append_cuts (cuts_ofList hEnds hKinds)
  · rwa [String.toList_ofList]
  · rw [String.toList_ofList]
    rintro rfl
    cases hEnds

theorem kindsOf_isOneWord (hWord : isOneWord word = true) : kindsOf word.toList = [.word word] := by
  have hAlone := kindsOf_word hWord (show stopsWord [] = true from rfl)
  rwa [List.append_nil, kindsOf_nil] at hAlone

/-- A word is one token if what follows does not continue it. -/
theorem wordApart_of_isOneWord (hWord : isOneWord word = true) : WordApart word := by
  intro rest hStops
  rw [kindsOf_word hWord hStops, kindsOf_isOneWord hWord, List.singleton_append]

end Pieces

end SchemaForge.Lexeme
