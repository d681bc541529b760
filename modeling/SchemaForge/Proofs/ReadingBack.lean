import SchemaForge.Json.Reader
import SchemaForge.Proofs.EmittedCode

/-! Reading generated text back. Two texts, with something behind each of them, can be the same only if they were
written from the same value: this is shown piece by piece, from the front to the end. What may stand behind a piece
matters, since a word or a number ends only where it cannot go on. A text between quotes ends by itself. -/
namespace SchemaForge

open Lexeme

/-- If two texts are the same with something behind each of them, then the values they were written from are `alike`,
and what stands behind them is the same too. Only what is allowed to follow is looked at. -/
def ReadsBack (follows : List Char → Prop) (text text' : String) (alike : Prop) : Prop :=
  ∀ rest rest', follows rest → follows rest' → text.toList ++ rest = text'.toList ++ rest' → alike ∧ rest = rest'

def Anything : List Char → Prop :=
  fun _ => True

/-- The first character, if there is one, is of another kind. -/
def Stops (kind : Char → Bool) (rest : List Char) : Prop :=
  ∀ c ∈ rest.head?, kind c = false

def StartsWith (c : Char) (rest : List Char) : Prop :=
  rest.head? = some c

namespace ReadsBack

variable {follows further : List Char → Prop} {text text' next next' : String} {alike alike' : Prop}

theorem mono (hText : ReadsBack follows text text' alike) (hFollows : ∀ rest, further rest → follows rest)
    (hAlike : alike → alike') : ReadsBack further text text' alike' := by
  intro rest rest' hRest hRest' hSame
  obtain ⟨hFound, hBehind⟩ := hText rest rest' (hFollows rest hRest) (hFollows rest' hRest') hSame
  exact ⟨hAlike hFound, hBehind⟩

theorem symm (hText : ReadsBack follows text text' alike) (hAlike : alike → alike') :
    ReadsBack follows text' text alike' := by
  intro rest rest' hRest hRest' hSame
  obtain ⟨hFound, hBehind⟩ := hText rest' rest hRest' hRest hSame.symm
  exact ⟨hAlike hFound, hBehind.symm⟩

/-- A text that is the same in both cases is taken off the front of both. -/
theorem same (text : String) (hAlike : alike) : ReadsBack follows text text alike :=
  fun _ _ _ _ hSame => ⟨hAlike, List.append_cancel_left hSame⟩

/-- Texts that differ in their first characters are told apart whatever follows. -/
theorem of_take_ne (count : Nat) (hLong : count ≤ text.toList.length) (hLong' : count ≤ text'.toList.length)
    (hOther : text.toList.take count ≠ text'.toList.take count) : ReadsBack follows text text' alike := by
  intro rest rest' _ _ hSame
  have hTake := congrArg (List.take count) hSame
  rw [List.take_append_of_le_length hLong, List.take_append_of_le_length hLong'] at hTake
  exact absurd hTake hOther

/-- Texts that start with different characters are never the same, so any conclusion is right. -/
theorem of_head_ne {c c' : Char} (hText : text.toList.head? = some c) (hText' : text'.toList.head? = some c')
    (hOther : c ≠ c') : ReadsBack follows text text' alike := by
  intro rest rest' _ _ hSame
  have hHead := congrArg List.head? hSame
  rw [List.head?_append, List.head?_append, hText, hText'] at hHead
  exact absurd (Option.some.inj hHead) hOther

/-- Nothing is told apart from a text whose beginning may not follow. -/
theorem of_front (front : List Char) (hFront : front <+: text.toList)
    (hFollows : ∀ rest, follows rest → ¬ front <+: rest) : ReadsBack follows "" text alike := by
  intro rest rest' hRest _ hSame
  have hWhole : rest = text.toList ++ rest' := hSame
  exact absurd (hWhole ▸ hFront.trans (List.prefix_append _ _)) (hFollows rest hRest)

/-- One piece after the other. -/
theorem append (hText : ReadsBack follows text text' alike) (hNext : alike → ReadsBack further next next' alike')
    (hBehind : ∀ rest, further rest → follows (next.toList ++ rest))
    (hBehind' : ∀ rest, further rest → follows (next'.toList ++ rest)) :
    ReadsBack further (text ++ next) (text' ++ next') alike' := by
  intro rest rest' hRest hRest' hSame
  rw [String.toList_append, String.toList_append, List.append_assoc, List.append_assoc] at hSame
  obtain ⟨hFound, hRead⟩ := hText _ _ (hBehind rest hRest) (hBehind' rest' hRest') hSame
  exact hNext hFound rest rest' hRest hRest' hRead

/-- The same text before both. -/
theorem after (hNext : ReadsBack further next next' alike) (opening : String) :
    ReadsBack further (opening ++ next) (opening ++ next') alike :=
  (same opening trivial : ReadsBack Anything opening opening True).append (fun _ => hNext) (fun _ _ => trivial)
    (fun _ _ => trivial)

/-- The same text behind both. It has to end what stands before it. -/
theorem before (hText : ReadsBack follows text text' alike) {closing : List Char}
    (hClosing : ∀ rest, follows (closing ++ rest)) :
    ReadsBack further (text ++ String.ofList closing) (text' ++ String.ofList closing) alike := by
  have hBehind (rest : List Char) : follows ((String.ofList closing).toList ++ rest) := by
    rw [String.toList_ofList]
    exact hClosing rest
  exact hText.append (fun hFound => same _ hFound) (fun rest _ => hBehind rest) (fun rest _ => hBehind rest)

/-- The same texts around both. -/
theorem enclose (hText : ReadsBack follows text text' alike) (opening : String) {closing : List Char}
    (hClosing : ∀ rest, follows (closing ++ rest)) :
    ReadsBack further (opening ++ text ++ String.ofList closing) (opening ++ text' ++ String.ofList closing) alike :=
  (hText.after opening).before hClosing

end ReadsBack

def Begins (front : List Char) (text : String) : Prop :=
  front <+: text.toList

theorem Begins.append {front : List Char} {text : String} (hFront : Begins front text) (next : String) :
    Begins front (text ++ next) := by
  rw [Begins, String.toList_append]
  exact hFront.trans (List.prefix_append _ _)

theorem begins_ofList {front chars : List Char} (hFront : front <+: chars) :
    Begins front (String.ofList chars) := by
  rw [Begins, String.toList_ofList]
  exact hFront

/-- Texts that begin differently, over the same length, are told apart there. -/
theorem Begins.readsBack {follows : List Char → Prop} {alike : Prop} {front front' : List Char} {text text' : String}
    (hText : Begins front text) (hText' : Begins front' text') (hLength : front.length = front'.length)
    (hOther : front ≠ front') : ReadsBack follows text text' alike := by
  obtain ⟨behind, hChars⟩ := hText
  obtain ⟨behind', hChars'⟩ := hText'
  refine .of_take_ne front.length (by rw [← hChars]; simp) (by rw [← hChars', hLength]; simp) fun hTake => hOther ?_
  rw [← hChars, ← hChars', List.take_left, hLength, List.take_left] at hTake
  exact hTake

/-- A row of characters of one kind ends where another kind follows. -/
theorem readsBack_of_all {kind : Char → Bool} {text text' : String} (hText : text.toList.all kind = true)
    (hText' : text'.toList.all kind = true) : ReadsBack (Stops kind) text text' (text = text') := by
  have hTake {text : String} (hText : text.toList.all kind = true) {rest : List Char} (hRest : Stops kind rest) :
      (text.toList ++ rest).takeWhile kind = text.toList := by
    have hNone : rest.takeWhile kind = [] := by
      cases rest with
      | nil => rfl
      | cons c rest => rw [List.takeWhile_cons, hRest c rfl, if_neg Bool.false_ne_true]
    rw [List.takeWhile_append_of_pos (List.all_eq_true.mp hText), hNone, List.append_nil]
  intro rest rest' hRest hRest' hSame
  have hChars : text.toList = text'.toList := by
    rw [← hTake hText hRest, hSame, hTake hText' hRest']
  rw [hChars] at hSame
  exact ⟨String.toList_inj.mp hChars, List.append_cancel_left hSame⟩

section Quoted

theorem hexUnit?_hexDigit : ∀ value < 0x20,
    Json.hexUnit? '0' '0' (Text.hexDigit (value / 16)) (Text.hexDigit (value % 16)) = some value := by
  decide

theorem readText_short {escape c : Char} (hShort : Json.shortEscape? escape = some c) (hOther : escape ≠ 'u')
    (rest : List Char) :
    Json.readText ('\\' :: escape :: rest) = (Json.readText rest).map fun read => (c :: read.1, read.2) := by
  rw [Json.readText, hShort]
  · cases Json.readText rest <;> rfl
  · exact fun _ _ _ _ _ _ _ _ _ hCode => absurd hCode hOther
  · exact fun _ _ _ _ _ hCode => absurd hCode hOther

/-- A code that is no surrogate stands for itself, also if another code follows. -/
theorem readText_code {a b c d : Char} {code : Nat} (hCode : Json.hexUnit? a b c d = some code) (hLow : code < 0xD800)
    (rest : List Char) :
    Json.readText ('\\' :: 'u' :: a :: b :: c :: d :: rest) =
      (Json.readText rest).map fun read => (Char.ofNat code :: read.1, read.2) := by
  by_cases hPair : ∃ e f g h behind, rest = '\\' :: 'u' :: e :: f :: g :: h :: behind
  · obtain ⟨e, f, g, h, behind, rfl⟩ := hPair
    rw [Json.readText.eq_3, hCode, Option.bind_eq_bind, Option.bind_some, if_neg (by omega), if_neg (by omega)]
    cases Json.readText ('\\' :: 'u' :: e :: f :: g :: h :: behind) <;> rfl
  · rw [Json.readText.eq_4, hCode, Option.bind_eq_bind, Option.bind_some, if_neg (by omega)]
    · cases Json.readText rest <;> rfl
    · exact fun e f g h behind hRest => hPair ⟨e, f, g, h, behind, hRest⟩

/-- The reader of documents takes back an escaped character, whatever stands behind it. -/
theorem readText_escapeChar (c : Char) (rest : List Char) :
    Json.readText (Text.escapeChar c ++ rest) = (Json.readText rest).map fun read => (c :: read.1, read.2) := by
  unfold Text.escapeChar
  split_ifs with hQuote hSlash hFeed hReturn hTab hBack hForm hControl
  · exact readText_short (by rw [hQuote]; rfl) (by decide) rest
  · exact readText_short (by rw [hSlash]; rfl) (by decide) rest
  · exact readText_short (hFeed ▸ rfl) (by decide) rest
  · exact readText_short (hReturn ▸ rfl) (by decide) rest
  · exact readText_short (hTab ▸ rfl) (by decide) rest
  · exact readText_short (hBack ▸ rfl) (by decide) rest
  · exact readText_short (hForm ▸ rfl) (by decide) rest
  · have hRead := readText_code (hexUnit?_hexDigit c.toNat hControl) (by omega) rest
    rwa [Char.ofNat_toNat] at hRead
  · rw [List.singleton_append, Json.readText, if_neg (by simp [hSlash, hControl])]
    · cases Json.readText rest <;> rfl
    · exact hQuote
    · simp [hSlash]
    · simp [hSlash]
    · simp [hSlash]

/-- The induction is over the characters: what escaping writes is what reading an escape takes. -/
theorem readText_escaped (chars rest : List Char) :
    Json.readText (chars.flatMap Text.escapeChar ++ '"' :: rest) = some (chars, rest) := by
  induction chars with
  | nil => rw [List.flatMap_nil, List.nil_append, Json.readText]
  | cons c chars ih =>
      rw [List.flatMap_cons, List.append_assoc, readText_escapeChar, ih]
      rfl

/-- A quoted text is ended by its quote, so anything may follow it. -/
theorem readsBack_quoted (text text' : String) :
    ReadsBack Anything (Text.quoted text) (Text.quoted text') (text = text') := by
  intro rest rest' _ _ hSame
  simp only [Text.quoted, String.toList_ofList, List.cons_append, List.append_assoc, List.nil_append,
    List.cons.injEq, true_and] at hSame
  have hRead := congrArg Json.readText hSame
  rw [readText_escaped, readText_escaped] at hRead
  simp only [Option.some.injEq, Prod.mk.injEq] at hRead
  exact ⟨String.toList_inj.mp hRead.1, hRead.2⟩

/-- A list in brackets and a message, with fixed texts around them. -/
theorem readsBack_listAndMessage {follows : List Char → Prop} {alike : Prop} {list list' : String}
    (hList : ReadsBack (StartsWith ']') list list' alike) (message message' opening : String)
    {middle closing : List Char}
    (hMiddle : ∀ rest, StartsWith ']' (middle ++ rest)) :
    ReadsBack follows (opening ++ list ++ String.ofList middle ++ Text.quoted message ++ String.ofList closing)
      (opening ++ list' ++ String.ofList middle ++ Text.quoted message' ++ String.ofList closing)
      (alike ∧ message = message') := by
  have hFirst : ReadsBack Anything (opening ++ list ++ String.ofList middle) (opening ++ list' ++ String.ofList middle)
      alike := hList.enclose opening hMiddle
  have hMessage (hAlike : alike) :
      ReadsBack Anything (Text.quoted message) (Text.quoted message') (alike ∧ message = message') :=
    (readsBack_quoted message message').mono (fun _ hRest => hRest) fun hSame => ⟨hAlike, hSame⟩
  exact (hFirst.append hMessage (fun _ _ => trivial) fun _ _ => trivial).before fun _ => trivial

end Quoted

section Words

/-- A word ends where a character follows that cannot continue it. -/
theorem readsBack_word {name name' : String} (hWord : isWord name = true) (hWord' : isWord name' = true) :
    ReadsBack (Stops continuesWord) name name' (name = name') :=
  readsBack_of_all (all_continuesWord_of_isWord hWord) (all_continuesWord_of_isWord hWord')

/-- The name of a constant has the same ending for all names, which is taken off at the back. -/
theorem readsBack_constantName {name name' : String} (hWord : isWord name = true) (hWord' : isWord name' = true) :
    ReadsBack (Stops continuesWord) (constantName name) (constantName name') (name = name') :=
  (readsBack_word (isWord_constantName hWord) (isWord_constantName hWord')).mono (fun _ hRest => hRest)
    fun hSame => constantName_injective hSame

theorem stops_of_startsWith {kind : Char → Bool} {c : Char} (hOther : kind c = false) {rest : List Char}
    (hRest : StartsWith c rest) : Stops kind rest := by
  rintro _ hHead
  rw [hRest] at hHead
  cases hHead
  exact hOther

/-- A text that starts with a character of another kind ends what stands before it. -/
theorem Begins.stops {kind : Char → Bool} {c : Char} {text : String} (hText : Begins [c] text) (hOther : kind c = false)
    (rest : List Char) : Stops kind (text.toList ++ rest) := by
  obtain ⟨behind, hChars⟩ := hText
  rw [← hChars]
  exact stops_of_startsWith hOther rfl

theorem not_prefix_of_startsWith {c first : Char} {front rest : List Char} (hOther : first ≠ c)
    (hRest : StartsWith c rest) : ¬ first :: front <+: rest := by
  rintro ⟨behind, rfl⟩
  exact hOther (Option.some.inj hRest)

/-- A word is not empty and starts as words do, so it is told apart from quoted text. -/
theorem exists_head_of_isWord {name : String} (hWord : isWord name = true) :
    ∃ c, name.toList.head? = some c ∧ startsWord c = true := by
  unfold isWord at hWord
  cases hChars : name.toList with
  | nil => simp [hChars] at hWord
  | cons c chars =>
      rw [hChars] at hWord
      exact ⟨c, rfl, (Bool.and_eq_true_iff.mp hWord).1⟩

theorem head?_quoted (text : String) : (Text.quoted text).toList.head? = some '"' := by
  rw [Text.quoted, String.toList_ofList, List.head?_cons]

/-- A key is a word or stands between quotes, which no word starts with. -/
theorem readsBack_fieldKey (name name' : String) :
    ReadsBack (StartsWith ':') (fieldKey name) (fieldKey name') (name = name') := by
  have hHead {word : String} (hWord : isWord word = true) : ∃ c, word.toList.head? = some c ∧ c ≠ '"' := by
    obtain ⟨c, hFirst, hStart⟩ := exists_head_of_isWord hWord
    refine ⟨c, hFirst, ?_⟩
    rintro rfl
    exact absurd hStart (by decide)
  unfold fieldKey
  split_ifs with hWord hWord' hWord'
  · exact (readsBack_word hWord hWord').mono (fun _ => stops_of_startsWith (by decide)) id
  · obtain ⟨c, hFirst, hOther⟩ := hHead hWord
    exact .of_head_ne hFirst (head?_quoted name') hOther
  · obtain ⟨c, hFirst, hOther⟩ := hHead hWord'
    exact .of_head_ne (head?_quoted name) hFirst hOther.symm
  · exact (readsBack_quoted name name').mono (fun _ _ => trivial) id

end Words

section Literals

def isNumberChar (c : Char) : Bool :=
  c.isDigit || decide (c ∈ ['-', '.', 'N', 'a', 'i', 'n', 'f'])

theorem all_isNumberChar_of_isDigit {digits : List Char} (hDigits : digits.all Char.isDigit = true) :
    digits.all isNumberChar = true := by
  simp only [List.all_eq_true, isNumberChar, Bool.or_eq_true] at hDigits ⊢
  exact fun c hMem => Or.inl (hDigits c hMem)

theorem Decimal.all_isNumberChar_positional (d : Decimal) : d.positional.toList.all isNumberChar = true := by
  have hDigits : d.digits.all isNumberChar = true := all_isNumberChar_of_isDigit (all_isDigit_toDigits d.significand)
  have hSome {part : List Char} (hPart : part ⊆ d.digits) : part.all isNumberChar = true :=
    List.all_eq_true.mpr fun c hMem => List.all_eq_true.mp hDigits c (hPart hMem)
  have hZeros (count : Nat) : (List.replicate count '0').all isNumberChar = true := by
    simp [show isNumberChar '0' = true by decide]
  have hPoint : isNumberChar '.' = true ∧ isNumberChar '0' = true := by decide
  unfold Decimal.positional
  simp only
  split_ifs with hWhole hBefore
  · rw [String.toList_ofList, List.all_append, hDigits, hZeros]
    rfl
  · rw [String.toList_ofList, List.all_append, List.all_cons, hSome (List.take_subset _ _),
      hSome (List.drop_subset _ _), hPoint.1]
    rfl
  · rw [String.toList_ofList, List.all_cons, List.all_cons, List.all_append, hDigits, hZeros, hPoint.1, hPoint.2]
    rfl

theorem all_isNumberChar_signText (negative : Bool) (text : String) :
    (Binary64.signText negative ++ text).toList.all isNumberChar = text.toList.all isNumberChar := by
  cases negative <;> simp [Binary64.signText, isNumberChar]

theorem all_isNumberChar_toString_nat (n : Nat) : (toString n).toList.all isNumberChar = true := by
  rw [Nat.toString_eq_repr, Nat.repr_eq_ofList_toDigits, String.toList_ofList]
  exact all_isNumberChar_of_isDigit (all_isDigit_toDigits n)

/-- A whole number is written with digits and perhaps a sign. -/
theorem all_isNumberChar_toString_int (n : Int) : (toString n).toList.all isNumberChar = true := by
  cases n with
  | ofNat n => exact all_isNumberChar_toString_nat n
  | negSucc n =>
      exact (all_isNumberChar_signText true (toString (n + 1))).trans (all_isNumberChar_toString_nat (n + 1))

namespace Binary64

theorem all_isNumberChar_positional (x : Binary64) : x.positional.toList.all isNumberChar = true := by
  cases x with
  | nan => decide
  | infinite negative => cases negative <;> decide
  | finite negative steps =>
      rw [positional, all_isNumberChar_signText]
      split
      · decide
      · exact Decimal.all_isNumberChar_positional _

/-- Numbers are written without brackets, quotes and commas, in whichever layout. -/
theorem all_isNumberChar_literalText (x : Binary64) : x.literalText.toList.all isNumberChar = true := by
  unfold literalText
  split
  · split
    · exact all_isNumberChar_toString_int _
    · exact all_isNumberChar_positional _
  · exact all_isNumberChar_positional _

end Binary64

namespace Literal

/-- What is written without quotes has no quotes and no brackets in it. -/
def isBare : Literal → Bool
  | .text _ => false
  | _ => true

theorem exists_text_of_isBare {literal : Literal} (hBare : literal.isBare = false) : ∃ text, literal = .text text := by
  cases literal with
  | text value => exact ⟨value, rfl⟩
  | _ => cases hBare

/-- No quote and no closing parenthesis occurs in what is written without quotes. -/
theorem ne_of_mem_code {literal : Literal} (hBare : literal.isBare = true) :
    ∀ c ∈ literal.code.toList, c ≠ ')' ∧ c ≠ '"' := by
  cases literal with
  | text value => cases hBare
  | number value =>
      intro c hMem
      have hNumber := List.all_eq_true.mp value.all_isNumberChar_literalText c hMem
      constructor <;> rintro rfl <;> exact absurd hNumber (by decide)
  | bool value => cases value <;> simp [code, plain]
  | null => simp [code, plain]

/-- Numbers are written with other characters than the names of the other values. -/
theorem eq_of_code_eq {first second : Literal} (hFirst : first.isBare = true) (hSecond : second.isBare = true)
    (hNumbers : ∀ x y, first = .number x → second = .number y → x.literalText = y.literalText → x = y)
    (hSame : first.code = second.code) : first = second := by
  have hName {x : Binary64} {name : String} (hName : name.toList.all isNumberChar = false) :
      x.literalText ≠ name := by
    rintro rfl
    rw [x.all_isNumberChar_literalText] at hName
    cases hName
  cases first with
  | text value => cases hFirst
  | number x =>
      cases second with
      | text value => cases hSecond
      | number y => rw [hNumbers x y rfl rfl hSame]
      | bool value => cases value <;> exact absurd hSame (hName (by decide))
      | null => exact absurd hSame (hName (by decide))
  | bool value =>
      cases second with
      | text value => cases hSecond
      | number y => cases value <;> exact absurd hSame.symm (hName (by decide))
      | bool value' => cases value <;> cases value' <;> first | rfl | exact absurd hSame (by decide)
      | null => cases value <;> exact absurd hSame (by decide)
  | null =>
      cases second with
      | text value => cases hSecond
      | number y => exact absurd hSame.symm (hName (by decide))
      | bool value => cases value <;> exact absurd hSame (by decide)
      | null => rfl

/-- A quoted text is told apart from what is written without quotes by its first character. -/
theorem readsBack_quoted_bare (text : String) {literal : Literal} (hBare : literal.isBare = true) {alike : Prop} :
    ReadsBack (StartsWith ')') (Text.quoted text) literal.code alike := by
  intro rest rest' _ hRest' hSame
  have hHead := congrArg List.head? hSame
  rw [List.head?_append, head?_quoted, Option.some_or, List.head?_append, hRest'] at hHead
  cases hCode : literal.code.toList with
  | nil =>
      rw [hCode] at hHead
      exact absurd hHead (by decide)
  | cons c chars =>
      have hChar := ne_of_mem_code hBare c (by rw [hCode]; exact List.mem_cons_self)
      rw [hCode, List.head?_cons, Option.some_or] at hHead
      exact absurd (Option.some.inj hHead).symm hChar.2

/-- Both are followed by a parenthesis and hold none, so they end together; only numbers can be written alike. -/
theorem readsBack_bare {first second : Literal} (hFirst : first.isBare = true) (hSecond : second.isBare = true)
    (hNumbers : ∀ x y, first = .number x → second = .number y → x.literalText = y.literalText → x = y) :
    ReadsBack (StartsWith ')') first.code second.code (first = second) := by
  have hInside {literal : Literal} (hBare : literal.isBare = true) :
      (literal.code.toList.all fun c => decide (c ≠ ')')) = true :=
    List.all_eq_true.mpr fun c hMem => decide_eq_true (ne_of_mem_code hBare c hMem).1
  exact (readsBack_of_all (hInside hFirst) (hInside hSecond)).mono (fun _ => stops_of_startsWith (by decide))
    (eq_of_code_eq hFirst hSecond hNumbers)

/-- The values of literals are told apart as far as their numbers are. -/
theorem readsBack_code {first second : Literal}
    (hNumbers : ∀ x y, first = .number x → second = .number y → x.literalText = y.literalText → x = y) :
    ReadsBack (StartsWith ')') first.code second.code (first = second) := by
  cases hFirst : first.isBare with
  | true =>
      cases hSecond : second.isBare with
      | true => exact readsBack_bare hFirst hSecond hNumbers
      | false =>
          obtain ⟨text, rfl⟩ := exists_text_of_isBare hSecond
          exact (readsBack_quoted_bare text hFirst).symm id
  | false =>
      obtain ⟨text, rfl⟩ := exists_text_of_isBare hFirst
      cases hSecond : second.isBare with
      | true => exact readsBack_quoted_bare text hSecond
      | false =>
          obtain ⟨text', rfl⟩ := exists_text_of_isBare hSecond
          exact (readsBack_quoted text text').mono (fun _ _ => trivial) (congrArg Literal.text)

end Literal

end Literals

section Lists

def commaTail : List String → String
  | [] => ""
  | text :: texts => ", " ++ text ++ commaTail texts

theorem commaList_cons (text : String) (texts : List String) : commaList (text :: texts) = text ++ commaTail texts := by
  induction texts generalizing text with
  | nil => simp [commaList, commaTail]
  | cons next texts ih =>
      rw [commaList, String.intercalate_cons_cons, ← commaList, ih, commaTail]
      simp only [String.append_assoc]

variable {α : Type} {write : α → String} {items items' : List α}

/-- An item of a list is followed by a comma or by the closing bracket, both of which end a word. -/
theorem endsWord_commaTail_append (texts : List String) {rest : List Char} (hRest : StartsWith ']' rest) :
    endsWord ((commaTail texts).toList ++ rest) = true := by
  cases texts with
  | nil =>
      obtain ⟨behind, rfl⟩ : ∃ behind, rest = ']' :: behind := by
        cases rest with
        | nil => cases hRest
        | cons c behind => exact ⟨behind, by rw [Option.some.inj hRest]⟩
      rfl
  | cons text texts =>
      rw [commaTail, String.toList_append, String.toList_append]
      rfl

/-- The first items are compared before the others, which tells where they end. -/
theorem readsBack_item_commaTail {item item' : α}
    (hItem : ReadsBack (endsWord · = true) (write item) (write item') (item = item'))
    (hItems : ReadsBack (StartsWith ']') (commaTail (items.map write)) (commaTail (items'.map write))
      (items = items')) :
    ReadsBack (StartsWith ']') (write item ++ commaTail (items.map write)) (write item' ++ commaTail (items'.map write))
      (item :: items = item' :: items') := by
  refine hItem.append (fun hSame => hItems.mono (fun _ hRest => hRest) fun hOthers => ?_) ?_ ?_
  · rw [hSame, hOthers]
  · exact fun rest hRest => endsWord_commaTail_append _ hRest
  · exact fun rest hRest => endsWord_commaTail_append _ hRest

variable (hItems : ∀ item ∈ items, ∀ item' ∈ items',
  ReadsBack (endsWord · = true) (write item) (write item') (item = item'))

include hItems

/-- The induction is over both lists. Where one ends, the bracket behind it is no comma. -/
theorem readsBack_commaTail :
    ReadsBack (StartsWith ']') (commaTail (items.map write)) (commaTail (items'.map write)) (items = items') := by
  have hComma (item : α) (items : List α) {alike : Prop} :
      ReadsBack (StartsWith ']') "" (commaTail ((item :: items).map write)) alike := by
    refine .of_front [','] ?_ fun rest => not_prefix_of_startsWith (by decide)
    rw [List.map_cons, commaTail, String.append_assoc, String.toList_append]
    exact List.prefix_append _ _
  induction items generalizing items' with
  | nil =>
      cases items' with
      | nil => exact .same _ rfl
      | cons item' items' => exact hComma item' items'
  | cons item items ih =>
      cases items' with
      | nil => exact (hComma item items).symm id
      | cons item' items' =>
          obtain ⟨hItem, hFurther⟩ := List.forall_mem_cons.mp hItems
          have hTail := ih fun item hMem item' hMem' => hFurther item hMem item' (List.mem_cons_of_mem _ hMem')
          simp only [List.map_cons, commaTail, String.append_assoc]
          exact (readsBack_item_commaTail (hItem item' List.mem_cons_self) hTail).after ", "

/-- A list in brackets ends where its closing bracket follows. No item starts with that. -/
theorem readsBack_commaList
    (hStart : ∀ item, item ∈ items ∨ item ∈ items' → ∃ c chars, (write item).toList = c :: chars ∧ c ≠ ']') :
    ReadsBack (StartsWith ']') (commaList (items.map write)) (commaList (items'.map write)) (items = items') := by
  have hFirst {item : α} (hMem : item ∈ items ∨ item ∈ items') (further : List α) {alike : Prop} :
      ReadsBack (StartsWith ']') "" (commaList ((item :: further).map write)) alike := by
    obtain ⟨c, chars, hChars, hOther⟩ := hStart item hMem
    refine .of_front [c] ?_ fun rest => not_prefix_of_startsWith hOther
    rw [List.map_cons, commaList_cons, String.toList_append, hChars]
    exact ⟨_, rfl⟩
  cases items with
  | nil =>
      cases items' with
      | nil => exact .same _ rfl
      | cons item' items' => exact hFirst (.inr List.mem_cons_self) items'
  | cons item items =>
      cases items' with
      | nil => exact (hFirst (.inl List.mem_cons_self) items).symm id
      | cons item' items' =>
          obtain ⟨hItem, hFurther⟩ := List.forall_mem_cons.mp hItems
          rw [List.map_cons, List.map_cons, commaList_cons, commaList_cons]
          refine readsBack_item_commaTail (hItem item' List.mem_cons_self) (readsBack_commaTail ?_)
          exact fun item hMem item' hMem' => hFurther item hMem item' (List.mem_cons_of_mem _ hMem')

end Lists

end SchemaForge
