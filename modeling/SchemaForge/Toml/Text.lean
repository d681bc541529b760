import SchemaForge.Text.Hexadecimal

/-! Texts of a settings file: between double quotes with escapes or between single quotes without, on one
line or over several between three quotes. -/
namespace SchemaForge.Toml

/-- What is left of the file after a part of it was read. -/
abbrev Remaining := List Char

def isSpace (c : Char) : Bool :=
  c == ' ' || c == '\t'

def skipSpace (chars : Remaining) : Remaining :=
  chars.dropWhile isSpace

def lineBreak? : Remaining → Option Remaining
  | '\n' :: rest => some rest
  | '\r' :: '\n' :: rest => some rest
  | _ => none

/-- The character may stand in a text or comment: it is a tab or no control character. -/
def isPlain (c : Char) : Bool :=
  c == '\t' || (decide (0x20 ≤ c.toNat) && c.toNat != 0x7F)

/-- The rest without blanks and ends of lines at its start. -/
def skipLines : Remaining → Remaining
  | [] => []
  | '\r' :: '\n' :: rest => skipLines rest
  | c :: rest => if isSpace c || c == '\n' then skipLines rest else c :: rest

/-- The character with a code point, unless it is a surrogate or beyond the last one. -/
def charOfCode? (code : Nat) : Option Char :=
  if code < 0xD800 ∨ (0xDFFF < code ∧ code < 0x110000) then some (Char.ofNat code) else none

/-- Reads the code point of an escape, which has so many digits. -/
def readCode (count : Nat) (chars : Remaining) : Option (Char × Remaining) := do
  let digits := chars.take count
  if digits.length < count then none
  else
    let code ← Text.hexadecimalValue? digits
    return (← charOfCode? code, chars.drop count)

def readEscape : Remaining → Option (Char × Remaining)
  | 'b' :: rest => some ('\x08', rest)
  | 't' :: rest => some ('\t', rest)
  | 'n' :: rest => some ('\n', rest)
  | 'f' :: rest => some ('\x0c', rest)
  | 'r' :: rest => some ('\r', rest)
  | 'e' :: rest => some ('\x1b', rest)
  | '"' :: rest => some ('"', rest)
  | '\\' :: rest => some ('\\', rest)
  | 'x' :: rest => readCode 2 rest
  | 'u' :: rest => readCode 4 rest
  | 'U' :: rest => readCode 8 rest
  | _ => none

/-- Reads the rest of a text between double quotes on one line. The first argument bounds its length. -/
def readBasic : Nat → Remaining → Option (List Char × Remaining)
  | 0, _ => none
  | _ + 1, [] => none
  | _ + 1, '"' :: rest => some ([], rest)
  | bound + 1, '\\' :: rest => do
      let (c, rest) ← readEscape rest
      let (chars, rest) ← readBasic bound rest
      return (c :: chars, rest)
  | bound + 1, c :: rest =>
      if isPlain c then do
        let (chars, rest) ← readBasic bound rest
        return (c :: chars, rest)
      else none

/-- Reads the rest of a text between single quotes on one line. -/
def readLiteral : Remaining → Option (List Char × Remaining)
  | [] => none
  | c :: rest =>
      if c = '\x27' then some ([], rest)
      else if isPlain c then do
        let (chars, rest) ← readLiteral rest
        return (c :: chars, rest)
      else none

/-- The content of a text over several lines that ends here, if it does: up to two quotes before the
three closing ones belong to it. -/
def closing? (quote : Char) (chars : Remaining) : Option (List Char × Remaining) :=
  let quotes := (chars.takeWhile (· == quote)).length
  if quotes < 3 then none
  else
    let kept := min (quotes - 3) 2
    some (List.replicate kept quote, chars.drop (kept + 3))

/-- The rest after a backslash at the end of a line, which hides all blanks up to the next character. -/
def continuation? (chars : Remaining) : Option Remaining :=
  (lineBreak? (skipSpace chars)).map skipLines

/-- Reads the rest of a text over several lines. Only between double quotes a backslash has a meaning.
The first argument bounds the length. -/
def readLines (quote : Char) : Nat → Remaining → Option (List Char × Remaining)
  | 0, _ => none
  | _ + 1, [] => none
  | bound + 1, c :: rest =>
      match closing? quote (c :: rest) with
      | some ending => some ending
      | none =>
          if c = '\\' ∧ quote = '"' then
            match continuation? rest with
            | some rest => readLines quote bound rest
            | none => do
                let (escaped, rest) ← readEscape rest
                let (chars, rest) ← readLines quote bound rest
                return (escaped :: chars, rest)
          else if isPlain c || (lineBreak? (c :: rest)).isSome then do
            let (chars, rest) ← readLines quote bound rest
            return (c :: chars, rest)
          else none

/-- The rest without an end of line right at its start. -/
def skipFirstBreak (chars : Remaining) : Remaining :=
  (lineBreak? chars).getD chars

def readLineText : Remaining → Option (String × Remaining)
  | '"' :: rest => do
      let (chars, rest) ← readBasic (rest.length + 1) rest
      return (String.ofList chars, rest)
  | '\x27' :: rest => do
      let (chars, rest) ← readLiteral rest
      return (String.ofList chars, rest)
  | _ => none

/-- Reads a text over several lines after its opening quotes. -/
def readLinesText (quote : Char) (rest : Remaining) : Option (String × Remaining) := do
  let (chars, rest) ← readLines quote (rest.length + 1) (skipFirstBreak rest)
  return (String.ofList chars, rest)

def readText : Remaining → Option (String × Remaining)
  | '"' :: '"' :: '"' :: rest => readLinesText '"' rest
  | '\x27' :: '\x27' :: '\x27' :: rest => readLinesText '\x27' rest
  | chars => readLineText chars

end SchemaForge.Toml
