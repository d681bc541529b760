import SchemaForge.Json.Numeral
import SchemaForge.Text.Hexadecimal

/-! Reading the text of a JSON document. The reader is strict: no comments, no trailing commas, no
leading zeros, no raw control characters and no lone surrogates. A member whose name was there before
keeps its place and takes the last value. Arrays and objects may be nested to a given depth only. -/
namespace SchemaForge.Json

/-- What is left of the text after a part of it was read. -/
abbrev Remaining := List Char

def isSpace (c : Char) : Bool :=
  c == ' ' || c == '\n' || c == '\t' || c == '\r'

def skipSpace (chars : Remaining) : Remaining :=
  chars.dropWhile isSpace

def hexUnit? (a b c d : Char) : Option Nat :=
  Text.hexadecimalValue? [a, b, c, d]

def shortEscape? : Char → Option Char
  | '"' => some '"'
  | '\\' => some '\\'
  | '/' => some '/'
  | 'b' => some '\x08'
  | 'f' => some '\x0c'
  | 'n' => some '\n'
  | 'r' => some '\r'
  | 't' => some '\t'
  | _ => none

/-- Reads the rest of a text whose opening quote was read, up to and including the closing one. A code
point beyond the first plane is escaped by a pair of surrogates. -/
def readText : Remaining → Option (List Char × Remaining)
  | [] => none
  | '"' :: rest => some ([], rest)
  | '\\' :: 'u' :: a :: b :: c :: d :: '\\' :: 'u' :: e :: f :: g :: h :: rest => do
      let first ← hexUnit? a b c d
      if 0xD800 ≤ first ∧ first ≤ 0xDBFF then
        let second ← hexUnit? e f g h
        if 0xDC00 ≤ second ∧ second ≤ 0xDFFF then
          let (chars, rest) ← readText rest
          return (Char.ofNat (0x10000 + (first - 0xD800) * 0x400 + (second - 0xDC00)) :: chars, rest)
        else none
      else if 0xDC00 ≤ first ∧ first ≤ 0xDFFF then none
      else
        let (chars, rest) ← readText ('\\' :: 'u' :: e :: f :: g :: h :: rest)
        return (Char.ofNat first :: chars, rest)
  | '\\' :: 'u' :: a :: b :: c :: d :: rest => do
      let code ← hexUnit? a b c d
      if 0xD800 ≤ code ∧ code ≤ 0xDFFF then none
      else
        let (chars, rest) ← readText rest
        return (Char.ofNat code :: chars, rest)
  | '\\' :: escape :: rest => do
      let c ← shortEscape? escape
      let (chars, rest) ← readText rest
      return (c :: chars, rest)
  | c :: rest =>
      if c.toNat < 0x20 ∨ c = '\\' then none
      else do
        let (chars, rest) ← readText rest
        return (c :: chars, rest)

def readDigits (chars : Remaining) : List Char × Remaining :=
  (chars.takeWhile Char.isDigit, chars.dropWhile Char.isDigit)

/-- Reads a number whose sign was read. -/
def readUnsigned (negative : Bool) (chars : Remaining) : Option (Json × Remaining) := do
  let (whole, rest) := readDigits chars
  if whole.isEmpty || (whole.head? == some '0' && whole.length != 1) then none
  else
    let (fraction, rest) ← match rest with
      | '.' :: rest =>
          let (digits, rest) := readDigits rest
          if digits.isEmpty then none else some (some digits, rest)
      | rest => some (none, rest)
    let (exponent, rest) ← match rest with
      | mark :: rest =>
          if mark = 'e' ∨ mark = 'E' then
            let (sign, rest) := match rest with
              | '-' :: rest => (true, rest)
              | '+' :: rest => (false, rest)
              | rest => (false, rest)
            let (digits, rest) := readDigits rest
            if digits.isEmpty then none else some (some (sign, digits), rest)
          else some (none, mark :: rest)
      | [] => some (none, [])
    let value ← JsonNumber.ofParts? negative whole fraction exponent
    return (.number value, rest)

/-- Reads a document that is neither an array nor an object. -/
def readScalar : Remaining → Option (Json × Remaining)
  | 'n' :: 'u' :: 'l' :: 'l' :: rest => some (.null, rest)
  | 't' :: 'r' :: 'u' :: 'e' :: rest => some (.bool true, rest)
  | 'f' :: 'a' :: 'l' :: 's' :: 'e' :: rest => some (.bool false, rest)
  | '"' :: rest => (readText rest).map fun (chars, rest) => (.string (String.ofList chars), rest)
  | '-' :: rest => readUnsigned true rest
  | chars => readUnsigned false chars

/-- Reads the elements of an array from where one is expected, up to and including the closing bracket. The first
argument bounds their number. -/
def readElements (element : Remaining → Option (Json × Remaining)) :
    Nat → Remaining → Option (List Json × Remaining)
  | 0, _ => none
  | bound + 1, chars => do
      let (value, rest) ← element (skipSpace chars)
      match skipSpace rest with
      | ']' :: rest => return ([value], rest)
      | ',' :: rest =>
          let (values, rest) ← readElements element bound rest
          return (value :: values, rest)
      | _ => none

/-- Reads the members of an object after one was expected, up to and including the closing bracket.
The first argument bounds their number. -/
def readMembers (element : Remaining → Option (Json × Remaining)) :
    Nat → Entries Json → Remaining → Option (Entries Json × Remaining)
  | 0, _, _ => none
  | bound + 1, before, chars =>
      match skipSpace chars with
      | '"' :: rest => do
          let (name, rest) ← readText rest
          match skipSpace rest with
          | ':' :: rest =>
              let (value, rest) ← element (skipSpace rest)
              let members := Entries.put (String.ofList name) value before
              match skipSpace rest with
              | '\x7d' :: rest => return (members, rest)
              | ',' :: rest => readMembers element bound members rest
              | _ => none
          | _ => none
      | _ => none

/-- Reads a document in which arrays and objects are nested at most to the given depth. -/
def readValue : Nat → Remaining → Option (Json × Remaining)
  | depth, '[' :: rest =>
      match depth with
      | 0 => none
      | depth + 1 =>
          match skipSpace rest with
          | ']' :: rest => some (.array [], rest)
          | rest => do
              let (elements, rest) ← readElements (readValue depth) (rest.length + 1) rest
              return (.array elements, rest)
  | depth, '\x7b' :: rest =>
      match depth with
      | 0 => none
      | depth + 1 =>
          match skipSpace rest with
          | '\x7d' :: rest => some (.object [], rest)
          | rest => do
              let (members, rest) ← readMembers (readValue depth) (rest.length + 1) [] rest
              return (.object members, rest)
  | _, chars => readScalar chars

/-- Reads a whole text as one document nested at most to the given depth. -/
def parseNested? (depth : Nat) (text : String) : Option Json := do
  let (document, rest) ← readValue depth (skipSpace text.toList)
  if (skipSpace rest).isEmpty then some document else none

/-- Reads a whole text as one document, in which at most 127 arrays and objects are nested. -/
def parse? (text : String) : Option Json :=
  parseNested? 127 text

end SchemaForge.Json
