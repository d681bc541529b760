import SchemaForge.Toml.Scalar

/-! Reading a settings file in TOML: line by line, either a key with its value, or a header that says which
table the following keys belong to. -/
namespace SchemaForge.Toml

/-- The rest after a comment, which runs to the end of its line. -/
def afterComment? (chars : Remaining) : Option Remaining :=
  let rest := chars.dropWhile isPlain
  if rest.isEmpty || (lineBreak? rest).isSome then some rest else none

/-- The rest after blanks, ends of lines and comments, of which the first argument bounds the number. -/
def skipComments : Nat → Remaining → Remaining
  | 0, chars => chars
  | bound + 1, chars =>
      match skipLines chars with
      | '#' :: rest =>
          match afterComment? rest with
          | some rest => skipComments bound rest
          | none => '#' :: rest
      | rest => rest

/-- The rest after blanks, ends of lines and comments. -/
def skipFiller (chars : Remaining) : Remaining :=
  skipComments (chars.length + 1) chars

def isKeyChar (c : Char) : Bool :=
  c.isAlphanum || c == '_' || c == '-'

def readName (chars : Remaining) : Option (String × Remaining) :=
  match readLineText chars with
  | some found => some found
  | none =>
      let name := chars.takeWhile isKeyChar
      if name.isEmpty then none else some (String.ofList name, chars.dropWhile isKeyChar)

/-- Reads at most so many names of a key with dots between them. All of a key stands on one line. -/
def readNames : Nat → Remaining → Option (List String × Remaining)
  | 0, _ => none
  | bound + 1, chars => do
      let (name, rest) ← readName (skipSpace chars)
      match skipSpace rest with
      | '.' :: rest =>
          let (names, rest) ← readNames bound rest
          return (name :: names, rest)
      | rest => return ([name], rest)

/-- How many names a key may have, and how deeply arrays and tables in place may be nested. -/
def maxDepth : Nat := 80

def readKey (chars : Remaining) : Option (List String × Remaining) :=
  readNames maxDepth chars

/-- Reads a key and its value: the names above the key, its own, and the value. What may stand around the
equals sign is skipped by the first argument. -/
def readAssignment (skip : Remaining → Remaining) (item : Remaining → Option (TomlItem × Remaining))
    (chars : Remaining) : Option ((List String × String × TomlItem) × Remaining) := do
  let (names, rest) ← readKey chars
  let name ← names.getLast?
  match skip rest with
  | '=' :: rest =>
      let (value, rest) ← item (skip rest)
      return ((names.dropLast, name, value), rest)
  | _ => none

/-- Reads the elements of an array up to and including the closing bracket. The first argument bounds
their number. -/
def readElements (item : Remaining → Option (TomlItem × Remaining)) :
    Nat → Remaining → Option (List TomlItem × Remaining)
  | 0, _ => none
  | bound + 1, chars =>
      match skipFiller chars with
      | ']' :: rest => some ([], rest)
      | chars => do
          let (value, rest) ← item chars
          match skipFiller rest with
          | ']' :: rest => return ([value], rest)
          | ',' :: rest =>
              let (values, rest) ← readElements item bound rest
              return (value :: values, rest)
          | _ => none

/-- Reads the entries of a table in place up to and including the closing bracket. As in an array, lines
may end and comments may stand between the parts, and a comma may follow the last entry. The first
argument bounds the number of entries. -/
def readEntries (item : Remaining → Option (TomlItem × Remaining)) :
    Nat → Entries TomlItem → Remaining → Option (Entries TomlItem × Remaining)
  | 0, _, _ => none
  | bound + 1, before, chars =>
      match skipFiller chars with
      | '\x7d' :: rest => some (before, rest)
      | chars => do
          let ((above, name, value), rest) ← readAssignment skipFiller item chars
          let entries ← TomlItem.assign true name value above before
          match skipFiller rest with
          | '\x7d' :: rest => return (entries, rest)
          | ',' :: rest => readEntries item bound entries rest
          | _ => none

/-- Reads a value in which arrays and tables in place are nested at most to the given depth. -/
def readItem : Nat → Remaining → Option (TomlItem × Remaining)
  | depth, '[' :: rest =>
      match depth with
      | 0 => none
      | depth + 1 => do
          let (elements, rest) ← readElements (readItem depth) (rest.length + 1) rest
          return (.array elements, rest)
  | depth, '\x7b' :: rest =>
      match depth with
      | 0 => none
      | depth + 1 => do
          let (entries, rest) ← readEntries (readItem depth) (rest.length + 1) [] rest
          return (.table .inline entries, rest)
  | _, chars =>
      match readText chars with
      | some (value, rest) => some (.text value, rest)
      | none => readScalar chars

/-- The rest after the end of a line, before which a comment may stand. -/
def lineEnd? (chars : Remaining) : Option Remaining := do
  let rest ← match skipSpace chars with
    | '#' :: rest => afterComment? rest
    | rest => some rest
  if rest.isEmpty then some [] else lineBreak? rest

/-- What has been read: all tables, and the header that the following keys belong to. -/
structure Progress where
  root : Entries TomlItem
  header : List String

/-- Reads a header or a key with its value. -/
def readStatement (progress : Progress) : Remaining → Option (Progress × Remaining)
  | '[' :: '[' :: rest => do
      let (names, rest) ← readKey rest
      match rest with
      | ']' :: ']' :: rest =>
          let root ← TomlItem.declare TomlItem.declaredElement names progress.root
          return (⟨root, names⟩, rest)
      | _ => none
  | '[' :: rest => do
      let (names, rest) ← readKey rest
      match rest with
      | ']' :: rest =>
          let root ← TomlItem.declare TomlItem.declaredTable names progress.root
          return (⟨root, names⟩, rest)
      | _ => none
  | chars => do
      let ((above, name, value), rest) ← readAssignment skipSpace (readItem maxDepth) chars
      let root ← TomlItem.within (TomlItem.assign true name value above) progress.header progress.root
      return ({ progress with root := root }, rest)

/-- Reads the lines of a file. The first argument bounds their number. -/
def readStatements : Nat → Progress → Remaining → Option (Entries TomlItem)
  | 0, _, _ => none
  | bound + 1, progress, chars =>
      match skipFiller chars with
      | [] => some progress.root
      | chars => do
          let (progress, rest) ← readStatement progress chars
          readStatements bound progress (← lineEnd? rest)

/-- Reads a whole file as the table that it defines. A byte order mark at the start is ignored. -/
def parse? (text : String) : Option TomlItem := do
  let chars := match text.toList with
    | '\uFEFF' :: rest => rest
    | chars => chars
  let root ← readStatements (chars.length + 1) ⟨[], []⟩ chars
  return .table .header root

end SchemaForge.Toml
