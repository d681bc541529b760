/-! Names of files. A name consists of components between slashes; empty components and single dots count
for nothing, except a dot at the start. Names are taken apart without looking at any directory. -/
namespace SchemaForge.PathName

def isAbsolute (name : String) : Bool :=
  name.toList.head? == some '/'

/-- The name under a directory. An absolute name stays as it is. -/
def join (directory name : String) : String :=
  if isAbsolute name then name
  else if directory = "" ∨ directory.toList.getLast? = some '/' then directory ++ name
  else directory ++ "/" ++ name

/-- The pieces between slashes, empty ones included. -/
def pieces : List Char → List (List Char)
  | [] => [[]]
  | c :: rest =>
      if c = '/' then [] :: pieces rest
      else
        match pieces rest with
        | [] => [[c]]
        | piece :: further => (c :: piece) :: further

/-- The components that are not empty. -/
def components (name : String) : List String :=
  ((pieces name.toList).filter fun piece => !piece.isEmpty).map String.ofList

/-- What stands before the components that count: the slash of an absolute name, or a dot that is the
first component of another. -/
def start : List Char → List Char
  | '/' :: _ => ['/']
  | ['.'] => ['.']
  | '.' :: '/' :: _ => ['.']
  | _ => []

/-- Takes the last component off characters in reverse: the component, also in reverse, and the rest
without the slash between them. -/
def takeLast (reversed : List Char) : List Char × List Char :=
  (reversed.takeWhile (· ≠ '/'), (reversed.dropWhile (· ≠ '/')).tail)

/-- Drops the components at the end that count for nothing, in reverse. The first argument bounds their
number. -/
def dropIdle : Nat → List Char → List Char
  | 0, reversed => reversed
  | bound + 1, reversed =>
      if reversed.isEmpty then []
      else
        let (component, rest) := takeLast reversed
        if component.isEmpty || component == ['.'] then dropIdle bound rest else reversed

/-- The name taken apart: its start, the components before the last in reverse, and the last component.
There is no last component if none counts. -/
def takeApart (name : String) : List Char × List Char × Option (List Char) :=
  let chars := name.toList
  let first := start chars
  let body := dropIdle (chars.length + 1) (chars.drop first.length).reverse
  if body.isEmpty then (first, [], none)
  else
    let (component, rest) := takeLast body
    (first, dropIdle (chars.length + 1) rest, some component.reverse)

/-- The name of the directory that holds what is named. The root and the empty name have none. -/
def parent? (name : String) : Option String :=
  match takeApart name with
  | (first, rest, some _) => some (String.ofList (first ++ rest.reverse))
  | (['.'], _, none) => some ""
  | (_, _, none) => none

/-- The last component, unless it leads upwards. -/
def fileName? (name : String) : Option String :=
  match takeApart name with
  | (_, _, some component) => if component = ['.', '.'] then none else some (String.ofList component)
  | (_, _, none) => none

/-- The last component where there is one, the whole name otherwise. -/
def label (name : String) : String :=
  (fileName? name).getD name

/-- The name demands a directory, since it ends with a slash. -/
def demandsDirectory (name : String) : Bool :=
  name.toList.getLast? == some '/'

end SchemaForge.PathName
