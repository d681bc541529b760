import SchemaForge.Text.CodeRanges

/-! White space in the sense of the Unicode property White_Space. Neither the zero width space nor the
byte order mark belongs to it. -/
namespace SchemaForge.Text

/-- The white space characters, the six ASCII ones included. -/
def blankRanges : CodeRanges := [
  (0x9, 0xD), (0x20, 0x20), (0x85, 0x85), (0xA0, 0xA0), (0x1680, 0x1680), (0x2000, 0x200A),
  (0x2028, 0x2029), (0x202F, 0x202F), (0x205F, 0x205F), (0x3000, 0x3000)]

def isBlank (c : Char) : Bool :=
  blankRanges.contains c

/-- The characters without the white space at both ends. -/
def trimBlanks (chars : List Char) : List Char :=
  ((chars.dropWhile isBlank).reverse.dropWhile isBlank).reverse

def trim (text : String) : String :=
  String.ofList (trimBlanks text.toList)

def isBlankText (text : String) : Bool :=
  text.toList.all isBlank

end SchemaForge.Text
