import SchemaForge.Number.Numeral
import SchemaForge.Text.DateTime
import SchemaForge.Toml.Item
import SchemaForge.Toml.Text

/-! Values of a settings file that are written without quotes and brackets: truth values, integers in four
bases, floating-point numbers, dates and times. -/
namespace SchemaForge.Toml

/-- The digits without the underscores between them. Each underscore must stand between two digits, and
there must be a digit. -/
def ungroup? (isDigit : Char → Bool) : List Char → Option (List Char)
  | [] => none
  | [c] => if isDigit c then some [c] else none
  | c :: '_' :: rest => if isDigit c then (ungroup? isDigit rest).map (c :: ·) else none
  | c :: rest => if isDigit c then (ungroup? isDigit rest).map (c :: ·) else none

def splitSign : List Char → Bool × List Char
  | '-' :: rest => (true, rest)
  | '+' :: rest => (false, rest)
  | chars => (false, chars)

/-- The number that digits below a base write. -/
def valueInBase? (base : Nat) (digits : List Char) : Option Nat := do
  let isDigit (c : Char) : Bool := match Text.hexValue? c with
    | some value => decide (value < base)
    | none => false
  let digits ← ungroup? isDigit digits
  digits.foldlM (fun value c => (Text.hexValue? c).map (base * value + ·)) 0

/-- The decimal digits of an integer, which has no leading zero. -/
def wholeDigits? (chars : List Char) : Option (List Char) := do
  let digits ← ungroup? Char.isDigit chars
  if digits.head? = some '0' ∧ digits.length ≠ 1 then none else some digits

/-- The integer fits the widest type that integers are read into. -/
def inRange (value : Int) : Bool :=
  decide (-Int.ofNat (1 <<< 127) ≤ value) && decide (value < Int.ofNat (1 <<< 128))

def integerItem (value : Int) : TomlItem :=
  if inRange value then .integer value else .unreadable

/-- The integer that digits after the mark of a base write. Without digits it has no value. -/
def integerInBase? (base : Nat) (digits : List Char) : Option TomlItem :=
  if digits.isEmpty then some .unreadable
  else (valueInBase? base digits).map fun value => integerItem value

def integer? : List Char → Option TomlItem
  | '0' :: 'x' :: digits => integerInBase? 16 digits
  | '0' :: 'o' :: digits => integerInBase? 8 digits
  | '0' :: 'b' :: digits => integerInBase? 2 digits
  | chars =>
      let (negative, rest) := splitSign chars
      (wholeDigits? rest).map fun digits =>
        integerItem (if negative then -(digitsValue digits : Int) else digitsValue digits)

def isExponentMark (c : Char) : Bool :=
  c == 'e' || c == 'E'

/-- The floating-point number that characters write, with a fraction or an exponent. One that is too large
has no value. -/
def real? (chars : List Char) : Option TomlItem := do
  let (negative, rest) := splitSign chars
  if rest = "inf".toList then return .real (.infinite negative)
  else if rest = "nan".toList then return .real .nan
  else
    let mantissa := rest.takeWhile fun c => !isExponentMark c
    let exponent : Int ← match rest.dropWhile fun c => !isExponentMark c with
      | [] => some 0
      | _ :: written =>
          let (below, digits) := splitSign written
          (ungroup? Char.isDigit digits).map fun digits =>
            if below then -(digitsValue digits : Int) else digitsValue digits
    let whole ← wholeDigits? (mantissa.takeWhile (· ≠ '.'))
    let fraction ← match mantissa.dropWhile (· ≠ '.') with
      | [] => if mantissa.length = rest.length then none else some []
      | _ :: digits => ungroup? Char.isDigit digits
    match Binary64.ofDecimal negative (whole ++ fraction) (exponent - fraction.length) with
    | .infinite _ => return .unreadable
    | value => return .real value

/-- The characters write a date of the calendar. -/
def isDate : List Char → Bool
  | [y1, y2, y3, y4, '-', m1, m2, '-', d1, d2] =>
      [y1, y2, y3, y4, m1, m2, d1, d2].all Char.isDigit
        && decide (1 ≤ digitsValue [d1, d2])
        && decide (digitsValue [d1, d2] ≤
          Text.daysInMonth (digitsValue [y1, y2, y3, y4]) (digitsValue [m1, m2]))
  | _ => false

/-- The characters are a difference to universal time. -/
def isOffset : List Char → Bool
  | ['Z'] => true
  | ['z'] => true
  | [sign, h1, h2, ':', n1, n2] =>
      (sign == '+' || sign == '-') && [h1, h2, n1, n2].all Char.isDigit
        && decide (digitsValue [h1, h2] ≤ 23) && decide (digitsValue [n1, n2] ≤ 59)
  | _ => false

/-- What is left after the fraction of a second, if there is one. -/
def afterFraction? : List Char → Option (List Char)
  | '.' :: rest => if (rest.takeWhile Char.isDigit).isEmpty then none else some (rest.dropWhile Char.isDigit)
  | rest => some rest

/-- The characters are what may follow hours and minutes: nothing, or seconds with an optional fraction,
after which only what the test allows may follow. -/
def endsTime (ending : List Char → Bool) : List Char → Bool
  | ':' :: s1 :: s2 :: rest =>
      [s1, s2].all Char.isDigit
        && decide (digitsValue [s1, s2] ≤ 60)
        && ((afterFraction? rest).map ending).getD false
  | rest => ending rest

/-- The characters write a time of day, after which only what the test allows may follow. The seconds may
be missing. -/
def isTime (ending : List Char → Bool) : List Char → Bool
  | h1 :: h2 :: ':' :: n1 :: n2 :: rest =>
      [h1, h2, n1, n2].all Char.isDigit
        && decide (digitsValue [h1, h2] ≤ 23)
        && decide (digitsValue [n1, n2] ≤ 59)
        && endsTime ending rest
  | _ => false

def date? (chars : List Char) : Option TomlItem :=
  let isDateTime := isDate (chars.take 10) &&
    (match chars.drop 10 with
      | [] => true
      | mark :: time =>
          (mark == 'T' || mark == 't' || mark == ' ') &&
            isTime (fun rest => rest.isEmpty || isOffset rest) time)
  if isDateTime || isTime List.isEmpty chars then some .date else none

/-- A character of a value without quotes. -/
def isScalarChar (c : Char) : Bool :=
  c.isAlphanum || c == '+' || c == '-' || c == '.' || c == '_' || c == ':'

/-- The characters of a value without quotes, and the rest. A blank may stand between a date and its
time. -/
def takeScalar (chars : Remaining) : List Char × Remaining :=
  let first := chars.takeWhile isScalarChar
  match chars.dropWhile isScalarChar with
  | ' ' :: c :: rest =>
      if isDate first && c.isDigit then
        (first ++ ' ' :: (c :: rest).takeWhile isScalarChar, (c :: rest).dropWhile isScalarChar)
      else (first, ' ' :: c :: rest)
  | rest => (first, rest)

def readScalar (chars : Remaining) : Option (TomlItem × Remaining) :=
  let (scalar, rest) := takeScalar chars
  let item? :=
    if scalar = "true".toList then some (.bool true)
    else if scalar = "false".toList then some (.bool false)
    else (integer? scalar).orElse fun _ => (real? scalar).orElse fun _ => date? scalar
  item?.map fun item => (item, rest)

end SchemaForge.Toml
