import SchemaForge.Number.Numeral

/-! Dates with a time of day in universal time, as `2024-02-29T23:59:60.5Z`. The date is one of the
calendar, a leap second may stand in any minute, and the fraction has any number of digits. -/
namespace SchemaForge.Text

def isLeapYear (year : Nat) : Bool :=
  year % 4 == 0 && (year % 100 != 0 || year % 400 == 0)

/-- The number of days of a month; a number that is no month has none. -/
def daysInMonth (year month : Nat) : Nat :=
  match month with
  | 1 => 31
  | 2 => if isLeapYear year then 29 else 28
  | 3 => 31
  | 4 => 30
  | 5 => 31
  | 6 => 30
  | 7 => 31
  | 8 => 31
  | 9 => 30
  | 10 => 31
  | 11 => 30
  | 12 => 31
  | _ => 0

/-- What may follow the seconds: an optional fraction, then the mark of universal time. -/
def endsDateTime : List Char → Bool
  | ['Z'] => true
  | '.' :: rest =>
      let fraction := rest.takeWhile Char.isDigit
      !fraction.isEmpty && rest.dropWhile Char.isDigit == ['Z']
  | _ => false

def isDateTime : List Char → Bool
  | y1 :: y2 :: y3 :: y4 :: '-' :: m1 :: m2 :: '-' :: d1 :: d2 :: 'T' ::
      h1 :: h2 :: ':' :: n1 :: n2 :: ':' :: s1 :: s2 :: rest =>
      let digits := [y1, y2, y3, y4, m1, m2, d1, d2, h1, h2, n1, n2, s1, s2]
      let year := digitsValue [y1, y2, y3, y4]
      let day := digitsValue [d1, d2]
      digits.all Char.isDigit
        && decide (1 ≤ day) && decide (day ≤ daysInMonth year (digitsValue [m1, m2]))
        && decide (digitsValue [h1, h2] ≤ 23)
        && decide (digitsValue [n1, n2] ≤ 59)
        && decide (digitsValue [s1, s2] ≤ 60)
        && endsDateTime rest
  | _ => false

end SchemaForge.Text
