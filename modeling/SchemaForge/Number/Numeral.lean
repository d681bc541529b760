import SchemaForge.Number.Binary64

/-! Reading the decimal text of a double. Any length of text is read exactly and rounded once, so the
result is the nearest number; a text out of range gives an infinity. -/
namespace SchemaForge

def digitValue (c : Char) : Nat :=
  c.toNat - 48

def digitsValue (digits : List Char) : Nat :=
  digits.foldl (fun value c => 10 * value + digitValue c) 0

namespace Binary64

/-- The number nearest to `digits * 10 ^ exponent`. Beyond `10 ^ 400` in either direction no power is
computed, since the result is then infinite or zero whatever the digits are. -/
def ofDecimal (negative : Bool) (digits : List Char) (exponent : Int) : Binary64 :=
  let value := digitsValue digits
  if value = 0 then .finite negative 0
  else if 400 < exponent then .infinite negative
  else if digits.length + exponent < -400 then .finite negative 0
  else ofFraction negative (value * Nat.pow 10 exponent.toNat) (Nat.pow 10 (-exponent).toNat)

/-- The exponent part of a number text: nothing, or a mark, an optional sign and at least one digit. -/
def exponentPart? : List Char → Option Int
  | [] => some 0
  | mark :: rest =>
      if mark = 'e' ∨ mark = 'E' then
        let (negative, digits) := match rest with
          | '-' :: digits => (true, digits)
          | '+' :: digits => (false, digits)
          | digits => (false, digits)
        if digits.isEmpty || !digits.all Char.isDigit then none
        else some (if negative then -(digitsValue digits : Int) else digitsValue digits)
      else none

/-- The number of an unsigned decimal text. Digits may be missing on one side of the point, not on
both. -/
def ofUnsignedText? (negative : Bool) (chars : List Char) : Option Binary64 :=
  let whole := chars.takeWhile Char.isDigit
  let (fraction, rest) := match chars.dropWhile Char.isDigit with
    | '.' :: rest => (rest.takeWhile Char.isDigit, rest.dropWhile Char.isDigit)
    | rest => ([], rest)
  let digits := whole ++ fraction
  if digits.isEmpty then none
  else (exponentPart? rest).map fun exponent => ofDecimal negative digits (exponent - fraction.length)

/-- The number that a text writes: an optional sign, then a decimal with an optional exponent, or one
of the words for infinity and for what is not a number, in any case. -/
def ofText? (text : String) : Option Binary64 :=
  let (negative, rest) := match text.toList with
    | '-' :: rest => (true, rest)
    | '+' :: rest => (false, rest)
    | rest => (false, rest)
  let word := String.ofList (rest.map Char.toLower)
  if word = "inf" ∨ word = "infinity" then some (.infinite negative)
  else if word = "nan" then some .nan
  else ofUnsignedText? negative rest

end Binary64

end SchemaForge
