import SchemaForge.Number.Shortest

/-! The written forms of a double. Type declarations and generated code use the positional form; JSON
documents keep a fractional part on every double and write very large and very small ones with an
exponent. -/
namespace SchemaForge

/-- The digits with the decimal point at its place, and zeros wherever the point lies outside them. -/
def Decimal.positional (d : Decimal) : String :=
  let digits := d.digits
  let before := digits.length + d.exponent.toNat - (-d.exponent).toNat
  if 0 ≤ d.exponent then String.ofList (digits ++ List.replicate d.exponent.toNat '0')
  else if 0 < before then
    String.ofList (digits.take before ++ '.' :: digits.drop before)
  else
    let zeros := (-d.exponent).toNat - digits.length
    String.ofList ('0' :: '.' :: (List.replicate zeros '0' ++ digits))

/-- The digits with the point after the first one, and the exponent with its sign. -/
def Decimal.scientific (d : Decimal) : String :=
  let power := d.point - 1
  let digits := match d.digits with
    | [] => []
    | [first] => [first]
    | first :: rest => first :: '.' :: rest
  String.ofList digits ++ "e" ++ (if 0 ≤ power then "+" else "-") ++ toString power.natAbs

namespace Binary64

def signText (negative : Bool) : String :=
  if negative then "-" else ""

/-- The positional form: no exponent, and no decimal point in a whole number. Of two equally near
decimals the larger is taken. -/
def positional : Binary64 → String
  | .nan => "NaN"
  | .infinite negative => signText negative ++ "inf"
  | .finite negative steps =>
      signText negative ++ if steps = 0 then "0" else (shortest .up steps).positional

/-- The form in JSON documents: positional with a fractional part from `1e-5` up to but not including
`1e16`, with an exponent outside. Of two equally near decimals the even one is taken. -/
def documentText : Binary64 → String
  | .nan => "null"
  | .infinite _ => "null"
  | .finite negative steps =>
      let body :=
        if steps = 0 then "0.0"
        else
          let d := shortest .toEven steps
          if -4 ≤ d.point ∧ d.point ≤ 16 then
            if 0 ≤ d.exponent then d.positional ++ ".0" else d.positional
          else d.scientific
      signText negative ++ body

/-- The form of a number literal in messages and generated code: a whole number below `1e15` is
written as an integer, where both zeros are `0`, and any other number positionally. -/
def literalText (x : Binary64) : String :=
  match x, x.wholeMagnitude? with
  | .finite negative _, some magnitude =>
      if magnitude < Nat.pow 10 15 then toString (if negative then -(magnitude : Int) else magnitude)
      else x.positional
  | _, _ => x.positional

end Binary64

end SchemaForge
