/-! Character classes given by tables of code points. A table lists closed ranges in increasing order,
and a character belongs to the class when one of the ranges holds its code point. -/
namespace SchemaForge.Text

/-- Closed ranges of code points, first and last one of each. -/
abbrev CodeRanges := List (Nat × Nat)

/-- A character lies in one of the ranges. -/
def CodeRanges.contains (ranges : CodeRanges) (c : Char) : Bool :=
  ranges.any fun range => decide (range.1 ≤ c.toNat) && decide (c.toNat ≤ range.2)

theorem CodeRanges.contains_iff (ranges : CodeRanges) (c : Char) :
    ranges.contains c = true ↔ ∃ range ∈ ranges, range.1 ≤ c.toNat ∧ c.toNat ≤ range.2 := by
  simp [CodeRanges.contains]

/-- The ASCII characters are those below code point 128. Each class below decides them by a formula
and leaves only the others to its table. -/
def isAscii (c : Char) : Bool :=
  decide (c.toNat < 0x80)

end SchemaForge.Text
