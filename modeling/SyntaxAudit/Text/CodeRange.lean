/-! Sets of characters given by ranges of code points. -/
namespace SyntaxAudit.Text

/-- A set of characters, as the first and the last code point of each stretch. -/
abbrev CodeRanges := List (Nat × Nat)

def CodeRanges.contains (ranges : CodeRanges) (c : Char) : Bool :=
  ranges.any fun (first, last) => first ≤ c.toNat && c.toNat ≤ last

end SyntaxAudit.Text
