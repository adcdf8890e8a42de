import SyntaxAudit.Text.CodeRange

/-! White space: the characters that only separate. -/
namespace SyntaxAudit.Text

/-- The Unicode property White_Space. -/
def blankRanges : CodeRanges :=
  [(0x9, 0xd), (0x20, 0x20), (0x85, 0x85), (0xa0, 0xa0), (0x1680, 0x1680), (0x2000, 0x200a),
    (0x2028, 0x2029), (0x202f, 0x202f), (0x205f, 0x205f), (0x3000, 0x3000)]

def isBlank (c : Char) : Bool :=
  blankRanges.contains c

theorem isBlank_lineFeed : isBlank '\n' = true := by
  decide

theorem isBlank_space : isBlank ' ' = true := by
  decide

def trimEnd (text : String) : String :=
  String.ofList (text.toList.reverse.dropWhile isBlank).reverse

end SyntaxAudit.Text
