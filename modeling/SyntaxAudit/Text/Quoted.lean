import SyntaxAudit.Text.GraphemeExtender
import SyntaxAudit.Text.Unprintable

/-! A single character as it is named in a message: between single quotes, with an escape for
what could not be told apart on the page. -/
namespace SyntaxAudit.Text

def shortEscapes : List (Char × Char) :=
  [('\x00', '0'), ('\t', 't'), ('\r', 'r'), ('\n', 'n'), ('\x27', '\x27'), ('\\', '\\')]

def hexDigits (c : Char) : List Char :=
  Nat.toDigits 16 c.toNat

/-- The escape of a character: a backslash and a letter if it has one, the code point in braces
if it cannot be shown, and otherwise the character itself. -/
def escaped (c : Char) : List Char :=
  match shortEscapes.lookup c with
  | some letter => ['\\', letter]
  | none =>
    if isGraphemeExtender c || isUnprintable c then
      ['\\', 'u', '\x7b'] ++ hexDigits c ++ ['\x7d']
    else [c]

def quoted (c : Char) : String :=
  String.ofList (['\x27'] ++ escaped c ++ ['\x27'])

end SyntaxAudit.Text
