import SyntaxAudit.LexError
import SyntaxAudit.Outcome
import SyntaxAudit.Report.Excerpt
import SyntaxAudit.Text.Width

/-! Reports as framed excerpts of the source text, with a marker below the place of each
finding. -/
namespace SyntaxAudit

inductive FramePart
  | severity
  | location
  | lineNumber
  | marker
  | help
deriving DecidableEq

structure Painter where
  coloured : Bool
deriving DecidableEq

def tabStop : Nat := 4

structure Finding where
  code : String
  message : String
  help? : Option String
  position : Position
  label : String
deriving DecidableEq

def FramePart.colour : FramePart → String
  | severity => "31"
  | location => "36;1;4"
  | lineNumber => "2"
  | marker => "35;1"
  | help => "36"

def Painter.paint (p : Painter) (part : FramePart) (text : String) : String :=
  if p.coloured then "\x1b[" ++ part.colour ++ "m" ++ text ++ "\x1b[0m" else text

/-- The columns each character of a line takes, from the given column on. A terminal escape
takes none up to the letter that ends it. -/
def columnWidths (column : Nat) (inEscape : Bool) : List Char → List Nat
  | [] => []
  | c :: cs =>
    if inEscape then 0 :: columnWidths column (c != 'm') cs
    else if c = '\x1b' then 0 :: columnWidths column true cs
    else
      let w := if c = '\t' then tabStop - column % tabStop else Text.width c
      w :: columnWidths (column + w) false cs

def lineWidth (text : List Char) : Nat :=
  (columnWidths 0 false text).foldr (· + ·) 0

def expandTabs (text : List Char) : List Char :=
  (text.zip (columnWidths 0 false text)).flatMap fun (c, w) =>
    if c = '\t' then List.replicate w ' ' else [c]

def takeBytes : Nat → List Char → List Char
  | _, [] => []
  | n, c :: cs => if c.utf8Size ≤ n then c :: takeBytes (n - c.utf8Size) cs else []

/-- The column at which the byte with the given offset in a row stands. Everything behind the
text of the row stands one column after it. -/
def Row.columnAt (r : Row) (offset : Nat) : Nat :=
  let bytes := offset - r.offset
  lineWidth (takeBytes bytes r.text) + if byteLength r.text < bytes then 1 else 0

def repeated (n : Nat) (c : Char) : String :=
  String.ofList (List.replicate n c)

def paddedNumber (width n : Nat) : String :=
  repeated (width - n.repr.length) ' ' ++ n.repr

namespace Painter

def markerLines (p : Painter) (margin : Nat) (r : Row) (s : Span) (label : String) : String :=
  let first := r.columnAt s.offset
  let last :=
    if s.length = 0 then first + 1 else max (r.columnAt (s.offset + s.length)) (first + 1)
  let stem := (first + last) / 2
  let point := if s.length = 0 then '▲' else '┬'
  let marker := repeated first ' ' ++ repeated (stem - first) '─' ++ String.ofList [point]
    ++ repeated (last - stem - 1) '─'
  let gutter := " " ++ repeated margin ' ' ++ " · "
  gutter ++ p.paint .marker marker ++ "\n"
    ++ gutter ++ repeated stem ' ' ++ p.paint .marker ("╰── " ++ p.paint .marker label) ++ "\n"

def rowLines (p : Painter) (margin : Nat) (s : Span) (label : String) (r : Row) : String :=
  " " ++ p.paint .lineNumber (paddedNumber margin r.number) ++ " │ "
    ++ String.ofList (expandTabs r.text) ++ "\n"
    ++ if r.holds s then p.markerLines margin r s label else ""

def frame (p : Painter) (file source : String) (f : Finding) : String :=
  let span := Span.atPosition source f.position
  let excerpt := Excerpt.around source span
  let margin := match excerpt.rows.getLast? with
    | some r => r.number.repr.length
    | none => 1
  let location := file ++ ":" ++ (excerpt.line + 1).repr ++ ":" ++ (excerpt.column + 1).repr
  p.paint .severity f.code ++ "\n\n"
    ++ "  " ++ p.paint .severity "×" ++ " " ++ f.message ++ "\n"
    ++ repeated (margin + 2) ' ' ++ "╭─[" ++ p.paint .location location ++ "]\n"
    ++ String.join (excerpt.rows.map (p.rowLines margin span f.label))
    ++ repeated (margin + 2) ' ' ++ "╰────\n"
    ++ match f.help? with
      | some text => p.paint .help "  help: " ++ text ++ "\n"
      | none => ""

end Painter

def Violation.finding (v : Violation) : Finding :=
  ⟨v.kind.code, v.message, v.kind.help?, v.position, v.kind.message⟩

def LexError.finding (e : LexError) : Finding :=
  ⟨e.cause.code, e.message, e.cause.help?, e.position, "here"⟩

def Outcome.framedText (p : Painter) (file source : String) (o : Outcome) : String :=
  String.join (o.violations.map fun v => p.frame file source v.finding)

def LexError.framedText (p : Painter) (file source : String) (errors : List LexError) : String :=
  String.join (errors.map fun e => p.frame file source e.finding)

end SyntaxAudit
