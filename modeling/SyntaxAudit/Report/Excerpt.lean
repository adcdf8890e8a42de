import SyntaxAudit.Span

/-! Excerpts: the lines of a source text that are shown around a place. A line ends with a line
feed, a carriage return, or both; numbered rows end with a line feed only. -/
namespace SyntaxAudit

structure SourceLine where
  /-- The offset of the first byte. -/
  offset : Nat
  content : List Char
  lineBreak : List Char
deriving DecidableEq

namespace SourceLine

def contentEnd (l : SourceLine) : Nat :=
  l.offset + byteLength l.content

def lineEnd (l : SourceLine) : Nat :=
  l.contentEnd + byteLength l.lineBreak

/-- The lines of a text, where `read` is what stands before the text on its first line, last
character first, and `offset` is the offset of that line. The last line has no break. -/
def splitFrom (offset : Nat) (read : List Char) : List Char → List SourceLine
  | [] => [⟨offset, read.reverse, []⟩]
  | '\r' :: '\n' :: cs =>
    let line : SourceLine := ⟨offset, read.reverse, ['\r', '\n']⟩
    line :: splitFrom line.lineEnd [] cs
  | c :: cs =>
    if c = '\r' ∨ c = '\n' then
      let line : SourceLine := ⟨offset, read.reverse, [c]⟩
      line :: splitFrom line.lineEnd [] cs
    else splitFrom offset (c :: read) cs

def split (text : List Char) : List SourceLine :=
  splitFrom 0 [] text

/-- The lines up to the one in which the `n`-th of the breaks behind `reach` lies. -/
def takeThrough (reach : Nat) : Nat → List SourceLine → List SourceLine
  | 0, _ => []
  | _ + 1, [] => []
  | n + 1, l :: ls => l :: takeThrough reach (if reach < l.contentEnd then n else n + 1) ls

end SourceLine

/-- A numbered row of an excerpt. Its length counts the break that ends it. -/
structure Row where
  number : Nat
  offset : Nat
  length : Nat
  text : List Char
deriving DecidableEq

namespace Row

/-- The rows of a text, where `read` is what stands before the text on its first row, last
character first, with `length` bytes from `offset` on, and `number` rows come before. A carriage
return at the very end does not make a row of its own. -/
def splitFrom (number offset length : Nat) (read : List Char) : List Char → List Row
  | [] =>
    if read.isEmpty then []
    else
      let last := if read.head? = some '\r' then number else number + 1
      [⟨last, offset, length, read.reverse⟩]
  | '\r' :: '\n' :: cs =>
    ⟨number + 1, offset, length + 2, read.reverse⟩ ::
      splitFrom (number + 1) (offset + length + 2) 0 [] cs
  | '\n' :: cs =>
    ⟨number + 1, offset, length + 1, read.reverse⟩ ::
      splitFrom (number + 1) (offset + length + 1) 0 [] cs
  | c :: cs => splitFrom number offset (length + c.utf8Size) (c :: read) cs

def holds (r : Row) (s : Span) : Bool :=
  r.offset ≤ s.offset && s.offset < r.offset + r.length
    && s.offset + s.length ≤ r.offset + r.length

end Row

/-- The lines around a span, and the line and column of the span, which count from zero; the
column counts bytes. -/
structure Excerpt where
  rows : List Row
  line : Nat
  column : Nat
deriving DecidableEq

namespace Excerpt

/-- The line of the span with one line before it and, as a rule, one line after it. Breaks
count as behind the span from its last byte on, or from the byte before it if it is empty. -/
def around (source : String) (s : Span) : Excerpt :=
  let lines := SourceLine.split source.toList
  let before := lines.takeWhile fun l => !l.lineBreak.isEmpty && l.lineEnd ≤ s.offset
  let rest := lines.drop before.length
  let column := match rest.head? with
    | some l => min s.offset l.contentEnd - l.offset
    | none => 0
  let firstShown := before.length - 1
  let shown := SourceLine.takeThrough (s.offset + s.length - 1) 2 (lines.drop firstShown)
  let offset := match shown.head? with
    | some l => l.offset
    | none => 0
  let text := shown.flatMap fun l => l.content ++ l.lineBreak
  ⟨Row.splitFrom firstShown offset 0 [] text, before.length, column⟩

end Excerpt

end SyntaxAudit
