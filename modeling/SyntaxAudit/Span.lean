import SyntaxAudit.Position

/-! Places as offsets: where a line and a column lie in the bytes of a text. -/
namespace SyntaxAudit

/-- A stretch of a text, in bytes of its UTF-8 form. -/
structure Span where
  offset : Nat
  length : Nat
deriving DecidableEq

def byteLength (text : List Char) : Nat :=
  text.foldr (fun c bytes => c.utf8Size + bytes) 0

@[simp] theorem byteLength_nil : byteLength [] = 0 := rfl

@[simp] theorem byteLength_cons (c : Char) (text : List Char) :
    byteLength (c :: text) = c.utf8Size + byteLength text := rfl

/-- Walks a text from the place `p` at the given offset until it stands at the place `target` or
the text ends; gives the offset there and the text that follows. -/
def seek (target p : Position) (offset : Nat) : List Char → Nat × List Char
  | [] => (offset, [])
  | c :: cs =>
    if p = target then (offset, c :: cs)
    else seek target (p.next c) (offset + c.utf8Size) cs

/-- The offset of a place, and the length of the text if no character stands there. -/
def byteOffset (source : String) (target : Position) : Nat :=
  (seek target .start 0 source.toList).1

/-- The character at a place. A line feed is not counted in, and neither is the end. -/
def Span.atPosition (source : String) (target : Position) : Span :=
  match seek target .start 0 source.toList with
  | (offset, c :: _) => ⟨offset, if c = '\n' then 0 else c.utf8Size⟩
  | (offset, []) => ⟨offset, 0⟩

end SyntaxAudit
