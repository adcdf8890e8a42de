/-! JSON documents and their indented text. -/
namespace SyntaxAudit

/-- A JSON document without the values that no report has. -/
inductive Document
  | text (s : String)
  | number (n : Nat)
  | list (entries : List Document)
  | record (fields : List (String × Document))

namespace Document

def shortEscapes : List (Char × Char) :=
  [('\x08', 'b'), ('\t', 't'), ('\n', 'n'), ('\x0c', 'f'), ('\r', 'r'), ('\x22', '\x22'),
    ('\\', '\\')]

/-- A character inside a string. Only quotes, backslashes and controls are escaped. -/
def escaped (c : Char) : List Char :=
  match shortEscapes.lookup c with
  | some letter => ['\\', letter]
  | none =>
    if c.toNat < 0x20 then
      ['\\', 'u', '0', '0', Nat.digitChar (c.toNat / 16), Nat.digitChar (c.toNat % 16)]
    else [c]

def quoted (s : String) : List Char :=
  '\x22' :: (s.toList.flatMap escaped ++ ['\x22'])

def newLine (indent : Nat) : List Char :=
  '\n' :: List.replicate indent ' '

mutual

def write (indent : Nat) : Document → List Char
  | text s => quoted s
  | number n => n.repr.toList
  | list [] => ['[', ']']
  | list (d :: ds) =>
    '[' :: (newLine (indent + 2) ++ write (indent + 2) d ++ writeEntries (indent + 2) ds
      ++ newLine indent ++ [']'])
  | record [] => ['\x7b', '\x7d']
  | record (f :: fs) =>
    '\x7b' :: (newLine (indent + 2) ++ writeField (indent + 2) f ++ writeFields (indent + 2) fs
      ++ newLine indent ++ ['\x7d'])

def writeEntries (indent : Nat) : List Document → List Char
  | [] => []
  | d :: ds => ',' :: (newLine indent ++ write indent d ++ writeEntries indent ds)

def writeField (indent : Nat) : String × Document → List Char
  | (key, value) => quoted key ++ [':', ' '] ++ write indent value

def writeFields (indent : Nat) : List (String × Document) → List Char
  | [] => []
  | f :: fs => ',' :: (newLine indent ++ writeField indent f ++ writeFields indent fs)

end

/-- The text of a document: two spaces for each level, nothing after the last bracket. -/
def render (d : Document) : String :=
  String.ofList (write 0 d)

end Document

end SyntaxAudit
