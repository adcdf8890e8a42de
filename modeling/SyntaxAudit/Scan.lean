import SyntaxAudit.LexError
import SyntaxAudit.Lexeme

/-! Scanning: the tokens and lexical errors of a source text, all at once or one at a time. -/
namespace SyntaxAudit

structure ScanOptions where
  /-- Comments are tokens instead of being passed over. -/
  keepComments : Bool := false
  /-- The last token marks the end of the input. -/
  markEnd : Bool := true
deriving DecidableEq

inductive Item
  | token (t : Token)
  | error (e : LexError)
deriving DecidableEq

namespace Item

def token? : Item → Option Token
  | token t => some t
  | error _ => none

def error? : Item → Option LexError
  | token _ => none
  | error e => some e

/-- A scan fails with all its errors if it has any, and gives all its tokens otherwise. -/
def collect (items : List Item) : Except (List LexError) (List Token) :=
  match items.filterMap error? with
  | [] => .ok (items.filterMap token?)
  | errors => .error errors

def collectAnswers (answers : List (Option Item)) : Except (List LexError) (List Token) :=
  collect ((answers.takeWhile Option.isSome).filterMap id)

end Item

/-- What a scan hands out for a piece of text at `p`: nothing for white space, nor for a
comment unless comments are kept. -/
def Lexeme.item? (options : ScanOptions) (p : Position) (l : Lexeme) : Option Item :=
  match l.kind with
  | .blank => none
  | .token kind =>
    if kind = .comment ∧ options.keepComments = false then none
    else some (.token ⟨kind, String.ofList l.text, p⟩)
  | .unexpected c => some (.error ⟨.unexpectedCharacter c, p⟩)
  | .openString => some (.error ⟨.unterminatedString, p⟩)
  | .openComment => some (.error ⟨.unterminatedComment, p⟩)

def Token.endAt (p : Position) : Token :=
  ⟨.endOfInput, "", p⟩

def ScanOptions.endItems (options : ScanOptions) (p : Position) : List Item :=
  if options.markEnd then [.token (.endAt p)] else []

def itemsFrom (options : ScanOptions) (p : Position) : List Lexeme → List Item
  | [] => options.endItems p
  | l :: ls => (l.item? options p).toList ++ itemsFrom options (p.after l.text) ls

def items (options : ScanOptions) (source : String) : List Item :=
  itemsFrom options .start (lexemes source.toList)

def scan (options : ScanOptions) (source : String) : Except (List LexError) (List Token) :=
  Item.collect (items options source)

structure Scanner where
  options : ScanOptions
  rest : List Char
  position : Position
  finished : Bool
deriving DecidableEq

namespace Scanner

def ofSource (options : ScanOptions) (source : String) : Scanner :=
  ⟨options, source.toList, .start, false⟩

/-- The next item, if there is one, and the scan behind it. The end of the input is handed out
at most once, and nothing follows it. -/
def next (s : Scanner) : Option Item × Scanner :=
  if s.finished then (none, s)
  else match _h : s.rest with
    | [] => ((s.options.endItems s.position).head?, { s with finished := true })
    | c :: cs =>
      let l := (Lexeme.first c cs).1
      let behind : Scanner :=
        { s with rest := (Lexeme.first c cs).2, position := s.position.after l.text }
      match l.item? s.options s.position with
      | some item => (some item, behind)
      | none => behind.next
termination_by s.rest.length
decreasing_by
  rw [_h]
  exact Lexeme.length_first_lt c cs

def pull (s : Scanner) : Nat → List (Option Item) × Scanner
  | 0 => ([], s)
  | n + 1 =>
    let answer := s.next
    (answer.2.pull n).map (answer.1 :: ·) id

def pending (s : Scanner) : List Item :=
  if s.finished then [] else itemsFrom s.options s.position (lexemes s.rest)

def finish (s : Scanner) : Except (List LexError) (List Token) :=
  Item.collect s.pending

/-- A request for an item gives the first of those to come and leaves the others. -/
theorem pending_next (s : Scanner) :
    s.next.1 = s.pending.head? ∧ s.next.2.pending = s.pending.tail := by
  fun_induction next s with
  | case1 s h => simp [pending, h]
  | case2 s hf h =>
    simp only [pending, hf, h, lexemes_nil, itemsFrom, ScanOptions.endItems]
    split <;> simp
  | case3 s hf c cs h l behind item hi =>
    simp only [l] at hi
    simp [pending, hf, h, lexemes_cons, itemsFrom, hi, behind, l]
  | case4 s hf c cs h l behind hi ih =>
    simp only [l] at hi
    have he : s.pending = behind.pending := by
      simp [pending, hf, h, lexemes_cons, itemsFrom, hi, behind, l]
    rw [he]
    exact ih

end Scanner

end SyntaxAudit
