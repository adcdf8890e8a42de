import SyntaxAudit.Text.Blank
import SyntaxAudit.Token
import SyntaxAudit.Vocabulary.Literal

/-! Lexemes: the pieces a source text falls into when it is read from the left, each piece as
long as it can be. Nothing is left out, so the pieces put together give the text back. -/
namespace SyntaxAudit

/-- What a piece of source text is. A string or comment that never ends takes the rest of the
text with it. -/
inductive LexemeKind
  | blank
  | token (kind : TokenKind)
  | unexpected (c : Char)
  | openString
  | openComment
deriving DecidableEq

structure Lexeme where
  kind : LexemeKind
  text : List Char
deriving DecidableEq

namespace Lexeme

def isWordStart (c : Char) : Bool :=
  c.isAlpha || c == '_'

def isWordPart (c : Char) : Bool :=
  c.isAlphanum || c == '_'

/-- The class of a word: reserved words first, then words with a fixed value, and every other
word is a name. -/
def wordKind (word : List Char) : TokenKind :=
  if (Keyword.ofSpelling? (String.ofList word)).isSome then .keyword
  else match (Literal.ofSpelling? (String.ofList word)).map Literal.valueClass with
    | some .boolean => .boolean
    | some .null => .null
    | some .undefined => .undefined
    | none => .identifier

def cutComment? : List Char → Option (List Char × List Char)
  | [] => none
  | '*' :: '/' :: cs => some (['*', '/'], cs)
  | c :: cs => (cutComment? cs).map fun (body, rest) => (c :: body, rest)

/-- Cuts a text behind its first `quote`, where a backslash hides the character after it. -/
def cutString? (quote : Char) : List Char → Option (List Char × List Char)
  | [] => none
  | '\\' :: c :: cs => (cutString? quote cs).map fun (body, rest) => ('\\' :: c :: body, rest)
  | c :: cs =>
    if c = quote then some ([c], cs)
    else (cutString? quote cs).map fun (body, rest) => (c :: body, rest)

/-- Cuts a text behind its leading digits, with at most one point among or after them. -/
def cutNumber (cs : List Char) : List Char × List Char :=
  let whole := cs.takeWhile Char.isDigit
  match cs.dropWhile Char.isDigit with
  | '.' :: rest => (whole ++ '.' :: rest.takeWhile Char.isDigit, rest.dropWhile Char.isDigit)
  | rest => (whole, rest)

def lineComment (cs : List Char) : Lexeme × List Char :=
  (⟨.token .comment, '/' :: '/' :: cs.takeWhile (· != '\n')⟩, cs.dropWhile (· != '\n'))

def blockComment (cs : List Char) : Lexeme × List Char :=
  match cutComment? cs with
  | some (body, rest) => (⟨.token .comment, '/' :: '*' :: body⟩, rest)
  | none => (⟨.openComment, '/' :: '*' :: cs⟩, [])

def quotation (quote : Char) (cs : List Char) : Lexeme × List Char :=
  match cutString? quote cs with
  | some (body, rest) => (⟨.token .string, quote :: body⟩, rest)
  | none => (⟨.openString, quote :: cs⟩, [])

def number (c : Char) (cs : List Char) : Lexeme × List Char :=
  (⟨.token .number, c :: (cutNumber cs).1⟩, (cutNumber cs).2)

def word (c : Char) (cs : List Char) : Lexeme × List Char :=
  (⟨.token (wordKind (c :: cs.takeWhile isWordPart)), c :: cs.takeWhile isWordPart⟩,
    cs.dropWhile isWordPart)

/-- An operator that begins with `c`: two characters if they are an operator together. -/
def operator (c : Char) (cs : List Char) : Lexeme × List Char :=
  match cs with
  | d :: rest =>
    if (Operator.ofSpelling? (String.ofList [c, d])).isSome then
      (⟨.token .operator, [c, d]⟩, rest)
    else (⟨.token .operator, [c]⟩, cs)
  | [] => (⟨.token .operator, [c]⟩, [])

/-- The first piece of the text `c :: cs`, and the text behind it. White space is taken one
character at a time. -/
def first (c : Char) (cs : List Char) : Lexeme × List Char :=
  if Text.isBlank c then (⟨.blank, [c]⟩, cs)
  else if c = '/' ∧ cs.head? = some '/' then lineComment cs.tail
  else if c = '/' ∧ cs.head? = some '*' then blockComment cs.tail
  else if c = '\x22' ∨ c = '\x27' then quotation c cs
  else if c.isDigit then number c cs
  else if isWordStart c then word c cs
  else if (Punctuation.ofChar? c).isSome then (⟨.token .punctuation, [c]⟩, cs)
  else if Operator.startsWith c then operator c cs
  else (⟨.unexpected c, [c]⟩, cs)

theorem cutComment?_append {cs body rest : List Char}
    (h : cutComment? cs = some (body, rest)) : body ++ rest = cs := by
  fun_induction cutComment? cs generalizing body with
  | case1 => simp at h
  | case2 cs =>
    obtain ⟨rfl, rfl⟩ : ['*', '/'] = body ∧ cs = rest := by simpa using h
    rfl
  | case3 c cs _ ih =>
    obtain ⟨⟨b, r⟩, hb, he⟩ := Option.map_eq_some_iff.mp h
    obtain ⟨rfl, rfl⟩ : c :: b = body ∧ r = rest := by simpa using he
    simp [ih hb]

theorem cutString?_append {quote : Char} {cs body rest : List Char}
    (h : cutString? quote cs = some (body, rest)) : body ++ rest = cs := by
  fun_induction cutString? quote cs generalizing body with
  | case1 => simp at h
  | case2 c cs ih =>
    obtain ⟨⟨b, r⟩, hb, he⟩ := Option.map_eq_some_iff.mp h
    obtain ⟨rfl, rfl⟩ : '\\' :: c :: b = body ∧ r = rest := by simpa using he
    simp [ih hb]
  | case3 cs _ =>
    obtain ⟨rfl, rfl⟩ : [quote] = body ∧ cs = rest := by simpa using h
    rfl
  | case4 c cs _ _ ih =>
    obtain ⟨⟨b, r⟩, hb, he⟩ := Option.map_eq_some_iff.mp h
    obtain ⟨rfl, rfl⟩ : c :: b = body ∧ r = rest := by simpa using he
    simp [ih hb]

private theorem cutNumber_append (cs : List Char) : (cutNumber cs).1 ++ (cutNumber cs).2 = cs := by
  unfold cutNumber
  split
  · rename_i rest h
    simp only [List.append_assoc, List.cons_append, List.takeWhile_append_dropWhile]
    rw [← h, List.takeWhile_append_dropWhile]
  · exact List.takeWhile_append_dropWhile

private theorem eq_cons_tail {cs : List Char} {c : Char} (h : cs.head? = some c) :
    cs = c :: cs.tail := by
  cases cs with
  | nil => simp at h
  | cons d ds => simpa using h

/-- What holds of every way in which the first piece of a text can be read. Only white space is
blank, and a sign opens a comment before it is an operator. -/
@[elab_as_elim]
theorem first_cases {motive : Lexeme × List Char → Prop} (c : Char) (cs : List Char)
    (blank : Text.isBlank c = true → motive (⟨.blank, [c]⟩, cs))
    (lineComment : ∀ ds, Text.isBlank c = false → c = '/' → cs = '/' :: ds →
      motive (lineComment ds))
    (blockComment : ∀ ds, Text.isBlank c = false → c = '/' → cs = '*' :: ds →
      motive (blockComment ds))
    (quotation : Text.isBlank c = false → c = '\x22' ∨ c = '\x27' → motive (quotation c cs))
    (number : Text.isBlank c = false → c.isDigit = true → motive (number c cs))
    (word : Text.isBlank c = false → isWordStart c = true → motive (word c cs))
    (mark : ∀ p : Punctuation, Text.isBlank c = false → c = p.char →
      motive (⟨.token .punctuation, [c]⟩, cs))
    (operator : Text.isBlank c = false → Operator.startsWith c = true →
      ¬(c = '/' ∧ (cs.head? = some '/' ∨ cs.head? = some '*')) → motive (operator c cs))
    (unexpected : Text.isBlank c = false → motive (⟨.unexpected c, [c]⟩, cs)) :
    motive (first c cs) := by
  unfold first
  split
  · exact blank ‹_›
  rename_i hblank
  have hvisible : Text.isBlank c = false := by simpa using hblank
  split
  · rename_i hopen
    exact lineComment cs.tail hvisible hopen.1 (eq_cons_tail hopen.2)
  rename_i hline
  split
  · rename_i hopen
    exact blockComment cs.tail hvisible hopen.1 (eq_cons_tail hopen.2)
  rename_i hblock
  split
  · exact quotation hvisible ‹_›
  split
  · exact number hvisible ‹_›
  split
  · exact word hvisible ‹_›
  split
  · rename_i hmark
    obtain ⟨p, hp⟩ := Option.isSome_iff_exists.mp hmark
    exact mark p hvisible (Punctuation.ofChar?_eq_some_iff.mp hp).symm
  split
  · refine operator hvisible ‹_› ?_
    rintro ⟨hslash, hnext | hnext⟩
    · exact hline ⟨hslash, hnext⟩
    · exact hblock ⟨hslash, hnext⟩
  · exact unexpected hvisible

/-- A piece and the text behind it make up the text. -/
theorem first_append (c : Char) (cs : List Char) :
    (first c cs).1.text ++ (first c cs).2 = c :: cs := by
  refine first_cases c cs ?blank ?lineComment ?blockComment ?quotation ?number ?word ?mark
    ?operator ?unexpected
  case lineComment =>
    rintro ds - rfl rfl
    simp [lineComment]
  case blockComment =>
    rintro ds - rfl rfl
    unfold blockComment
    split
    · rename_i hc
      simp [cutComment?_append hc]
    · simp
  case quotation =>
    intro _ _
    unfold quotation
    split
    · rename_i hc
      simp [cutString?_append hc]
    · simp
  case number =>
    intro _ _
    simp [number, cutNumber_append]
  case word =>
    intro _ _
    simp [word]
  case operator =>
    intro _ _ _
    unfold operator
    repeat' split
    all_goals rfl
  all_goals
    intros
    rfl

/-- No piece is empty. -/
theorem first_text_ne_nil (c : Char) (cs : List Char) : (first c cs).1.text ≠ [] := by
  refine first_cases c cs ?blank ?lineComment ?blockComment ?quotation ?number ?word ?mark
    ?operator ?unexpected
  case blockComment =>
    intro ds _ _ _
    unfold blockComment
    split <;> exact List.cons_ne_nil _ _
  case quotation =>
    intro _ _
    unfold quotation
    split <;> exact List.cons_ne_nil _ _
  case operator =>
    intro _ _ _
    unfold operator
    repeat' split
    all_goals exact List.cons_ne_nil _ _
  all_goals
    intros
    exact List.cons_ne_nil _ _

/-- What is left behind a piece is shorter than the text. -/
theorem length_first_lt (c : Char) (cs : List Char) :
    (first c cs).2.length < (c :: cs).length := by
  have h := congrArg List.length (first_append c cs)
  have hpos := List.length_pos_iff.mpr (first_text_ne_nil c cs)
  simp only [List.length_append] at h
  omega

end Lexeme

def lexemes : List Char → List Lexeme
  | [] => []
  | c :: cs => (Lexeme.first c cs).1 :: lexemes (Lexeme.first c cs).2
termination_by cs => cs.length
decreasing_by exact Lexeme.length_first_lt c cs

@[simp] theorem lexemes_nil : lexemes [] = [] := by
  rw [lexemes]

theorem lexemes_cons (c : Char) (cs : List Char) :
    lexemes (c :: cs) = (Lexeme.first c cs).1 :: lexemes (Lexeme.first c cs).2 := by
  rw [lexemes]

/-- The pieces of a text put together give the text. -/
theorem flatMap_text_lexemes (cs : List Char) : (lexemes cs).flatMap Lexeme.text = cs := by
  fun_induction lexemes cs with
  | case1 => rfl
  | case2 c cs ih => rw [List.flatMap_cons, ih, Lexeme.first_append]

end SyntaxAudit
