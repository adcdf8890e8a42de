import SyntaxAudit.Proofs.Detection

/-! The brackets of a program. Where only the semicolon ends a statement, a check without a report
has seen parentheses with no bracket between them, braces around statements, and no other brackets,
though it never counts brackets itself. -/
namespace SyntaxAudit

inductive BracketPair
  | parens
  | braces
deriving DecidableEq

inductive Bracket
  | opening (pair : BracketPair)
  | closing (pair : BracketPair)
deriving DecidableEq

def Punctuation.bracket? : Punctuation → Option Bracket
  | leftParen => some (.opening .parens)
  | rightParen => some (.closing .parens)
  | leftBrace => some (.opening .braces)
  | rightBrace => some (.closing .braces)
  | _ => none

def Token.bracket? (t : Token) : Option Bracket :=
  t.punctuation?.bind Punctuation.bracket?

def brackets (tokens : List Token) : List Bracket :=
  (beforeEnd tokens).filterMap Token.bracket?

namespace Bracket

inductive Balanced : List Bracket → Prop
  | nil : Balanced []
  | pair {p : BracketPair} {inside rest : List Bracket} :
      Balanced inside → Balanced rest →
      Balanced (.opening p :: (inside ++ .closing p :: rest))

/-- No bracket stands between a parenthesis and its partner. -/
def ParensEmpty (word : List Bracket) : Prop :=
  ∀ before inside after,
    word = before ++ .opening .parens :: (inside ++ .closing .parens :: after) →
    Balanced inside → inside = []

def ParensClosed (word : List Bracket) : Prop :=
  ∀ before after, word = before ++ .opening .parens :: after →
    after.head? = some (.closing .parens)

variable {word inside rest : List Bracket}

theorem Balanced.append (h : Balanced word) (hrest : Balanced rest) : Balanced (word ++ rest) := by
  induction h with
  | nil => exact hrest
  | pair hinside _ _ ih =>
    rw [List.cons_append, List.append_assoc, List.cons_append]
    exact .pair hinside ih

theorem ParensClosed.append (h : ParensClosed word) (hrest : ParensClosed rest) :
    ParensClosed (word ++ rest) := by
  intro before after heq
  -- the parenthesis stands in the second word, or in the first one with its partner behind it
  rcases List.append_eq_append_iff.mp heq with ⟨more, rfl, hmore⟩ | ⟨more, hmore, heq⟩
  · exact hrest more after hmore
  · cases more with
    | nil => exact hrest [] after heq.symm
    | cons b more =>
      rw [List.cons_append] at heq
      obtain ⟨rfl, rfl⟩ := List.cons.inj heq
      have hclosed := h before more hmore
      rw [List.head?_append, hclosed]
      rfl

/-- A balanced word begins with an opening bracket. So an opening parenthesis that is followed by a
closing one has it for its partner. -/
theorem ParensClosed.parensEmpty (h : ParensClosed word) : ParensEmpty word := by
  intro before inside after heq hbalanced
  have hhead := h before _ heq
  cases hbalanced with
  | nil => rfl
  | pair => simp at hhead

theorem parensClosed_singleton {b : Bracket} (h : b ≠ .opening .parens) : ParensClosed [b] := by
  intro before after heq
  cases before with
  | nil => exact absurd (List.cons.inj heq).1 h
  | cons b before => simp at heq

theorem parensClosed_parens : ParensClosed [.opening .parens, .closing .parens] := by
  intro before after heq
  cases before with
  | nil =>
    obtain ⟨-, rfl⟩ := List.cons.inj heq
    rfl
  | cons b before =>
    obtain ⟨-, heq⟩ := List.cons.inj heq
    exact absurd heq (by cases before <;> simp)

end Bracket

namespace Terminal

def bracket? : Terminal → Option Bracket
  | .mark p => p.bracket?
  | _ => none

/-- The terminals that may stand between brackets: all but the brackets and the signs that the
grammar does not name. -/
def isInner : Terminal → Bool
  | .mark .comma => true
  | .mark .semicolon => true
  | .sign _ => false
  | _ => true

theorem bracket?_of_isInner {t : Terminal} (h : t.isInner = true) : t.bracket? = none := by
  unfold isInner at h
  split at h <;> simp_all [bracket?, Punctuation.bracket?]

theorem isInner_of_isOperand {t : Terminal} (h : t.isOperand = true) : t.isInner = true := by
  cases t <;> simp_all [isOperand, isInner]

theorem isInner_of_accepts {t : Terminal} (h : TerminatorPolicy.semicolonOnly.accepts t = true) :
    t.isInner = true := by
  unfold TerminatorPolicy.accepts at h
  split at h <;> simp_all [isInner]

end Terminal

structure Orderly (text : List Terminal) : Prop where
  /-- There are no signs but brackets, commas and semicolons. -/
  plain : ∀ t ∈ text, t.isInner = true ∨ t.bracket?.isSome = true
  balanced : Bracket.Balanced (text.filterMap Terminal.bracket?)
  closed : Bracket.ParensClosed (text.filterMap Terminal.bracket?)

namespace Orderly
variable {text inside body : List Terminal} {t : Terminal}

theorem nil : Orderly [] where
  plain := by simp
  balanced := .nil
  closed := by simp [Bracket.ParensClosed]

theorem append (h : Orderly text) (hbody : Orderly body) : Orderly (text ++ body) where
  plain t ht := by
    rcases List.mem_append.mp ht with ht | ht
    · exact h.plain t ht
    · exact hbody.plain t ht
  balanced := by
    rw [List.filterMap_append]
    exact h.balanced.append hbody.balanced
  closed := by
    rw [List.filterMap_append]
    exact h.closed.append hbody.closed

theorem cons (h : t.isInner = true) (hbody : Orderly body) : Orderly (t :: body) := by
  have hword : (t :: body).filterMap Terminal.bracket? = body.filterMap Terminal.bracket? :=
    List.filterMap_cons_none (Terminal.bracket?_of_isInner h)
  refine ⟨?_, ?_, ?_⟩
  · rintro u (_ | ⟨_, hu⟩)
    · exact .inl h
    · exact hbody.plain u hu
  · rw [hword]
    exact hbody.balanced
  · rw [hword]
    exact hbody.closed

private theorem plain_between {left right : Terminal} (hleft : left.bracket?.isSome = true)
    (hright : right.bracket?.isSome = true)
    (h : ∀ t ∈ inside, t.isInner = true ∨ t.bracket?.isSome = true) :
    ∀ t ∈ left :: (inside ++ [right]), t.isInner = true ∨ t.bracket?.isSome = true := by
  simp only [List.mem_cons, List.mem_append, List.not_mem_nil, or_false]
  rintro t (rfl | ht | rfl)
  · exact .inr hleft
  · exact h t ht
  · exact .inr hright

/-- Parentheses with no bracket between them, and what follows. -/
theorem header (h : ∀ t ∈ inside, t.isInner = true) (hbody : Orderly body) :
    Orderly (.mark .leftParen :: (inside ++ .mark .rightParen :: body)) := by
  have hnone : inside.filterMap Terminal.bracket? = [] := by
    rw [List.filterMap_eq_nil_iff]
    exact fun t ht => Terminal.bracket?_of_isInner (h t ht)
  have hword : (Terminal.mark .leftParen :: (inside ++ [.mark .rightParen])).filterMap
      Terminal.bracket? = [.opening .parens, .closing .parens] := by
    simp [List.filterMap_append, hnone, Terminal.bracket?, Punctuation.bracket?]
  have hparens : Orderly (.mark .leftParen :: (inside ++ [.mark .rightParen])) := by
    refine ⟨plain_between rfl rfl fun t ht => .inl (h t ht), ?_, ?_⟩
    · rw [hword]
      exact .pair .nil .nil
    · rw [hword]
      exact Bracket.parensClosed_parens
  have hall := hparens.append hbody
  rwa [List.cons_append, List.append_assoc, List.singleton_append] at hall

/-- Braces around a text whose brackets are in order. -/
theorem block (h : Orderly inside) :
    Orderly (.mark .leftBrace :: (inside ++ [.mark .rightBrace])) := by
  have hword : (Terminal.mark .leftBrace :: (inside ++ [.mark .rightBrace])).filterMap
      Terminal.bracket? =
      [.opening .braces] ++ (inside.filterMap Terminal.bracket? ++ [.closing .braces]) := by
    simp [List.filterMap_append, Terminal.bracket?, Punctuation.bracket?]
  refine ⟨plain_between rfl rfl h.plain, ?_, ?_⟩
  · rw [hword]
    exact .pair h.balanced .nil
  · rw [hword]
    have hopening : Bracket.ParensClosed [.opening .braces] :=
      Bracket.parensClosed_singleton (by simp)
    have hclosing : Bracket.ParensClosed [.closing .braces] :=
      Bracket.parensClosed_singleton (by simp)
    exact hopening.append (h.closed.append hclosing)

theorem condition (h : t.isOperand = true) (hbody : Orderly body) :
    Orderly (.mark .leftParen :: t :: .mark .rightParen :: body) := by
  have hinside : ∀ u ∈ [t], u.isInner = true := by
    simpa using Terminal.isInner_of_isOperand h
  exact header hinside hbody

end Orderly

theorem Derives.isInner_parameters {text : List Terminal}
    (h : Derives .semicolonOnly .parameters text) : ∀ t ∈ text, t.isInner = true := by
  generalize hp : Phrase.parameters = phrase at h
  induction h with
  | noParameters => simp
  | parameter _ ih => simpa [Terminal.isInner] using ih rfl
  | parameterComma _ ih => simpa [Terminal.isInner] using ih rfl
  | _ => cases hp

/-- What the grammar derives has its brackets in order. -/
theorem Derives.orderly {phrase : Phrase} {text : List Terminal}
    (h : Derives .semicolonOnly phrase text) : Orderly text := by
  open Orderly Terminal in
  induction h with
  | noStatements => exact nil
  | moreStatements _ _ ihf ihr => exact ihf.append ihr
  | expression hv hl => exact cons (isInner_of_isOperand hv) (cons (isInner_of_accepts hl) nil)
  | declaration _ hl => exact cons rfl (cons rfl (cons (isInner_of_accepts hl) nil))
  | initialization _ hv hl =>
    exact cons rfl (cons rfl (cons rfl (cons (isInner_of_isOperand hv)
      (cons (isInner_of_accepts hl) nil))))
  | function hn _ _ ihb => exact cons rfl (cons rfl (header hn.isInner_parameters ihb))
  | loop hv _ ihb => exact cons rfl (condition hv ihb)
  | choice _ ih => exact ih
  | ifOnly hv _ ihb => exact cons rfl (condition hv ihb)
  | ifElse hv _ _ ihb iho => exact cons rfl (condition hv (ihb.append (cons rfl iho)))
  | ifElseIf hv _ _ ihb iho => exact cons rfl (condition hv (ihb.append (cons rfl iho)))
  | braces _ ih => exact ih.block
  | noParameters => exact nil
  | parameter _ ih => exact cons rfl ih
  | parameterComma _ ih => exact cons rfl (cons rfl ih)

namespace Token
variable {t : Token}

theorem bracket?_terminal (t : Token) : t.terminal.bracket? = t.bracket? := by
  cases hp : t.punctuation? with
  | some p =>
    rw [terminal_eq_mark.mpr hp, bracket?, hp]
    rfl
  | none =>
    rw [bracket?, hp]
    cases ht : t.terminal with
    | sign m =>
      have hm : none = m := hp ▸ (terminal_eq_sign.mp ht).2
      rw [← hm]
      rfl
    | _ => rfl

theorem text_of_punctuation? {p : Punctuation} (h : t.punctuation? = some p) :
    t.text = p.spelling := by
  unfold punctuation? at h
  split at h
  · exact (Punctuation.ofSpelling?_eq_some_iff.mp h).symm
  · cases h

/-- The signs of an orderly text are the four brackets and the two separators. -/
theorem text_of_plain (hk : t.kind = .punctuation)
    (h : t.terminal.isInner = true ∨ t.terminal.bracket?.isSome = true) :
    t.text ∈ ["(", ")", "\x7b", "\x7d", ",", ";"] := by
  rw [terminal_eq_sign.mpr ⟨hk, rfl⟩] at h
  cases hp : t.punctuation? with
  | none => simp [hp, Terminal.isInner, Terminal.bracket?] at h
  | some p =>
    rw [text_of_punctuation? hp]
    rw [hp] at h
    cases p with
    | leftBracket => simp [Terminal.isInner, Terminal.bracket?, Punctuation.bracket?] at h
    | rightBracket => simp [Terminal.isInner, Terminal.bracket?, Punctuation.bracket?] at h
    | _ => decide

end Token

theorem brackets_eq (tokens : List Token) :
    brackets tokens = (terminals tokens).filterMap Terminal.bracket? := by
  rw [brackets, terminals_eq, List.filterMap_map]
  congr 1
  funext t
  exact t.bracket?_terminal.symm

/-- If a strict check finds nothing wrong, all punctuation before the end mark is parentheses,
braces, commas and semicolons; the parentheses and braces form a balanced word; and between a
parenthesis and its partner there is neither a brace nor another parenthesis. -/
theorem clean_brackets_nest {tokens : List Token}
    (h : (checkTokens .semicolonOnly tokens).isClean = true) :
    (∀ t ∈ beforeEnd tokens, t.kind = .punctuation →
      t.text ∈ ["(", ")", "\x7b", "\x7d", ",", ";"]) ∧
    Bracket.Balanced (brackets tokens) ∧ Bracket.ParensEmpty (brackets tokens) := by
  have htrace : Goal.trace .semicolonOnly [] 0 (terminals tokens) = [] := by
    rw [Outcome.isClean, errorCount_checkTokens, beq_iff_eq] at h
    exact List.eq_nil_of_length_eq_zero h
  have horderly := ((trace_eq_nil_iff .semicolonOnly (terminals tokens) 0).mp htrace).orderly
  refine ⟨?_, ?_, ?_⟩
  · intro t ht hk
    have hmem : t.terminal ∈ terminals tokens := by
      rw [terminals_eq]
      exact List.mem_map_of_mem ht
    exact Token.text_of_plain hk (horderly.plain _ hmem)
  · rw [brackets_eq]
    exact horderly.balanced
  · rw [brackets_eq]
    exact horderly.closed.parensEmpty

/-- The tokens of `while (x) { if (y) { } else { } }`. -/
def loopedChoice : List Token :=
  [⟨.keyword, "while", ⟨1, 1⟩⟩, ⟨.punctuation, "(", ⟨1, 7⟩⟩, ⟨.identifier, "x", ⟨1, 8⟩⟩,
    ⟨.punctuation, ")", ⟨1, 9⟩⟩, ⟨.punctuation, "\x7b", ⟨1, 11⟩⟩, ⟨.keyword, "if", ⟨1, 13⟩⟩,
    ⟨.punctuation, "(", ⟨1, 16⟩⟩, ⟨.identifier, "y", ⟨1, 17⟩⟩, ⟨.punctuation, ")", ⟨1, 18⟩⟩,
    ⟨.punctuation, "\x7b", ⟨1, 20⟩⟩, ⟨.punctuation, "\x7d", ⟨1, 22⟩⟩, ⟨.keyword, "else", ⟨1, 24⟩⟩,
    ⟨.punctuation, "\x7b", ⟨1, 29⟩⟩, ⟨.punctuation, "\x7d", ⟨1, 31⟩⟩,
    ⟨.punctuation, "\x7d", ⟨1, 33⟩⟩]

theorem clean_brackets_nest_loopedChoice :
    (checkTokens .semicolonOnly loopedChoice).isClean = true ∧
    (⟨.punctuation, "\x7b", ⟨1, 29⟩⟩ ∈ beforeEnd loopedChoice ∧
      "\x7b" ∈ ["(", ")", "\x7b", "\x7d", ",", ";"]) ∧
    Bracket.Balanced [.opening .parens, .closing .parens, .opening .braces, .opening .parens,
      .closing .parens, .opening .braces, .closing .braces, .opening .braces, .closing .braces,
      .closing .braces] ∧
    Bracket.ParensEmpty (brackets loopedChoice) := by
  have hclean : (checkTokens .semicolonOnly loopedChoice).isClean = true := by
    rw [checkTokens_eq_trace]
    decide
  have hmem : ⟨.punctuation, "\x7b", ⟨1, 29⟩⟩ ∈ beforeEnd loopedChoice := by decide
  have hbrackets : brackets loopedChoice = [.opening .parens, .closing .parens, .opening .braces,
      .opening .parens, .closing .parens, .opening .braces, .closing .braces, .opening .braces,
      .closing .braces, .closing .braces] := by
    decide
  obtain ⟨hsigns, hbalanced, hempty⟩ := clean_brackets_nest hclean
  rw [hbrackets] at hbalanced
  exact ⟨hclean, ⟨hmem, hsigns _ hmem rfl⟩, hbalanced, hempty⟩

/-- Where any punctuation ends a statement, `x )` is a program. -/
example : (checkTokens .anyPunctuation
      [⟨.identifier, "x", ⟨1, 1⟩⟩, ⟨.punctuation, ")", ⟨1, 3⟩⟩]).isClean = true ∧
    brackets [⟨.identifier, "x", ⟨1, 1⟩⟩, ⟨.punctuation, ")", ⟨1, 3⟩⟩] = [.closing .parens] := by
  rw [checkTokens_eq_trace]
  decide

end SyntaxAudit
