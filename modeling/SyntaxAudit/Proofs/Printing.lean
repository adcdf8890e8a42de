import SyntaxAudit.Proofs.Detection
import SyntaxAudit.Proofs.Recognition
import SyntaxAudit.Proofs.ScannedTokens
import SyntaxAudit.Proofs.Spelling

/-! Programs as trees, and their printed form: the words of the tree with white space of any sort
and length between them. A check of a printed program takes all its words and reports nothing. -/
namespace SyntaxAudit

/-- A token as a program is written with: a text that is read as one token wherever it stands apart
from others, and that the grammar gets to see. -/
structure Word where
  kind : TokenKind
  text : List Char
  stands : Lexeme.Stands kind text
  ne_comment : kind ≠ .comment
  ne_endOfInput : kind ≠ .endOfInput

namespace Word

def tokenAt (w : Word) (p : Position) : Token :=
  ⟨w.kind, String.ofList w.text, p⟩

def terminal (w : Word) : Terminal :=
  (w.tokenAt .start).terminal

def keyword (k : Keyword) : Word :=
  ⟨.keyword, k.spelling.toList, Lexeme.stands_keyword k, by decide, by decide⟩

def mark (p : Punctuation) : Word :=
  ⟨.punctuation, [p.char], Lexeme.stands_mark p, by decide, by decide⟩

def assign : Word :=
  ⟨.operator, ['='], Lexeme.stands_assign, by decide, by decide⟩

theorem terminal_tokenAt (w : Word) (p : Position) : (w.tokenAt p).terminal = w.terminal := rfl

theorem isEnd_tokenAt (w : Word) (p : Position) : (w.tokenAt p).isEnd = false := by
  simp [tokenAt, Token.isEnd, w.ne_endOfInput]

@[simp] theorem terminal_keyword (k : Keyword) : (keyword k).terminal = .word k := by
  refine Token.terminal_eq_keyword.mpr ⟨rfl, ?_⟩
  simp [tokenAt, keyword, Token.keyword?, Keyword.ofSpelling?_spelling]

@[simp] theorem terminal_mark (p : Punctuation) : (mark p).terminal = .mark p :=
  Token.terminal_eq_mark.mpr (Punctuation.ofSpelling?_spelling p)

@[simp] theorem terminal_assign : assign.terminal = .assign := rfl

end Word

structure Operand where
  kind : TokenKind
  text : List Char
  isOperand : kind.isOperand = true
  spells : Lexeme.Spells kind text

def Operand.word (o : Operand) : Word where
  kind := o.kind
  text := o.text
  stands := Lexeme.stands_of_spells o.spells
  ne_comment h := by simpa [h, TokenKind.isOperand] using o.isOperand
  ne_endOfInput h := by simpa [h, TokenKind.isOperand] using o.isOperand

theorem Operand.isOperand_word (o : Operand) : o.word.terminal.isOperand = true :=
  (Token.isOperand_terminal _).trans o.isOperand

structure Name where
  text : List Char
  spells : Lexeme.Spells .identifier text

def Name.word (n : Name) : Word :=
  (Operand.mk .identifier n.text rfl n.spells).word

@[simp] theorem Name.terminal_word (n : Name) : n.word.terminal = .name := rfl

def Name.x : Name where
  text := ['x']
  spells := by
    refine ⟨by decide, ?_, ?_⟩
    · intro k
      cases k <;> decide
    · intro w
      cases w <;> decide

theorem exists_operand {t : Terminal} (h : t.isOperand = true) :
    ∃ o : Operand, o.word.terminal = t := by
  cases t with
  | name => exact ⟨⟨.identifier, Name.x.text, rfl, Name.x.spells⟩, rfl⟩
  | literal =>
    exact ⟨⟨.number, ['0'], rfl, ['0'], by simp, List.forall_mem_singleton.mpr rfl, .inl rfl⟩, rfl⟩
  | _ => cases h

structure Opener where
  keyword : Keyword
  declares : keyword.declaresVariable = true

inductive Tree : Phrase → Type
  | noStatements : Tree .statements
  | moreStatements (first : Tree .statement) (rest : Tree .statements) : Tree .statements
  | expression (value : Operand) : Tree .statement
  | declaration (opener : Opener) (name : Name) : Tree .statement
  | initialization (opener : Opener) (name : Name) (value : Operand) : Tree .statement
  | function (name : Name) (names : Tree .parameters) (body : Tree .block) : Tree .statement
  | loop (condition : Operand) (body : Tree .block) : Tree .statement
  | choice (conditional : Tree .conditional) : Tree .statement
  | ifOnly (condition : Operand) (body : Tree .block) : Tree .conditional
  | ifElse (condition : Operand) (body other : Tree .block) : Tree .conditional
  | ifElseIf (condition : Operand) (body : Tree .block) (other : Tree .conditional) :
      Tree .conditional
  | braces (body : Tree .statements) : Tree .block
  | noParameters : Tree .parameters
  | parameter (name : Name) (rest : Tree .parameters) : Tree .parameters
  /-- A parameter with a comma behind it, which the last one may have too. -/
  | parameterComma (name : Name) (rest : Tree .parameters) : Tree .parameters

namespace Tree

def words : {phrase : Phrase} → Tree phrase → List Word
  | _, noStatements => []
  | _, moreStatements first rest => first.words ++ rest.words
  | _, expression value => [value.word, .mark .semicolon]
  | _, declaration opener name => [.keyword opener.keyword, name.word, .mark .semicolon]
  | _, initialization opener name value =>
    [.keyword opener.keyword, name.word, .assign, value.word, .mark .semicolon]
  | _, function name names body =>
    .keyword .kwFunction :: name.word :: .mark .leftParen ::
      (names.words ++ .mark .rightParen :: body.words)
  | _, loop condition body =>
    .keyword .kwWhile :: .mark .leftParen :: condition.word :: .mark .rightParen :: body.words
  | _, choice conditional => conditional.words
  | _, ifOnly condition body =>
    .keyword .kwIf :: .mark .leftParen :: condition.word :: .mark .rightParen :: body.words
  | _, ifElse condition body other =>
    .keyword .kwIf :: .mark .leftParen :: condition.word :: .mark .rightParen ::
      (body.words ++ .keyword .kwElse :: other.words)
  | _, ifElseIf condition body other =>
    .keyword .kwIf :: .mark .leftParen :: condition.word :: .mark .rightParen ::
      (body.words ++ .keyword .kwElse :: other.words)
  | _, braces body => .mark .leftBrace :: (body.words ++ [.mark .rightBrace])
  | _, noParameters => []
  | _, parameter name rest => name.word :: rest.words
  | _, parameterComma name rest => name.word :: .mark .comma :: rest.words

/-- The grammar has the words of a tree as the construct of the tree, whatever ends a statement. -/
theorem derives (policy : TerminatorPolicy) {phrase : Phrase} (tree : Tree phrase) :
    Derives policy phrase (tree.words.map Word.terminal) := by
  have hend : policy.accepts (.mark .semicolon) = true := policy.accepts_semicolon _ rfl
  induction tree with
  | noStatements => exact .noStatements
  | moreStatements first rest hfirst hrest =>
    rw [words, List.map_append]
    exact .moreStatements hfirst hrest
  | expression value =>
    simp only [words, List.map_cons, List.map_nil, Word.terminal_mark]
    exact .expression value.isOperand_word hend
  | declaration opener name =>
    simp only [words, List.map_cons, List.map_nil, Word.terminal_keyword, Name.terminal_word,
      Word.terminal_mark]
    exact .declaration opener.declares hend
  | initialization opener name value =>
    simp only [words, List.map_cons, List.map_nil, Word.terminal_keyword, Name.terminal_word,
      Word.terminal_mark, Word.terminal_assign]
    exact .initialization opener.declares value.isOperand_word hend
  | function name names body hnames hbody =>
    simp only [words, List.map_cons, List.map_append, Word.terminal_keyword, Name.terminal_word,
      Word.terminal_mark]
    exact .function hnames hbody
  | loop condition body hbody =>
    simp only [words, List.map_cons, Word.terminal_keyword, Word.terminal_mark]
    exact .loop condition.isOperand_word hbody
  | choice conditional hconditional => exact .choice hconditional
  | ifOnly condition body hbody =>
    simp only [words, List.map_cons, Word.terminal_keyword, Word.terminal_mark]
    exact .ifOnly condition.isOperand_word hbody
  | ifElse condition body other hbody hother =>
    simp only [words, List.map_cons, List.map_append, Word.terminal_keyword, Word.terminal_mark]
    exact .ifElse condition.isOperand_word hbody hother
  | ifElseIf condition body other hbody hother =>
    simp only [words, List.map_cons, List.map_append, Word.terminal_keyword, Word.terminal_mark]
    exact .ifElseIf condition.isOperand_word hbody hother
  | braces body hbody =>
    simp only [words, List.map_cons, List.map_append, List.map_nil, Word.terminal_mark]
    exact .braces hbody
  | noParameters => exact .noParameters
  | parameter name rest hrest => exact .parameter hrest
  | parameterComma name rest hrest =>
    simp only [words, List.map_cons, Name.terminal_word, Word.terminal_mark]
    exact .parameterComma hrest

/-- Every text of the grammar in which statements end with a semicolon has a tree. -/
theorem exists_tree {phrase : Phrase} {text : List Terminal}
    (h : Derives .semicolonOnly phrase text) :
    ∃ tree : Tree phrase, tree.words.map Word.terminal = text := by
  have hlast {t : Terminal} (ht : TerminatorPolicy.semicolonOnly.accepts t = true) :
      t = .mark .semicolon := by
    unfold TerminatorPolicy.accepts at ht
    split at ht <;> simp_all
  induction h with
  | noStatements => exact ⟨noStatements, rfl⟩
  | moreStatements _ _ hfirst hrest =>
    obtain ⟨first, rfl⟩ := hfirst
    obtain ⟨rest, rfl⟩ := hrest
    exact ⟨moreStatements first rest, by simp [words]⟩
  | expression hvalue hend =>
    obtain ⟨value, rfl⟩ := exists_operand hvalue
    exact ⟨expression value, by simp [words, hlast hend]⟩
  | declaration hopener hend =>
    exact ⟨declaration ⟨_, hopener⟩ .x, by simp [words, hlast hend]⟩
  | initialization hopener hvalue hend =>
    obtain ⟨value, rfl⟩ := exists_operand hvalue
    exact ⟨initialization ⟨_, hopener⟩ .x value, by simp [words, hlast hend]⟩
  | function _ _ hnames hbody =>
    obtain ⟨names, rfl⟩ := hnames
    obtain ⟨body, rfl⟩ := hbody
    exact ⟨function .x names body, by simp [words]⟩
  | loop hcondition _ hbody =>
    obtain ⟨condition, rfl⟩ := exists_operand hcondition
    obtain ⟨body, rfl⟩ := hbody
    exact ⟨loop condition body, by simp [words]⟩
  | choice _ hconditional =>
    obtain ⟨conditional, rfl⟩ := hconditional
    exact ⟨choice conditional, rfl⟩
  | ifOnly hcondition _ hbody =>
    obtain ⟨condition, rfl⟩ := exists_operand hcondition
    obtain ⟨body, rfl⟩ := hbody
    exact ⟨ifOnly condition body, by simp [words]⟩
  | ifElse hcondition _ _ hbody hother =>
    obtain ⟨condition, rfl⟩ := exists_operand hcondition
    obtain ⟨body, rfl⟩ := hbody
    obtain ⟨other, rfl⟩ := hother
    exact ⟨ifElse condition body other, by simp [words]⟩
  | ifElseIf hcondition _ _ hbody hother =>
    obtain ⟨condition, rfl⟩ := exists_operand hcondition
    obtain ⟨body, rfl⟩ := hbody
    obtain ⟨other, rfl⟩ := hother
    exact ⟨ifElseIf condition body other, by simp [words]⟩
  | braces _ hbody =>
    obtain ⟨body, rfl⟩ := hbody
    exact ⟨braces body, by simp [words]⟩
  | noParameters => exact ⟨noParameters, rfl⟩
  | parameter _ hrest =>
    obtain ⟨rest, rfl⟩ := hrest
    exact ⟨parameter .x rest, by simp [words]⟩
  | parameterComma _ hrest =>
    obtain ⟨rest, rfl⟩ := hrest
    exact ⟨parameterComma .x rest, by simp [words]⟩

end Tree

/-- Where white space goes in a printed text: some between any two words, and perhaps some before
the first word and behind the last. -/
structure Layout where
  before : List Char
  gap : Nat → List Char
  behind : List Char
  before_blank : ∀ c ∈ before, Text.isBlank c = true
  gap_blank : ∀ i, ∀ c ∈ gap i, Text.isBlank c = true
  behind_blank : ∀ c ∈ behind, Text.isBlank c = true
  gap_ne_nil : ∀ i, gap i ≠ []

namespace Layout

/-- Words with a gap before each of them, from the `i`-th gap on, and the end of the text. -/
def spread (layout : Layout) (i : Nat) : List Word → List Char
  | [] => layout.behind
  | w :: ws => layout.gap i ++ (w.text ++ layout.spread (i + 1) ws)

def print (layout : Layout) : List Word → List Char
  | [] => layout.before ++ layout.behind
  | w :: ws => layout.before ++ (w.text ++ layout.spread 0 ws)

theorem isApart_spread (layout : Layout) (i : Nat) (ws : List Word) :
    Lexeme.IsApart (layout.spread i ws) := by
  intro b hb
  cases ws with
  | nil => exact layout.behind_blank b (List.mem_of_head? hb)
  | cons w ws =>
    obtain ⟨c, gap, hgap⟩ := List.exists_cons_of_ne_nil (layout.gap_ne_nil i)
    rw [spread, hgap] at hb
    obtain rfl : c = b := Option.some.inj hb
    apply layout.gap_blank i
    simp [hgap]

end Layout

section Reading
variable {options : ScanOptions}

/-- White space hands out nothing. -/
theorem itemsFrom_blank {gap : List Char} (hgap : ∀ c ∈ gap, Text.isBlank c = true)
    (text : List Char) (p : Position) :
    itemsFrom options p (lexemes (gap ++ text)) =
      itemsFrom options (p.after gap) (lexemes text) := by
  induction gap generalizing p with
  | nil => rfl
  | cons c gap ih =>
    obtain ⟨hc, hgap⟩ := List.forall_mem_cons.mp hgap
    have hfirst : Lexeme.first c (gap ++ text) = (⟨.blank, [c]⟩, gap ++ text) := if_pos hc
    rw [List.cons_append, lexemes_cons, hfirst, itemsFrom, Position.after_cons]
    exact ih hgap (p.next c)

theorem itemsFrom_trailing {gap : List Char} (hgap : ∀ c ∈ gap, Text.isBlank c = true)
    (p : Position) : itemsFrom options p (lexemes gap) = options.endItems (p.after gap) := by
  have hend := @itemsFrom_blank options gap hgap [] p
  rwa [List.append_nil, lexemes_nil] at hend

/-- A piece that is read in front of `rest` as a token to keep hands out that token. -/
theorem itemsFrom_token {kind : TokenKind} {text rest : List Char}
    (hkept : kind = .comment → options.keepComments = true)
    (h : lexemes (text ++ rest) = ⟨.token kind, text⟩ :: lexemes rest) (p : Position) :
    itemsFrom options p (lexemes (text ++ rest)) =
      .token ⟨kind, String.ofList text, p⟩ :: itemsFrom options (p.after text) (lexemes rest) := by
  rw [h, itemsFrom, item?_token.mpr ⟨hkept, rfl⟩]
  rfl

theorem itemsFrom_word (w : Word) {rest : List Char} (hrest : Lexeme.IsApart rest) (p : Position) :
    itemsFrom options p (lexemes (w.text ++ rest)) =
      .token (w.tokenAt p) :: itemsFrom options (p.after w.text) (lexemes rest) :=
  itemsFrom_token (fun hkind => absurd hkind w.ne_comment) (w.stands rest hrest) p

def Transcribes (options : ScanOptions) (ws : List Word) (items : List Item) : Prop :=
  ∃ (tokens : List Token) (p : Position), items = tokens.map .token ++ options.endItems p ∧
    tokens.map Token.terminal = ws.map Word.terminal ∧ ∀ t ∈ tokens, t.isEnd = false

theorem Transcribes.nil (p : Position) : Transcribes options [] (options.endItems p) :=
  ⟨[], p, rfl, rfl, by simp⟩

theorem Transcribes.cons (w : Word) (p : Position) {ws : List Word} {items : List Item}
    (h : Transcribes options ws items) :
    Transcribes options (w :: ws) (.token (w.tokenAt p) :: items) := by
  obtain ⟨tokens, q, rfl, hterminals, hend⟩ := h
  refine ⟨w.tokenAt p :: tokens, q, rfl, ?_, ?_⟩
  · rw [List.map_cons, List.map_cons, hterminals, w.terminal_tokenAt]
  · exact List.forall_mem_cons.mpr ⟨w.isEnd_tokenAt p, hend⟩

theorem transcribes_spread (layout : Layout) (i : Nat) (ws : List Word) (p : Position) :
    Transcribes options ws (itemsFrom options p (lexemes (layout.spread i ws))) := by
  induction ws generalizing i p with
  | nil =>
    rw [Layout.spread, itemsFrom_trailing layout.behind_blank]
    exact .nil _
  | cons w ws ih =>
    rw [Layout.spread, itemsFrom_blank (layout.gap_blank i),
      itemsFrom_word w (layout.isApart_spread (i + 1) ws)]
    exact (ih (i + 1) _).cons w _

/-- Printed words are read back. -/
theorem transcribes_print (layout : Layout) (ws : List Word) :
    Transcribes options ws (items options (String.ofList (layout.print ws))) := by
  rw [items, String.toList_ofList]
  cases ws with
  | nil =>
    rw [Layout.print, itemsFrom_blank layout.before_blank]
    exact transcribes_spread layout 0 [] _
  | cons w ws =>
    rw [Layout.print, itemsFrom_blank layout.before_blank,
      itemsFrom_word w (layout.isApart_spread 0 ws)]
    exact (transcribes_spread layout 0 ws _).cons w _

theorem Transcribes.collect {ws : List Word} {items : List Item}
    (h : Transcribes options ws items) :
    ∃ tokens, Item.collect items = .ok tokens ∧ terminals tokens = ws.map Word.terminal ∧
      tokens.length = ws.length + if options.markEnd then 1 else 0 := by
  obtain ⟨tokens, p, rfl, hterminals, hend⟩ := h
  have hlength := congrArg List.length hterminals
  rw [List.length_map, List.length_map] at hlength
  refine ⟨tokens ++ options.endTokens p, ?_, ?_, ?_⟩
  · rw [endItems_eq, ← List.map_append, collect_map_token]
  · rw [terminals_endTokens hend, hterminals]
  · rw [List.length_append, hlength]
    unfold ScanOptions.endTokens
    split <;> rfl

end Reading

/-- The texts of names, numbers, strings and truth values are those that a scan reads as one such
token, and the trees are those of all programs whose statements end with a semicolon. A program of
any shape, printed with such texts in any layout, has no lexical error and no violation under any
settings, and all its words are taken. -/
theorem printed_program_clean :
    (∀ (kind : TokenKind) (text : List Char), kind.isOperand = true →
      (lexemes text = [⟨.token kind, text⟩] ↔ Lexeme.Spells kind text)) ∧
    (∀ text : List Terminal, IsProgram .semicolonOnly text ↔
      ∃ program : Tree .statements, program.words.map Word.terminal = text) ∧
    ∀ (options : CheckOptions) (program : Tree .statements) (layout : Layout),
      checkSource options (String.ofList (layout.print program.words)) =
        .ok ⟨[], 0, program.words.length,
          program.words.length + if options.scan.markEnd then 1 else 0⟩ := by
  refine ⟨?_, ?_, ?_⟩
  · intro kind text hkind
    exact Lexeme.lexemes_eq_singleton_iff hkind text
  · intro text
    constructor
    · exact Tree.exists_tree
    · rintro ⟨program, rfl⟩
      exact program.derives .semicolonOnly
  · intro options program layout
    obtain ⟨tokens, htokens, hterminals, hlength⟩ :=
      (@transcribes_print options.scan layout program.words).collect
    have hclean : Goal.trace options.terminator [] 0 (terminals tokens) = [] := by
      rw [hterminals]
      exact (trace_eq_nil_iff _ _ 0).mpr (program.derives options.terminator)
    rw [checkSource_of_scan htokens, checkTokens_eq_trace, hclean, hterminals, hlength,
      List.length_map]
    rfl

def oneWithPoint : Operand :=
  ⟨.number, ['1', '.'], rfl, ['1'], by simp, List.forall_mem_singleton.mpr rfl,
    .inr ⟨[], by simp, rfl⟩⟩

def hiddenQuote : Operand :=
  ⟨.string, ['\x27', '\\', '\x27', '\x27'], rfl,
    '\x27', ['\\', '\x27'], .inr rfl, .hidden .nil, rfl⟩

/-- The tree of `let x = 1.; while (1.) { '\''; }`. -/
def pointedLoop : Tree .statements :=
  .moreStatements (.initialization ⟨.kwLet, rfl⟩ .x oneWithPoint)
    (.moreStatements (.loop oneWithPoint (.braces
      (.moreStatements (.expression hiddenQuote) .noStatements))) .noStatements)

def twoLines : Layout where
  before := []
  gap i := if i = 4 then ['\n', '\t'] else [' ']
  behind := []
  before_blank := by simp
  gap_blank i := by split <;> exact List.all_eq_true.mp rfl
  behind_blank := by simp
  gap_ne_nil i := by split <;> simp

theorem printed_program_clean_pointedLoop :
    lexemes ['1', '.'] = [⟨.token .number, ['1', '.']⟩] ∧
    checkSource {} "let x = 1. ;\n\twhile ( 1. ) \x7b '\\'' ; \x7d" = .ok ⟨[], 0, 13, 14⟩ := by
  constructor
  · exact (printed_program_clean.1 .number ['1', '.'] rfl).mpr oneWithPoint.spells
  · exact printed_program_clean.2.2 {} pointedLoop twoLines

end SyntaxAudit
