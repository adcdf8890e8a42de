import SyntaxAudit.Proofs.Recovery

/-! Programs that break off inside their blocks. A check misses one closing brace for each block
that is open at the end, whatever the block belongs to, and nothing else. -/
namespace SyntaxAudit

/-- The beginnings of conditionals that ask for a block next: behind a condition, or behind the
word `else`. All blocks before it are closed. -/
inductive ConditionalHeader (policy : TerminatorPolicy) : List Terminal → Prop
  | ifHead {value : Terminal} :
      value.isOperand = true →
      ConditionalHeader policy [.word .kwIf, .mark .leftParen, value, .mark .rightParen]
  | elseHead {value : Terminal} {body : List Terminal} :
      value.isOperand = true → Derives policy .block body →
      ConditionalHeader policy
        (.word .kwIf :: .mark .leftParen :: value :: .mark .rightParen ::
          (body ++ [.word .kwElse]))
  | elseIf {value : Terminal} {body other : List Terminal} :
      value.isOperand = true → Derives policy .block body → ConditionalHeader policy other →
      ConditionalHeader policy
        (.word .kwIf :: .mark .leftParen :: value :: .mark .rightParen ::
          (body ++ .word .kwElse :: other))

inductive BlockHeader (policy : TerminatorPolicy) : List Terminal → Prop
  | function {names : List Terminal} :
      Derives policy .parameters names →
      BlockHeader policy
        (.word .kwFunction :: .name :: .mark .leftParen :: (names ++ [.mark .rightParen]))
  | loop {value : Terminal} :
      value.isOperand = true →
      BlockHeader policy [.word .kwWhile, .mark .leftParen, value, .mark .rightParen]
  | choice {text : List Terminal} : ConditionalHeader policy text → BlockHeader policy text

/-- The texts that break off behind a statement, with `depth` blocks open. -/
inductive Truncated (policy : TerminatorPolicy) : Nat → List Terminal → Prop
  | closed {text : List Terminal} : Derives policy .statements text → Truncated policy 0 text
  | opened {depth : Nat} {before header inside : List Terminal} :
      Derives policy .statements before → BlockHeader policy header →
      Truncated policy depth inside →
      Truncated policy (depth + 1) (before ++ (header ++ .mark .leftBrace :: inside))

section Completion
variable {policy : TerminatorPolicy} {text body : List Terminal} {depth : Nat}

theorem ConditionalHeader.derives (h : ConditionalHeader policy text)
    (hbody : Derives policy .block body) : Derives policy .conditional (text ++ body) := by
  induction h with
  | ifHead hv => exact .ifOnly hv hbody
  | elseHead hv hthen =>
    simpa only [List.cons_append, List.append_assoc, List.nil_append] using
      Derives.ifElse hv hthen hbody
  | elseIf hv hthen _ ih =>
    simpa only [List.cons_append, List.append_assoc] using Derives.ifElseIf hv hthen ih

theorem BlockHeader.derives (h : BlockHeader policy text) (hbody : Derives policy .block body) :
    Derives policy .statement (text ++ body) := by
  cases h with
  | function hn =>
    simpa only [List.cons_append, List.append_assoc, List.nil_append] using
      Derives.function hn hbody
  | loop hv => exact .loop hv hbody
  | choice hc => exact .choice (hc.derives hbody)

theorem Derives.statements_append (h : Derives policy .statements text)
    (hbody : Derives policy .statement body) : Derives policy .statements (text ++ body) := by
  generalize hp : Phrase.statements = phrase at h
  induction h with
  | noStatements => simpa using Derives.moreStatements hbody .noStatements
  | moreStatements hf _ _ ihr =>
    rw [List.append_assoc]
    exact .moreStatements hf (ihr rfl)
  | _ => cases hp

/-- A text that breaks off inside its blocks becomes a program when they are closed. -/
theorem Truncated.derives (h : Truncated policy depth text) :
    IsProgram policy (text ++ List.replicate depth (.mark .rightBrace)) := by
  induction h with
  | closed ht => simpa [IsProgram] using ht
  | opened hbefore hheader _ ih =>
    have hall := hbefore.statements_append (hheader.derives (.braces ih))
    rw [List.replicate_succ']
    simpa only [IsProgram, List.append_assoc, List.cons_append] using hall

theorem Truncated.other_notMem (h : Truncated policy depth text) : Terminal.other ∉ text := by
  intro hm
  apply (h.derives.damaged (.none policy _)).other_notMem
  rw [Edit.edited_map_keep]
  exact List.mem_append_left _ hm

theorem BlockHeader.follows (h : BlockHeader policy text) (rest : List Terminal) :
    Follows (text ++ rest) := by
  cases h with
  | function _ => simp [Follows, Terminal.mayFollow]
  | loop _ => simp [Follows, Terminal.mayFollow]
  | choice hc => cases hc <;> simp [Follows, Terminal.mayFollow]

end Completion

section Passage
open Goal Goal.Passes
variable {grammar policy : TerminatorPolicy} {phrase : Phrase} {text : List Terminal} {depth : Nat}
  (hsub : ∀ t, grammar.accepts t = true → policy.accepts t = true)
include hsub

/-- A construct without damage is read without a report. -/
theorem Derives.recovers (h : Derives grammar phrase text) :
    Recovers policy phrase (text.map .keep) :=
  (h.damaged (.none grammar text)).recovers hsub

theorem Derives.passes_statements (h : Derives grammar .statements text) {goals : List Goal}
    {rest : List Terminal} (hb : atBoundary goals = true) (hrest : Follows rest) :
    Passes policy goals (text.map .keep) goals rest :=
  h.recovers hsub goals rest hb hrest fun _ => Edit.noneBeforeBrace_map_keep rest text

theorem Derives.passes_block (h : Derives grammar .block text) :
    ∃ tail, text = .mark .leftBrace :: tail ∧
      ∀ goals rest, Passes policy (.blockRest :: goals) (tail.map .keep) goals rest := by
  obtain ⟨es, hes, hpasses⟩ := h.recovers hsub
  obtain ⟨t, tail, rfl, ht, rfl⟩ := List.map_eq_cons_iff.mp hes
  obtain rfl := Edit.keep.inj ht
  refine ⟨tail, rfl, ?_⟩
  intro goals rest
  exact hpasses goals rest fun _ => Edit.noneBeforeBrace_map_keep rest tail

/-- Behind the header of a conditional a block is open, and below it at most the `else` that may
follow the block. -/
theorem ConditionalHeader.passes (h : ConditionalHeader grammar text) :
    ∃ tail below, text = .word .kwIf :: tail ∧ below.flatMap atEnd = [] ∧
      ∀ goals rest, Passes policy (.conditionOpen .ifHead :: goals)
        ((tail ++ [Terminal.mark .leftBrace]).map .keep) (.blockRest :: (below ++ goals)) rest := by
  induction h with
  | ifHead hv =>
    refine ⟨_, [.elseClause], rfl, rfl, ?_⟩
    intro goals rest
    exact condition hv (keep rfl refl)
  | elseHead hv hbody =>
    obtain ⟨inside, rfl, hinside⟩ := hbody.passes_block hsub
    refine ⟨_, [], rfl, rfl, ?_⟩
    intro goals rest
    simp only [List.cons_append, List.append_assoc, List.map_cons, List.map_append]
    exact condition hv (keep rfl (trans (hinside (.elseClause :: goals) _)
      (keep rfl (keep rfl refl))))
  | elseIf hv hbody _ ih =>
    obtain ⟨inside, rfl, hinside⟩ := hbody.passes_block hsub
    obtain ⟨tail, below, rfl, hbelow, hpasses⟩ := ih
    refine ⟨_, below, rfl, hbelow, ?_⟩
    intro goals rest
    simp only [List.cons_append, List.append_assoc, List.map_cons, List.map_append] at hpasses ⊢
    exact condition hv (keep rfl (trans (hinside (.elseClause :: goals) _)
      (keep rfl (keep rfl (hpasses goals rest)))))

/-- Behind the header of a statement a block is open, and nothing below it that is missed when the
input ends. -/
theorem BlockHeader.passes (h : BlockHeader grammar text) :
    ∃ below : List Goal, below.flatMap atEnd = [] ∧
      ∀ goals rest, atBoundary goals = true →
        Passes policy goals ((text ++ [Terminal.mark .leftBrace]).map .keep)
          (.blockRest :: (below ++ goals)) rest := by
  cases h with
  | function hn =>
    refine ⟨[], rfl, ?_⟩
    intro goals rest hb
    simp only [List.cons_append, List.append_assoc, List.map_cons, List.map_append]
    exact begin hb rfl (keep rfl (keep rfl (trans (hn.recovers hsub goals _ rfl).2
      (keep rfl (keep rfl refl)))))
  | loop hv =>
    refine ⟨[], rfl, ?_⟩
    intro goals rest hb
    exact begin hb rfl (condition hv (keep rfl refl))
  | choice hc =>
    obtain ⟨tail, below, rfl, hbelow, hpasses⟩ := hc.passes hsub
    refine ⟨below, hbelow, ?_⟩
    intro goals rest hb
    exact begin hb rfl (hpasses goals rest)

/-- At the end of a text that breaks off inside its blocks, the check misses a brace for each of
them, and whatever was open before the text. -/
theorem Truncated.trace (h : Truncated grammar depth text) {goals : List Goal}
    (hb : atBoundary goals = true) (index : Nat) :
    Goal.trace policy goals index text =
      (List.replicate depth ViolationKind.expectedCloseBrace ++ goals.flatMap atEnd).map
        (Report.mk · (index + text.length)) := by
  induction h generalizing goals index with
  | @closed text ht =>
    have hend : Follows [] := by simp [Follows]
    have hpasses := ht.passes_statements hsub hb hend index
    rw [Edit.edited_map_keep, Edit.reports_map_keep, List.append_nil] at hpasses
    exact hpasses
  | @opened depth before header inside hbefore hheader _ ih =>
    obtain ⟨below, hbelow, hpasses⟩ := hheader.passes hsub
    have htext : before ++ (header ++ .mark .leftBrace :: inside) =
        (before ++ (header ++ [.mark .leftBrace])) ++ inside := by simp
    have hread : Passes policy goals
        ((before ++ (header ++ [Terminal.mark .leftBrace])).map .keep)
        (.blockRest :: (below ++ goals)) inside := by
      rw [List.map_append]
      refine trans (hbefore.passes_statements hsub hb ?_) (hpasses goals inside hb)
      rw [Edit.edited_map_keep, List.append_assoc]
      exact hheader.follows _
    -- of what the header leaves open, only the block is missed at the end
    have hmissed : List.replicate (depth + 1) ViolationKind.expectedCloseBrace ++
        goals.flatMap atEnd = List.replicate depth .expectedCloseBrace ++
          (Goal.blockRest :: (below ++ goals)).flatMap atEnd := by
      simp [List.replicate_succ', hbelow, atEnd]
    have hall := hread index
    rw [Edit.edited_map_keep, Edit.reports_map_keep, List.nil_append, ih rfl] at hall
    rw [htext, hmissed, List.length_append, ← Nat.add_assoc]
    exact hall

end Passage

/-- A program that breaks off with some blocks open, each behind the header of a function, a loop or
a conditional, is taken up to its end under either policy. There one closing brace is missed for
each open block, and nothing else is reported. -/
theorem truncation_reported_per_block (policy : TerminatorPolicy) {depth : Nat}
    {tokens tail : List Token}
    (h : Truncated .semicolonOnly depth (tokens.map Token.terminal))
    (htail : ∀ t ∈ tail.head?, t.isEnd = true) :
    (Checker.ofTokens policy (tokens ++ tail)).program.reports.toList =
      List.replicate depth ⟨.expectedCloseBrace, tokens.length⟩ ∧
    checkTokens policy (tokens ++ tail) =
      ⟨List.replicate depth ⟨.expectedCloseBrace,
          Checker.positionAt (tokens ++ tail).toArray tokens.length⟩,
        depth, tokens.length, (tokens ++ tail).length⟩ := by
  have hend : ∀ t ∈ tokens, t.isEnd = false := by
    intro t hm
    rw [← Bool.not_eq_true]
    intro he
    apply h.other_notMem
    rw [← Token.terminal_of_isEnd he]
    exact List.mem_map_of_mem hm
  have hterminals := terminals_append hend htail
  have htrace : Goal.trace policy [] 0 (terminals (tokens ++ tail)) =
      List.replicate depth ⟨.expectedCloseBrace, tokens.length⟩ := by
    rw [hterminals, h.trace policy.accepts_semicolon rfl 0]
    simp
  constructor
  · rw [Checker.reports_program, htrace]
  · rw [checkTokens_eq_trace, htrace, hterminals]
    simp

/-- The tokens of `x; function f(a) { while (a) { if (a) { } else if (x) {`. -/
def brokenOff : List Token :=
  [⟨.identifier, "x", ⟨1, 1⟩⟩, ⟨.punctuation, ";", ⟨1, 2⟩⟩,
    ⟨.keyword, "function", ⟨1, 4⟩⟩, ⟨.identifier, "f", ⟨1, 13⟩⟩, ⟨.punctuation, "(", ⟨1, 14⟩⟩,
    ⟨.identifier, "a", ⟨1, 15⟩⟩, ⟨.punctuation, ")", ⟨1, 16⟩⟩, ⟨.punctuation, "\x7b", ⟨1, 18⟩⟩,
    ⟨.keyword, "while", ⟨1, 20⟩⟩, ⟨.punctuation, "(", ⟨1, 26⟩⟩, ⟨.identifier, "a", ⟨1, 27⟩⟩,
    ⟨.punctuation, ")", ⟨1, 28⟩⟩, ⟨.punctuation, "\x7b", ⟨1, 30⟩⟩,
    ⟨.keyword, "if", ⟨1, 32⟩⟩, ⟨.punctuation, "(", ⟨1, 35⟩⟩, ⟨.identifier, "a", ⟨1, 36⟩⟩,
    ⟨.punctuation, ")", ⟨1, 37⟩⟩, ⟨.punctuation, "\x7b", ⟨1, 39⟩⟩, ⟨.punctuation, "\x7d", ⟨1, 41⟩⟩,
    ⟨.keyword, "else", ⟨1, 43⟩⟩, ⟨.keyword, "if", ⟨1, 48⟩⟩, ⟨.punctuation, "(", ⟨1, 51⟩⟩,
    ⟨.identifier, "x", ⟨1, 52⟩⟩, ⟨.punctuation, ")", ⟨1, 53⟩⟩, ⟨.punctuation, "\x7b", ⟨1, 55⟩⟩]

private theorem truncated_brokenOff :
    Truncated .semicolonOnly 3 (brokenOff.map Token.terminal) := by
  have hlink : ConditionalHeader .semicolonOnly
      [.word .kwIf, .mark .leftParen, .name, .mark .rightParen] := .ifHead rfl
  have hchoice := @ConditionalHeader.elseIf _ .name _ _ rfl (.braces .noStatements) hlink
  have hthird := Truncated.opened .noStatements (.choice hchoice) (.closed .noStatements)
  have hsecond := Truncated.opened .noStatements (@BlockHeader.loop _ .name rfl) hthird
  have hstatement : Derives .semicolonOnly .statement [.name, .mark .semicolon] :=
    .expression rfl rfl
  have hfirst := Truncated.opened (.moreStatements hstatement .noStatements)
    (.function (.parameter .noParameters)) hsecond
  have hterminals : brokenOff.map Token.terminal =
      [.name, .mark .semicolon, .word .kwFunction, .name, .mark .leftParen, .name,
        .mark .rightParen, .mark .leftBrace, .word .kwWhile, .mark .leftParen, .name,
        .mark .rightParen, .mark .leftBrace, .word .kwIf, .mark .leftParen, .name,
        .mark .rightParen, .mark .leftBrace, .mark .rightBrace, .word .kwElse, .word .kwIf,
        .mark .leftParen, .name, .mark .rightParen, .mark .leftBrace] := by
    decide
  rw [hterminals]
  exact hfirst

theorem truncation_reported_brokenOff :
    checkTokens .anyPunctuation (brokenOff ++ [⟨.endOfInput, "", ⟨1, 56⟩⟩]) =
      ⟨[⟨.expectedCloseBrace, ⟨1, 56⟩⟩, ⟨.expectedCloseBrace, ⟨1, 56⟩⟩,
        ⟨.expectedCloseBrace, ⟨1, 56⟩⟩], 3, 25, 26⟩ := by
  have htail : ∀ t ∈ [Token.mk .endOfInput "" ⟨1, 56⟩].head?, t.isEnd = true := by decide
  exact (truncation_reported_per_block .anyPunctuation truncated_brokenOff htail).2

end SyntaxAudit
