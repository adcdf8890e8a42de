import SyntaxAudit.Token

/-! Terminals: what the grammar sees of a token. Spellings matter only where the grammar names
them, and places never do. -/
namespace SyntaxAudit

/-- A token as the grammar sees it. A token of class keyword or punctuation whose text is not in
the vocabulary is still a keyword or a sign, but none that the grammar names. -/
inductive Terminal
  | keyword (word : Option Keyword)
  | name
  | literal
  | sign (mark : Option Punctuation)
  | assign
  | other
deriving DecidableEq

namespace Terminal

@[match_pattern] abbrev word (k : Keyword) : Terminal := keyword (some k)

@[match_pattern] abbrev mark (p : Punctuation) : Terminal := sign (some p)

def isOperand : Terminal → Bool
  | name | literal => true
  | _ => false

end Terminal

def Token.terminal (t : Token) : Terminal :=
  match t.kind with
  | .keyword => .keyword t.keyword?
  | .identifier => .name
  | .number | .string | .boolean => .literal
  | .punctuation => .sign t.punctuation?
  | .operator => if t.operator? = some .assign then .assign else .other
  | .endOfInput | .null | .undefined | .comment => .other

namespace Token
variable {t : Token}

private theorem terminal_operator (h : t.kind = .operator) :
    t.terminal = .assign ∨ t.terminal = .other := by
  rw [terminal, h]
  by_cases ha : t.operator? = some .assign <;> simp [ha]

theorem terminal_eq_name : t.terminal = .name ↔ t.kind = .identifier := by
  cases h : t.kind with
  | operator => rcases terminal_operator h with ho | ho <;> simp [ho]
  | _ => simp [terminal, h]

theorem terminal_eq_sign {m : Option Punctuation} :
    t.terminal = .sign m ↔ t.kind = .punctuation ∧ t.punctuation? = m := by
  cases h : t.kind with
  | operator => rcases terminal_operator h with ho | ho <;> simp [ho]
  | _ => simp [terminal, h]

theorem terminal_eq_mark {p : Punctuation} : t.terminal = .mark p ↔ t.punctuation? = some p := by
  rw [terminal_eq_sign, and_iff_right_iff_imp]
  intro h
  unfold punctuation? at h
  split at h
  · assumption
  · cases h

theorem isMark_iff {p : Punctuation} : t.isMark p = true ↔ t.terminal = .mark p := by
  rw [isMark, beq_iff_eq, terminal_eq_mark]

theorem terminal_eq_keyword {k : Option Keyword} :
    t.terminal = .keyword k ↔ t.kind = .keyword ∧ t.keyword? = k := by
  cases h : t.kind with
  | operator => rcases terminal_operator h with ho | ho <;> simp [ho]
  | _ => simp [terminal, h]

theorem isKeyword_iff {k : Keyword} : t.isKeyword k = true ↔ t.terminal = .word k := by
  rw [isKeyword, beq_iff_eq, terminal_eq_keyword, iff_and_self]
  intro h
  unfold keyword? at h
  split at h
  · assumption
  · cases h

theorem isOperator_assign_iff : t.isOperator .assign = true ↔ t.terminal = .assign := by
  rw [isOperator, beq_iff_eq]
  cases h : t.kind with
  | operator =>
    rw [terminal, h]
    by_cases ha : t.operator? = some .assign <;> simp [ha]
  | _ => simp [terminal, operator?, h]

theorem isOperand_terminal (t : Token) : t.terminal.isOperand = t.kind.isOperand := by
  cases h : t.kind with
  | operator =>
    rcases terminal_operator h with ho | ho <;> simp [ho, Terminal.isOperand, TokenKind.isOperand]
  | _ => simp [terminal, h, Terminal.isOperand, TokenKind.isOperand]

end Token

/-- The terminals of a sequence of tokens, up to the first end mark. -/
def terminals (tokens : List Token) : List Terminal :=
  (tokens.takeWhile (!·.isEnd)).map Token.terminal

theorem length_terminals (tokens : List Token) :
    (terminals tokens).length = tokens.findIdx Token.isEnd := by
  induction tokens with
  | nil => rfl
  | cons t tokens ih =>
    cases h : t.isEnd with
    | true => simp [terminals, List.findIdx_cons, h]
    | false =>
      rw [List.findIdx_cons, h, ← ih]
      simp [terminals, h]

theorem terminals_drop {tokens : List Token} {k : Nat} (h : k ≤ (terminals tokens).length) :
    terminals (tokens.drop k) = (terminals tokens).drop k := by
  induction tokens generalizing k with
  | nil => simp [terminals]
  | cons t tokens ih =>
    cases k with
    | zero => rfl
    | succ k =>
      cases ht : t.isEnd with
      | true => simp [terminals, ht] at h
      | false =>
        have hcons : terminals (t :: tokens) = t.terminal :: terminals tokens := by
          simp [terminals, ht]
        rw [hcons, List.length_cons] at h
        rw [hcons, List.drop_succ_cons, List.drop_succ_cons]
        exact ih (Nat.le_of_succ_le_succ h)

inductive TerminatorPolicy
  | anyPunctuation
  | semicolonOnly
deriving DecidableEq

def TerminatorPolicy.accepts : TerminatorPolicy → Terminal → Bool
  | anyPunctuation, .sign _ => true
  | semicolonOnly, .mark .semicolon => true
  | _, _ => false

end SyntaxAudit
