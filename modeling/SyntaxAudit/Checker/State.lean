import SyntaxAudit.Grammar.Terminal
import SyntaxAudit.Outcome

/-! The state of a check: a cursor before one of the tokens, that token itself, and the violations
that have been recorded, with their number. Only taking a token and recording a violation change
it. -/
namespace SyntaxAudit

/-- A kind of violation and the index of the token at which it was detected. At the end of the input
that is the index behind the last token that was taken. -/
structure Report where
  kind : ViolationKind
  index : Nat
deriving DecidableEq

structure Detection extends Violation where
  index : Nat
deriving DecidableEq

def Detection.report (d : Detection) : Report :=
  ⟨d.kind, d.index⟩

/-- A check of a fixed sequence of tokens. The current token and the number of violations are kept
beside the cursor and the violations, and it is up to the code to keep them right. -/
structure Checker where
  policy : TerminatorPolicy
  tokens : Array Token
  cursor : Nat
  /-- The token at the cursor; there is none at an end mark or behind the last token. -/
  current? : Option Token
  errorCount : Nat
  detections : Array Detection
deriving DecidableEq

namespace Checker

/-- The place of the token with the given index. Behind the last token it is the place of the
last token, and a text without tokens has only its start. -/
def positionAt (tokens : Array Token) (index : Nat) : Position :=
  match tokens[index]? with
  | some t => t.position
  | none => (tokens.back?.map Token.position).getD .start

theorem positionAt_of_getElem? {tokens : List Token} {i : Nat} {t : Token}
    (h : tokens[i]? = some t) : positionAt tokens.toArray i = t.position := by
  simp [positionAt, h]

theorem positionAt_length {tokens : List Token} {t : Token} (h : tokens.getLast? = some t) :
    positionAt tokens.toArray tokens.length = t.position := by
  simp [positionAt, h]

def peek (c : Checker) : Option Token :=
  c.tokens[c.cursor]?.filter (!·.isEnd)

def refresh (c : Checker) : Checker :=
  { c with current? := c.peek }

def ofTokens (policy : TerminatorPolicy) (tokens : List Token) : Checker :=
  refresh ⟨policy, tokens.toArray, 0, none, 0, #[]⟩

def advance (c : Checker) : Checker :=
  if c.current?.isSome then { c with cursor := c.cursor + 1 }.refresh else c

theorem advance_of_isSome {c : Checker} (h : c.current?.isSome = true) :
    c.advance = { c with cursor := c.cursor + 1 }.refresh :=
  if_pos h

theorem advance_of_none {c : Checker} (h : c.current? = none) : c.advance = c := by
  rw [advance, h]
  rfl

theorem cursor_advance {c : Checker} (h : c.current?.isSome = true) :
    c.advance.cursor = c.cursor + 1 := by
  rw [advance_of_isSome h]
  rfl

/-- How many tokens remain: the current one and those behind it. At the end of the input there are
none. -/
def left (c : Checker) : Nat :=
  if c.current?.isSome then 1 + (c.tokens.size - (c.cursor + 1)) else 0

theorem left_advance_lt {c : Checker} (h : c.current?.isSome = true) : c.advance.left < c.left := by
  have hmoved : c.advance.left =
      if c.tokens[c.cursor + 1]?.filter (!·.isEnd) |>.isSome then
        1 + (c.tokens.size - (c.cursor + 1 + 1)) else 0 := by
    rw [advance_of_isSome h]
    rfl
  rw [hmoved, left, if_pos h]
  split
  · rename_i hnext
    obtain ⟨t, ht⟩ := Option.isSome_iff_exists.mp hnext
    have hlt : c.cursor + 1 < c.tokens.size := by
      have hget := (Option.filter_eq_some_iff.mp ht).1
      exact (Array.getElem?_eq_some_iff.mp hget).1
    omega
  · omega

/-- A violation of the given kind, detected here and not yet recorded. -/
def detect (c : Checker) (kind : ViolationKind) : Detection :=
  ⟨⟨kind, positionAt c.tokens c.cursor⟩, c.cursor⟩

def record (c : Checker) (d : Detection) : Checker :=
  { c with errorCount := c.errorCount + 1, detections := c.detections.push d }

theorem advance_record (c : Checker) (d : Detection) :
    (c.record d).advance = c.advance.record d := by
  cases hc : c.current? with
  | none => rw [advance_of_none hc, advance_of_none (c := c.record d) hc]
  | some t =>
    have hsome : c.current?.isSome = true := by rw [hc]; rfl
    rw [advance_of_isSome hsome, advance_of_isSome (c := c.record d) hsome]
    rfl

def reports (c : Checker) : Array Report :=
  c.detections.map Detection.report

def violations (c : Checker) : List Violation :=
  c.detections.toList.map Detection.toViolation

def outcome (c : Checker) : Outcome :=
  ⟨c.violations, c.errorCount, c.cursor, c.tokens.size⟩

end Checker

end SyntaxAudit
