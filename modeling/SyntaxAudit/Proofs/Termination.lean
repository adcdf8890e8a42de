import Mathlib.Logic.Function.Iterate
import SyntaxAudit.Proofs.Driving
import SyntaxAudit.Proofs.ScannedTokens

/-! Every check comes to an end, and it ends where the input does. A production calls others only
behind a token that it has taken, or hands the same tokens on to one that takes the first of
them. -/
namespace SyntaxAudit

namespace Checker
variable {c : Checker} {tokens : List Token}

/-- The loop of statements comes to an end, and has then done the whole check. -/
theorem program_eq_iterate (c : Checker) : ∃ n ≤ c.left, c.program = statement^[n] c := by
  refine statement_induction c ?none ?some
  case none =>
    intro c hc
    exact ⟨0, Nat.zero_le _, program_of_none hc⟩
  case some =>
    intro c hc ⟨n, hle, hiterate⟩
    have hlt := left_statement_lt hc
    refine ⟨n + 1, by omega, ?_⟩
    rw [Function.iterate_succ_apply, ← hiterate, program_statement]

/-- What remains for a consistent check are the tokens from the cursor on. -/
theorem Consistent.left_eq (h : c.Consistent tokens) :
    c.left = if c.current?.isSome then tokens.length - c.cursor else 0 := by
  have hsize : c.tokens.size = tokens.length := by rw [h.tokens_eq, List.size_toArray]
  rw [left, hsize]
  cases hc : c.current? with
  | none => rfl
  | some t =>
    obtain ⟨hlt, -⟩ := List.getElem?_eq_some_iff.mp ((h.current t).mp hc).1
    simp only [Option.isSome_some, if_true]
    omega

theorem Consistent.cursor_le_end (h : c.Consistent tokens) :
    c.cursor ≤ tokens.findIdx Token.isEnd := by
  rw [← Nat.not_lt]
  intro hpassed
  have hlt := Nat.lt_of_lt_of_le hpassed h.cursor_le
  have hmark : (tokens[tokens.findIdx Token.isEnd]).isEnd = true := List.findIdx_getElem
  rw [h.unmarked _ (List.mem_take_iff_getElem.mpr ⟨_, by omega, rfl⟩)] at hmark
  cases hmark

/-- Only the end of the input has no current token. -/
theorem Consistent.cursor_eq_end (h : c.Consistent tokens) (hc : c.current? = none) :
    c.cursor = tokens.findIdx Token.isEnd := by
  have hle := h.cursor_le_end
  rcases Nat.lt_or_eq_of_le hle with hlt | heq
  · have hlength := Nat.lt_of_lt_of_le hlt List.findIdx_le_length
    have hunmarked : (tokens[c.cursor]).isEnd = false := by
      simpa using List.not_of_lt_findIdx hlt
    have hcurrent := (h.current _).mpr ⟨List.getElem?_eq_getElem hlength, hunmarked⟩
    rw [hc] at hcurrent
    cases hcurrent
  · exact heq

end Checker

/-- Of a scanned text a check takes everything but the end mark. -/
theorem consumed_of_scan {options : ScanOptions} {source : String} {tokens : List Token}
    (h : scan options source = .ok tokens) (policy : TerminatorPolicy) :
    (checkTokens policy tokens).consumed + (if options.markEnd then 1 else 0) =
      (checkTokens policy tokens).tokenCount := by
  obtain ⟨body, rfl, hbody, -⟩ := tokens_of_scan h
  rw [tokenCount_checkTokens, consumed_checkTokens, terminals_endTokens hbody, List.length_map,
    List.length_append, ScanOptions.endTokens]
  split <;> rfl

/-- The productions call each other as their code says. Every production returns, whatever state it
is called in, and a statement takes at least one token if there is any. A production never needs a
callee for which as many tokens remain as for itself, except that a loop calls its statement and a
statement its construct; so the recursion is well-founded on the number of tokens that remain. A
check, which is a loop of statements, ends at the first end mark, or behind the last token if there
is none. -/
theorem check_ends_with_input (policy : TerminatorPolicy) :
    (∀ p : Production, p.parse = p.body Production.parse) ∧
    (∀ (p : Production) (c : Checker),
      ∃ result d, p.parse c = some (result, d) ∧ c.cursor ≤ d.cursor) ∧
    (∀ c : Checker, c.current?.isSome = true →
      Production.statement.parse c = some (.ok (), c.statement) ∧
      c.cursor < c.statement.cursor) ∧
    (∀ (p : Production) (c : Checker),
      p.parse c = p.body (fun q d => if q.Below d p c then q.parse d else none) c) ∧
    WellFounded (fun callee caller : Production × Checker =>
      callee.1.Below callee.2 caller.1 caller.2) ∧
    (∀ (tokens : List Token) (c : Checker), c.Consistent tokens →
      c.left = (if c.current?.isSome then tokens.length - c.cursor else 0) ∧
      c.statement.cursor ≤ tokens.findIdx Token.isEnd ∧
      c.program.cursor = tokens.findIdx Token.isEnd ∧
      ∃ n ≤ c.left, c.program = Checker.statement^[n] c) ∧
    (∀ tokens : List Token, (checkTokens policy tokens).consumed = tokens.findIdx Token.isEnd) ∧
    ∀ (options : CheckOptions) (source : String) (tokens : List Token),
      scan options.scan source = .ok tokens →
      ∃ outcome, checkSource options source = .ok outcome ∧
        outcome.consumed + (if options.scan.markEnd then 1 else 0) = outcome.tokenCount := by
  refine ⟨Production.parse_eq_body, ?_, ?_, Production.parse_eq_guarded,
    Production.wellFounded_below, ?_, ?_, ?_⟩
  · intro p c
    obtain ⟨result, d, hd, hsteps, -⟩ := p.takes_parse c
    exact ⟨result, d, hd, hsteps.cursor_le⟩
  · intro c hc
    exact ⟨c.parse_statement, Checker.cursor_lt_statement hc⟩
  · intro tokens c hc
    refine ⟨hc.left_eq, (hc.steps c.steps_statement).cursor_le_end, ?_, c.program_eq_iterate⟩
    exact (hc.steps c.steps_program).cursor_eq_end c.current?_program
  · intro tokens
    rw [consumed_checkTokens, length_terminals]
  · intro options source tokens h
    exact ⟨_, checkSource_of_scan h, consumed_of_scan h options.terminator⟩

/-- The tokens of `let let = ; while`, where almost nothing is in its place. -/
def misplaced : List Token :=
  [⟨.keyword, "let", ⟨1, 1⟩⟩, ⟨.keyword, "let", ⟨1, 5⟩⟩, ⟨.operator, "=", ⟨1, 9⟩⟩,
    ⟨.punctuation, ";", ⟨1, 11⟩⟩, ⟨.keyword, "while", ⟨1, 13⟩⟩, ⟨.endOfInput, "", ⟨1, 18⟩⟩]

theorem check_ends_misplaced :
    2 < (Checker.mk .semicolonOnly misplaced.toArray 2 misplaced[2]? 0 #[]).statement.cursor ∧
    (Checker.ofTokens .semicolonOnly misplaced).program.cursor = 5 ∧
    ∃ outcome, checkSource {} "let let = ; while" = .ok outcome ∧
      outcome.consumed + 1 = outcome.tokenCount := by
  obtain ⟨-, -, hmoves, -, -, hstops, -, hsource⟩ := check_ends_with_input .semicolonOnly
  have hmoved := (hmoves (Checker.mk .semicolonOnly misplaced.toArray 2 misplaced[2]? 0 #[])
    (by decide)).2
  have hconsistent := Checker.consistent_ofTokens .semicolonOnly misplaced
  have hitems : items {} "let let = ; while" = misplaced.map .token := by decide +kernel
  have hscan : scan {} "let let = ; while" = .ok misplaced := by
    rw [scan, hitems]
    rfl
  exact ⟨hmoved, (hstops _ _ hconsistent).2.2.1, hsource {} _ _ hscan⟩

end SyntaxAudit
