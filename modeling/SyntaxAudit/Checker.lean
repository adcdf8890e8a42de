import SyntaxAudit.Checker.Returning

/-! The check of a sequence of tokens against the grammar, statement by statement or as a whole. -/
namespace SyntaxAudit

def Production.run (p : Production) (c : Checker) : Except Detection Unit × Checker :=
  (p.parse c).get (p.isSome_parse c)

namespace Checker

def statement (c : Checker) : Checker :=
  (Production.statement.run c).2

def program (c : Checker) : Checker :=
  (Production.program.run c).2

end Checker

def checkTokens (policy : TerminatorPolicy) (tokens : List Token) : Outcome :=
  (Checker.ofTokens policy tokens).program.outcome

open Attempt

namespace Production
variable {p : Production} {c : Checker}

theorem parse_eq_run (p : Production) (c : Checker) : p.parse c = some (p.run c) :=
  (Option.some_get _).symm

theorem run_of_parse {r : Except Detection Unit × Checker} (h : p.parse c = some r) :
    p.run c = r :=
  Option.some.inj ((p.parse_eq_run c).symm.trans h)

theorem steps_run (p : Production) (c : Checker) : c.Steps (p.run c).2 := by
  obtain ⟨r, d, hd, hsteps, -⟩ := p.takes_parse c
  rw [run_of_parse hd]
  exact hsteps

end Production

namespace Checker

/-- A statement records what it gives up with, so it always succeeds. -/
theorem parse_statement (c : Checker) :
    Production.statement.parse c = some (.ok (), c.statement) := by
  have hrun := Production.statement.parse_eq_run c
  have hok : (Production.statement.run c).1 = .ok () := by
    cases hc : c.current? with
    | none => rw [Production.run_of_parse (Production.parse_statement_of_none hc)]
    | some t =>
      rw [Production.parse_statement_of_some hc, recover_run, Option.map_eq_some_iff] at hrun
      obtain ⟨⟨_ | _, d⟩, -, hrun⟩ := hrun <;> rw [← hrun]
  rw [hrun, statement, ← hok]

theorem steps_statement (c : Checker) : c.Steps c.statement :=
  Production.statement.steps_run c

theorem steps_program (c : Checker) : c.Steps c.program :=
  Production.program.steps_run c

/-- A statement takes the current token. -/
theorem cursor_lt_statement {c : Checker} (h : c.current?.isSome = true) :
    c.cursor < c.statement.cursor := by
  obtain ⟨r, d, hd, -, htaken⟩ := Production.statement.takes_parse c
  obtain ⟨t, ht⟩ := Option.isSome_iff_exists.mp h
  rw [statement, Production.run_of_parse hd]
  exact htaken (by rw [ht]; rfl)

theorem left_statement_lt {c : Checker} (h : c.current?.isSome = true) :
    c.statement.left < c.left := by
  have hcursor := cursor_lt_statement h
  have hmoved := c.steps_statement.moved
  omega

theorem statement_of_none {c : Checker} (h : c.current? = none) : c.statement = c := by
  rw [statement, Production.run_of_parse (Production.parse_statement_of_none h)]

theorem program_of_none {c : Checker} (h : c.current? = none) : c.program = c := by
  rw [program, Production.run_of_parse (Production.parse_program_of_none h)]

/-- A statement and the check of what remains behind it are the check of everything. -/
theorem program_statement (c : Checker) : c.statement.program = c.program := by
  cases h : c.current? with
  | none => rw [statement_of_none h]
  | some t =>
    have hrun := Production.parse_program_of_isSome (c := c) (by rw [h]; rfl)
    rw [bind_of_ok c.parse_statement, Production.parse_eq_run _ c.statement] at hrun
    exact congrArg Prod.snd (Production.run_of_parse hrun).symm

/-- What holds of checks at the end of the input, and of a check if it holds behind its next
statement, holds of all checks. -/
@[elab_as_elim]
theorem statement_induction {motive : Checker → Prop} (c : Checker)
    (none : ∀ c : Checker, c.current? = none → motive c)
    (some : ∀ c : Checker, c.current?.isSome = true → motive c.statement → motive c) :
    motive c := by
  induction hn : c.left using Nat.strongRecOn generalizing c with
  | ind n ih =>
    cases hc : c.current? with
    | none => exact none c hc
    | some t =>
      have hsome : c.current?.isSome = true := by rw [hc]; rfl
      exact some c hsome (ih _ (hn ▸ left_statement_lt hsome) c.statement rfl)

theorem current?_program (c : Checker) : c.program.current? = none := by
  refine statement_induction c ?none ?some
  case none =>
    intro c hc
    rw [program_of_none hc, hc]
  case some =>
    intro c _ ih
    rwa [program_statement] at ih

end Checker

end SyntaxAudit
