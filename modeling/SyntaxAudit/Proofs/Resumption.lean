import Mathlib.Logic.Function.Iterate
import SyntaxAudit.Proofs.Composition
import SyntaxAudit.Proofs.Driving

/-! Between two statements a check remembers nothing but how far it has come. From there on it does,
step by step, what a check of the remaining tokens alone does. -/
namespace SyntaxAudit

namespace Progress
variable {policy : TerminatorPolicy}

/-- The same progress behind `n` more tokens, about which reports have been made earlier. -/
def shifted (s : Progress) (n : Nat) (earlier : Array Report) : Progress :=
  ⟨n + s.cursor, s.goals, earlier ++ s.reports.map (Report.shifted n)⟩

theorem reported_shifted (s : Progress) (n : Nat) (earlier : Array Report)
    (kinds : List ViolationKind) :
    (s.shifted n earlier).reported kinds =
      earlier ++ (s.reported kinds).map (Report.shifted n) := by
  have hkinds : kinds.map (Report.mk · (n + s.cursor)) =
      (kinds.map (Report.mk · s.cursor)).map (Report.shifted n) := by
    rw [List.map_map]
    rfl
  simp [reported, shifted, hkinds, ← Array.toList_inj]

theorem advance_shifted (s : Progress) (n : Nat) (earlier : Array Report)
    (kinds : List ViolationKind) (goals : List Goal) :
    (s.shifted n earlier).advance kinds goals = (s.advance kinds goals).shifted n earlier := by
  rw [advance, reported_shifted]
  rfl

theorem abandon_shifted (s : Progress) (n : Nat) (earlier : Array Report)
    (kinds : List ViolationKind) :
    (s.shifted n earlier).abandon kinds = (s.abandon kinds).shifted n earlier := by
  rw [abandon, reported_shifted]
  rfl

/-- What is open is completed in the same way behind more tokens. -/
theorem complete_shifted (s : Progress) (n : Nat) (earlier : Array Report)
    (ts : List Terminal) :
    (s.shifted n earlier).complete policy ts = (s.complete policy ts).shifted n earlier := by
  induction ts generalizing s with
  | nil => exact abandon_shifted s n earlier _
  | cons t ts ih =>
    rcases h : Goal.settle policy t s.goals with ⟨kinds, _ | goals⟩
    · have hshifted : Goal.settle policy t (s.shifted n earlier).goals = (kinds, none) := h
      rw [complete_unsettled ts h, complete_unsettled ts hshifted, abandon_shifted]
    · have hshifted : Goal.settle policy t (s.shifted n earlier).goals = (kinds, some goals) := h
      rw [complete_settled ts h, complete_settled ts hshifted, advance_shifted, ih]

theorem statement_shifted (s : Progress) (n : Nat) (earlier : Array Report)
    (ts : List Terminal) :
    (s.shifted n earlier).statement policy ts = (s.statement policy ts).shifted n earlier := by
  cases ts with
  | nil => rfl
  | cons t ts => rw [statement, statement, advance_shifted, complete_shifted]

theorem program_shifted (s : Progress) (n : Nat) (earlier : Array Report)
    (ts : List Terminal) :
    (s.shifted n earlier).program policy ts = (s.program policy ts).shifted n earlier := by
  induction ts generalizing s with
  | nil => exact abandon_shifted s n earlier _
  | cons t ts ih =>
    have hfeed : (s.shifted n earlier).feed policy t = (s.feed policy t).shifted n earlier :=
      advance_shifted s n earlier _ _
    have hstep (s : Progress) : s.program policy (t :: ts) = (s.feed policy t).program policy ts :=
      rfl
    rw [hstep, hstep, hfeed, ih]

def call (policy : TerminatorPolicy) (tokens : List Token) (s : Progress) :
    Checker.Call → Progress
  | .statement => s.statement policy (terminals (tokens.drop s.cursor))
  | .program => s.program policy (terminals (tokens.drop s.cursor))

def run (policy : TerminatorPolicy) (tokens : List Token) (s : Progress)
    (calls : List Checker.Call) : Progress :=
  calls.foldl (call policy tokens) s

theorem goals_call {tokens : List Token} {s : Progress} (hs : s.goals = []) (k : Checker.Call) :
    (s.call policy tokens k).goals = [] := by
  cases k with
  | statement => exact goals_statement policy hs _
  | program => rfl

theorem goals_run {tokens : List Token} {s : Progress} (hs : s.goals = [])
    (calls : List Checker.Call) : (s.run policy tokens calls).goals = [] := by
  induction calls generalizing s with
  | nil => exact hs
  | cons k calls ih => exact ih (goals_call hs k)

/-- A step: a call does the same behind more tokens. -/
theorem call_shifted (tokens : List Token) (s : Progress) (n : Nat) (earlier : Array Report)
    (k : Checker.Call) :
    (s.shifted n earlier).call policy tokens k =
      (s.call policy (tokens.drop n) k).shifted n earlier := by
  have hdrop : tokens.drop (s.shifted n earlier).cursor = (tokens.drop n).drop s.cursor :=
    List.drop_drop.symm
  cases k with
  | statement => rw [call, call, hdrop, statement_shifted]
  | program => rw [call, call, hdrop, program_shifted]

/-- A run: so do any calls. -/
theorem run_shifted (tokens : List Token) (s : Progress) (n : Nat) (earlier : Array Report)
    (calls : List Checker.Call) :
    (s.shifted n earlier).run policy tokens calls =
      (s.run policy (tokens.drop n) calls).shifted n earlier := by
  induction calls generalizing s with
  | nil => rfl
  | cons k calls ih =>
    have hrest := ih (s.call policy (tokens.drop n) k)
    rw [← call_shifted] at hrest
    exact hrest

/-- With nothing open, all that is known of a progress is how far it has come. -/
theorem eq_shifted {s : Progress} (hs : s.goals = []) :
    s = Progress.shifted ⟨0, [], #[]⟩ s.cursor s.reports := by
  rw [shifted, ← hs]
  simp

end Progress

namespace Checker
variable {policy : TerminatorPolicy} {tokens : List Token} {s : Progress}

/-- The calls of a check are those of the machine. -/
theorem call_reached (hs : s.goals = []) (k : Call) :
    (reached policy tokens s).call k = reached policy tokens (s.call policy tokens k) := by
  cases k with
  | statement => exact statement_reached policy tokens s
  | program => exact program_reached policy tokens hs

theorem run_reached (hs : s.goals = []) (calls : List Call) :
    (reached policy tokens s).run calls = reached policy tokens (s.run policy tokens calls) := by
  induction calls generalizing s with
  | nil => rfl
  | cons k calls ih =>
    have hrest := ih (s := s.call policy tokens k) (Progress.goals_call hs k)
    rw [← call_reached hs] at hrest
    exact hrest

/-- A check that has come some way goes on as one of its remaining tokens alone begins. -/
theorem run_reached_eq_shifted (hs : s.goals = []) (calls : List Call) :
    (reached policy tokens s).run calls =
      reached policy tokens
        ((Progress.run policy (tokens.drop s.cursor) ⟨0, [], #[]⟩ calls).shifted
          s.cursor s.reports) := by
  rw [run_reached hs, ← Progress.run_shifted, ← Progress.eq_shifted hs]

/-- The reports made behind any calls are reports of the whole check. -/
theorem mem_trace_of_run {calls : List Call} {r : Report}
    (h : r ∈ ((ofTokens policy tokens).run calls).reports.toList) :
    r ∈ Goal.trace policy [] 0 (terminals tokens) := by
  have hcontinues := (((ofTokens policy tokens).run calls).steps_program).continues
  have hprefix := hcontinues.reports
  rw [program_run, reports_program] at hprefix
  exact hprefix.subset h

/-- The places of the remaining tokens do not depend on the tokens before them. -/
theorem positionAt_drop {n : Nat} (h : tokens.drop n ≠ []) (i : Nat) :
    positionAt tokens.toArray (n + i) = positionAt (tokens.drop n).toArray i := by
  have hlt : n < tokens.length := by
    rw [ne_eq, List.drop_eq_nil_iff] at h
    omega
  have hplace := positionAt_append_right (tokens.take n) h i
  rwa [List.take_append_drop, List.length_take_of_le (Nat.le_of_lt hlt)] at hplace

theorem violations_run_reached (hs : s.goals = []) (calls : List Call) :
    ((reached policy tokens s).run calls).violations =
      (reached policy tokens s).violations ++
        ((ofTokens policy (tokens.drop s.cursor)).run calls).violations := by
  have hfresh : (ofTokens policy (tokens.drop s.cursor)).run calls =
      reached policy (tokens.drop s.cursor)
        (Progress.run policy (tokens.drop s.cursor) ⟨0, [], #[]⟩ calls) := by
    rw [ofTokens_eq_reached, run_reached rfl]
  have hmem := @mem_trace_of_run policy (tokens.drop s.cursor) calls
  rw [hfresh, reports_reached] at hmem
  rw [run_reached_eq_shifted hs, hfresh, violations_reached, violations_reached,
    violations_reached, Progress.shifted, Array.toList_append, Array.toList_map, List.map_append,
    List.map_map]
  congr 1
  apply List.map_congr_left
  intro r hr
  -- where nothing remains there is no last token to lend its place, but no report either
  have hne : tokens.drop s.cursor ≠ [] := ne_nil_of_report (hmem hr)
  have hplace := positionAt_drop hne r.index
  simp only [Function.comp_apply, Report.shifted, hplace]

theorem cursor_run_reached (hs : s.goals = []) (calls : List Call) :
    ((reached policy tokens s).run calls).cursor =
      s.cursor + ((ofTokens policy (tokens.drop s.cursor)).run calls).cursor := by
  rw [run_reached_eq_shifted hs, ofTokens_eq_reached, run_reached rfl]
  rfl

theorem iterate_statement (c : Checker) (n : Nat) :
    statement^[n] c = c.run (List.replicate n .statement) := by
  induction n generalizing c with
  | zero => rfl
  | succ n ih =>
    rw [Function.iterate_succ_apply, ih]
    rfl

end Checker

/-- After any number of statements, whatever was wrong with them, a check finds in the rest of the
tokens what a check of the rest alone finds, in kind, place and order, and takes as many of them.
Its outcome is then that of the whole check. The two also agree call by call. -/
theorem recovery_memoryless (policy : TerminatorPolicy) (tokens : List Token) (n : Nat) :
    let c := Checker.statement^[n] (Checker.ofTokens policy tokens)
    let rest := tokens.drop c.cursor
    c.program.violations = c.violations ++ (checkTokens policy rest).violations ∧
    c.program.cursor = c.cursor + (checkTokens policy rest).consumed ∧
    c.program.outcome = checkTokens policy tokens ∧
    ∀ calls : List Checker.Call,
      (c.run calls).violations =
        c.violations ++ ((Checker.ofTokens policy rest).run calls).violations ∧
      (c.run calls).cursor = c.cursor + ((Checker.ofTokens policy rest).run calls).cursor := by
  intro c rest
  have hrun : c = (Checker.ofTokens policy tokens).run (List.replicate n .statement) :=
    Checker.iterate_statement _ n
  obtain ⟨s, hs, hreached⟩ :
      ∃ s : Progress, s.goals = [] ∧ c = Checker.reached policy tokens s := by
    refine ⟨Progress.run policy tokens ⟨0, [], #[]⟩ (List.replicate n .statement),
      Progress.goals_run rfl _, ?_⟩
    rw [hrun, Checker.ofTokens_eq_reached, Checker.run_reached rfl]
  have hcursor : c.cursor = s.cursor := by rw [hreached]; rfl
  have hrest : rest = tokens.drop s.cursor := by rw [← hcursor]
  have hcalls (calls : List Checker.Call) :
      (c.run calls).violations =
        c.violations ++ ((Checker.ofTokens policy rest).run calls).violations ∧
      (c.run calls).cursor = c.cursor + ((Checker.ofTokens policy rest).run calls).cursor := by
    rw [hcursor, hrest, hreached]
    exact ⟨Checker.violations_run_reached hs calls, Checker.cursor_run_reached hs calls⟩
  refine ⟨(hcalls [.program]).1, (hcalls [.program]).2, ?_, hcalls⟩
  have hwhole : c.program = (Checker.ofTokens policy tokens).program := by
    rw [hrun, Checker.program_run]
  exact congrArg Checker.outcome hwhole

end SyntaxAudit
