import SyntaxAudit.Checker

/-! A check can be driven statement by statement, as a whole, or by any mixture of both. The cursor,
the current token, the violations and their number are changed in different places, and agree with
each other whatever calls are made. Nothing that was recorded is lost, and calls before a whole
check have no influence on its outcome. -/
namespace SyntaxAudit

namespace Checker
variable {c d : Checker} {tokens : List Token}

inductive Call
  | statement
  | program
deriving DecidableEq

def call (c : Checker) : Call → Checker
  | .statement => c.statement
  | .program => c.program

def run (c : Checker) (calls : List Call) : Checker :=
  calls.foldl call c

theorem run_append (c : Checker) (calls more : List Call) :
    c.run (calls ++ more) = (c.run calls).run more :=
  List.foldl_append

/-- What holds of a check and is kept by every call holds behind any calls. -/
@[elab_as_elim]
theorem run_induction {motive : Checker → Prop} {c : Checker} (calls : List Call)
    (start : motive c) (step : ∀ d k, motive d → motive (d.call k)) : motive (c.run calls) := by
  induction calls generalizing c with
  | nil => exact start
  | cons k calls ih => exact ih (step c k start)

/-- Calls only take tokens and record violations. -/
theorem steps_call (c : Checker) (k : Call) : c.Steps (c.call k) := by
  cases k with
  | statement => exact c.steps_statement
  | program => exact c.steps_program

theorem steps_run (c : Checker) (calls : List Call) : c.Steps (c.run calls) :=
  run_induction calls .refl fun d k h => h.trans (d.steps_call k)

/-- A check that has gone on from another one: it has the same tokens under the same policy, has not
moved back, and has recorded the violations of the other one first. -/
structure Continues (c d : Checker) : Prop where
  policy : d.policy = c.policy
  tokens : d.tokens = c.tokens
  cursor_le : c.cursor ≤ d.cursor
  detections : c.detections.toList <+: d.detections.toList

theorem Steps.continues (h : c.Steps d) : Continues c d := by
  have hcursor := h.cursor_le
  induction h with
  | refl => exact ⟨rfl, rfl, hcursor, List.prefix_refl _⟩
  | @advance d h ih =>
    have hd := ih h.cursor_le
    cases hc : d.current? with
    | none => rwa [advance_of_none hc]
    | some t =>
      rw [advance_of_isSome (by rw [hc]; rfl)] at hcursor ⊢
      exact ⟨hd.policy, hd.tokens, hcursor, hd.detections⟩
  | @record d v h ih =>
    have hd := ih h.cursor_le
    refine ⟨hd.policy, hd.tokens, hcursor, hd.detections.trans ?_⟩
    simp [Checker.record]

theorem Continues.violations (h : Continues c d) : c.violations <+: d.violations :=
  h.detections.map _

theorem Continues.reports (h : Continues c d) : c.reports.toList <+: d.reports.toList := by
  simp only [Checker.reports, Array.toList_map]
  exact h.detections.map _

structure Consistent (tokens : List Token) (c : Checker) : Prop where
  tokens_eq : c.tokens = tokens.toArray
  /-- The current token is the one at the cursor, if there is one that is no end mark. -/
  current : ∀ t, c.current? = some t ↔ tokens[c.cursor]? = some t ∧ t.isEnd = false
  unmarked : ∀ t ∈ tokens.take c.cursor, t.isEnd = false
  cursor_le : c.cursor ≤ tokens.length
  counted : c.errorCount = c.violations.length

theorem peek_eq_some (h : c.tokens = tokens.toArray) (t : Token) :
    c.peek = some t ↔ tokens[c.cursor]? = some t ∧ t.isEnd = false := by
  rw [peek, h, List.getElem?_toArray, Option.filter_eq_some_iff, Bool.not_eq_true']

theorem consistent_ofTokens (policy : TerminatorPolicy) (tokens : List Token) :
    (ofTokens policy tokens).Consistent tokens where
  tokens_eq := rfl
  current := peek_eq_some rfl
  unmarked := by simp [ofTokens, refresh]
  cursor_le := Nat.zero_le _
  counted := rfl

/-- Taking a token moves the cursor and the current token together, and never beyond an end mark. -/
theorem Consistent.advance (h : c.Consistent tokens) : c.advance.Consistent tokens := by
  cases hc : c.current? with
  | none => rwa [advance_of_none hc]
  | some t =>
    obtain ⟨hget, hend⟩ := (h.current t).mp hc
    obtain ⟨hlt, hat⟩ := List.getElem?_eq_some_iff.mp hget
    rw [advance_of_isSome (by rw [hc]; rfl)]
    refine ⟨h.tokens_eq, peek_eq_some h.tokens_eq, ?_, hlt, h.counted⟩
    change ∀ u ∈ tokens.take (c.cursor + 1), u.isEnd = false
    rw [List.take_add_one, hget]
    intro u hu
    rcases List.mem_append.mp hu with hu | hu
    · exact h.unmarked u hu
    · obtain rfl : u = t := by simpa using hu
      exact hend

/-- Recording a violation counts it. -/
theorem Consistent.record (h : c.Consistent tokens) (v : Detection) :
    (c.record v).Consistent tokens := by
  refine ⟨h.tokens_eq, h.current, h.unmarked, h.cursor_le, ?_⟩
  have hcounted := h.counted
  simp only [violations, Checker.record, Array.toList_push, List.map_append, List.length_append,
    List.length_map] at hcounted ⊢
  rw [hcounted]
  rfl

/-- So the parts agree at every point of every production. -/
theorem Consistent.steps (h : c.Consistent tokens) (hsteps : c.Steps d) : d.Consistent tokens := by
  induction hsteps with
  | refl => exact h
  | advance _ ih => exact ih.advance
  | record v _ ih => exact ih.record v

/-- A call before a whole check does part of its work. -/
theorem program_call (c : Checker) (k : Call) : (c.call k).program = c.program := by
  cases k with
  | statement => exact c.program_statement
  | program => exact program_of_none c.current?_program

theorem program_run (c : Checker) (calls : List Call) : (c.run calls).program = c.program :=
  run_induction calls rfl fun d k h => (d.program_call k).trans h

end Checker

/-- Behind any calls the parts of a check agree with each other: the current token is the one at the
cursor, no end mark has been passed and all violations have been counted. Further calls leave the
violations found so far at the head of the list and never move the cursor back, and a whole check at
the end has the outcome it has without the calls before it. -/
theorem calls_keep_consistent (policy : TerminatorPolicy) (tokens : List Token)
    (calls : List Checker.Call) :
    ((Checker.ofTokens policy tokens).run calls).Consistent tokens ∧
    (∀ more : List Checker.Call,
      ((Checker.ofTokens policy tokens).run calls).violations <+:
        ((Checker.ofTokens policy tokens).run (calls ++ more)).violations ∧
      ((Checker.ofTokens policy tokens).run calls).cursor ≤
        ((Checker.ofTokens policy tokens).run (calls ++ more)).cursor) ∧
    ((Checker.ofTokens policy tokens).run (calls ++ [.program])).outcome =
      checkTokens policy tokens := by
  refine ⟨?_, ?_, ?_⟩
  · exact (Checker.consistent_ofTokens policy tokens).steps (Checker.steps_run _ calls)
  · intro more
    rw [Checker.run_append]
    have hmore := (((Checker.ofTokens policy tokens).run calls).steps_run more).continues
    exact ⟨hmore.violations, hmore.cursor_le⟩
  · rw [Checker.run_append]
    exact congrArg Checker.outcome (Checker.program_run _ calls)

end SyntaxAudit
