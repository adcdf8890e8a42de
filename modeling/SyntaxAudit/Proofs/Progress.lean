import SyntaxAudit.Checker.State
import SyntaxAudit.Grammar.Goal

/-! The check as a machine without recursion, which keeps a stack of goals and takes one terminal
after the other. -/
namespace SyntaxAudit

structure Progress where
  cursor : Nat
  goals : List Goal
  reports : Array Report
deriving DecidableEq

namespace Progress

def reported (s : Progress) (kinds : List ViolationKind) : Array Report :=
  s.reports ++ kinds.map (Report.mk · s.cursor)

def advance (s : Progress) (kinds : List ViolationKind) (goals : List Goal) : Progress :=
  ⟨s.cursor + 1, goals, s.reported kinds⟩

def abandon (s : Progress) (kinds : List ViolationKind) : Progress :=
  ⟨s.cursor, [], s.reported kinds⟩

def feed (policy : TerminatorPolicy) (s : Progress) (t : Terminal) : Progress :=
  s.advance (Goal.feed policy t s.goals).1 (Goal.feed policy t s.goals).2

/-- Ends the input: every open goal reports what it still waited for. -/
def close (s : Progress) : Progress :=
  s.abandon (s.goals.flatMap Goal.atEnd)

/-- Takes terminals until nothing is open any more, and no further. -/
def complete (policy : TerminatorPolicy) (s : Progress) : List Terminal → Progress
  | [] => s.close
  | t :: ts =>
    match Goal.settle policy t s.goals with
    | (kinds, some goals) => complete policy (s.advance kinds goals) ts
    | (kinds, none) => s.abandon kinds

def statement (policy : TerminatorPolicy) (s : Progress) : List Terminal → Progress
  | [] => s
  | t :: ts => complete policy (s.advance (opening t).1.toList (opening t).2) ts

def program (policy : TerminatorPolicy) (s : Progress) (ts : List Terminal) : Progress :=
  (ts.foldl (feed policy) s).close

@[simp] theorem cursor_feed (policy : TerminatorPolicy) (s : Progress) (t : Terminal) :
    (s.feed policy t).cursor = s.cursor + 1 := rfl

/-- Every terminal moves the cursor by one. -/
theorem cursor_foldl_feed (policy : TerminatorPolicy) (s : Progress) (ts : List Terminal) :
    (ts.foldl (feed policy) s).cursor = s.cursor + ts.length := by
  induction ts generalizing s with
  | nil => rfl
  | cons t ts ih =>
    rw [List.foldl_cons, ih, cursor_feed, List.length_cons]
    omega

theorem close_close (s : Progress) : s.close.close = s.close := by
  simp [close, abandon, reported]

private theorem feed_settled {policy : TerminatorPolicy} {s : Progress} {t : Terminal}
    {kinds : List ViolationKind} {goals : List Goal}
    (h : Goal.settle policy t s.goals = (kinds, some goals)) :
    s.feed policy t = s.advance kinds goals := by
  simp [feed, Goal.feed, h]

private theorem feed_unsettled {policy : TerminatorPolicy} {s : Progress} {t : Terminal}
    {kinds : List ViolationKind} (h : Goal.settle policy t s.goals = (kinds, none)) :
    s.feed policy t = (s.abandon kinds).feed policy t := by
  simp [feed, Goal.feed, h, Goal.settle, advance, abandon, reported, ← Array.toList_inj]

theorem complete_settled {policy : TerminatorPolicy} {s : Progress} {t : Terminal}
    {kinds : List ViolationKind} {goals : List Goal} (ts : List Terminal)
    (h : Goal.settle policy t s.goals = (kinds, some goals)) :
    s.complete policy (t :: ts) = (s.advance kinds goals).complete policy ts := by
  simp [complete, h]

theorem complete_unsettled {policy : TerminatorPolicy} {s : Progress} {t : Terminal}
    {kinds : List ViolationKind} (ts : List Terminal)
    (h : Goal.settle policy t s.goals = (kinds, none)) :
    s.complete policy (t :: ts) = s.abandon kinds := by
  simp [complete, h]

theorem goals_complete (policy : TerminatorPolicy) (s : Progress) (ts : List Terminal) :
    (s.complete policy ts).goals = [] := by
  induction ts generalizing s with
  | nil => rfl
  | cons t ts ih =>
    rcases h : Goal.settle policy t s.goals with ⟨kinds, _ | goals⟩
    · rw [complete_unsettled ts h]
      rfl
    · rw [complete_settled ts h]
      exact ih _

theorem cursor_complete (policy : TerminatorPolicy) (s : Progress) (ts : List Terminal) :
    s.cursor ≤ (s.complete policy ts).cursor ∧
      (s.complete policy ts).cursor ≤ s.cursor + ts.length := by
  induction ts generalizing s with
  | nil => exact ⟨Nat.le_refl _, Nat.le_refl _⟩
  | cons t ts ih =>
    rcases h : Goal.settle policy t s.goals with ⟨kinds, _ | goals⟩
    · rw [complete_unsettled ts h]
      exact ⟨Nat.le_refl _, Nat.le_add_right _ _⟩
    · have hrest := ih (s.advance kinds goals)
      have hcursor : (s.advance kinds goals).cursor = s.cursor + 1 := rfl
      rw [complete_settled ts h, List.length_cons]
      omega

private theorem program_of_feed {policy : TerminatorPolicy} {s : Progress} {t : Terminal}
    {ts : List Terminal} {later : Progress}
    (hlater : later = (s.feed policy t).complete policy ts)
    (h : later.program policy (ts.drop (later.cursor - (s.feed policy t).cursor)) =
      (s.feed policy t).program policy ts) :
    later.program policy ((t :: ts).drop (later.cursor - s.cursor)) =
      s.program policy (t :: ts) := by
  have hle := (cursor_complete policy (s.feed policy t) ts).1
  rw [← hlater, cursor_feed] at hle
  rw [cursor_feed] at h
  have hdrop : later.cursor - s.cursor = later.cursor - (s.cursor + 1) + 1 := by omega
  rw [hdrop, List.drop_succ_cons, h]
  rfl

/-- Completing what is open and then taking the rest is taking everything. -/
theorem program_complete (policy : TerminatorPolicy) (s : Progress) (ts : List Terminal) :
    (s.complete policy ts).program policy (ts.drop ((s.complete policy ts).cursor - s.cursor)) =
      s.program policy ts := by
  induction ts generalizing s with
  | nil => simp [complete, program, close_close]
  | cons t ts ih =>
    rcases h : Goal.settle policy t s.goals with ⟨kinds, _ | goals⟩
    · have hcursor : (s.abandon kinds).cursor = s.cursor := rfl
      rw [complete_unsettled ts h, hcursor, Nat.sub_self, List.drop_zero]
      simp only [program, List.foldl_cons, feed_unsettled h]
    · rw [complete_settled ts h, ← feed_settled h]
      exact program_of_feed rfl (ih (s.feed policy t))

/-- A statement and what remains behind it are everything, if nothing is open before. -/
theorem program_statement (policy : TerminatorPolicy) {s : Progress} (hs : s.goals = [])
    (ts : List Terminal) :
    (s.statement policy ts).program policy (ts.drop ((s.statement policy ts).cursor - s.cursor)) =
      s.program policy ts := by
  cases ts with
  | nil => rw [List.drop_nil, statement]
  | cons t ts =>
    have hopened : s.advance (opening t).1.toList (opening t).2 = s.feed policy t := by
      rw [feed, hs]
      rfl
    rw [statement, hopened]
    exact program_of_feed rfl (program_complete policy (s.feed policy t) ts)

theorem goals_statement (policy : TerminatorPolicy) {s : Progress} (hs : s.goals = [])
    (ts : List Terminal) : (s.statement policy ts).goals = [] := by
  cases ts with
  | nil => exact hs
  | cons t ts => exact goals_complete policy _ ts

theorem cursor_statement (policy : TerminatorPolicy) (s : Progress) (ts : List Terminal) :
    s.cursor ≤ (s.statement policy ts).cursor ∧
      (s.statement policy ts).cursor ≤ s.cursor + ts.length := by
  cases ts with
  | nil => exact ⟨Nat.le_refl _, Nat.le_refl _⟩
  | cons t ts =>
    have hrest := cursor_complete policy (s.advance (opening t).1.toList (opening t).2) ts
    have hcursor : (s.advance (opening t).1.toList (opening t).2).cursor = s.cursor + 1 := rfl
    rw [statement, List.length_cons]
    omega

end Progress

end SyntaxAudit
