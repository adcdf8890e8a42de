import SyntaxAudit.Proofs.GoalCode
import SyntaxAudit.Proofs.Progress

/-! The productions and the machine with its stack of goals do the same: a statement of the check is
a statement of the machine, and the check of all statements is the whole run of the machine. -/
namespace SyntaxAudit
open Attempt

namespace Goal
variable {c : Checker}

/-- The code of a stack of goals does with the current token what the stack does. -/
theorem pursue_of_current {t : Token} (hc : c.current? = some t) (goals : List Goal) :
    pursue goals c =
      match settle c.policy t.terminal goals with
      | (kinds, some next) => pursue next (c.recordAll kinds).advance
      | (kinds, none) => some (.ok (), c.recordAll kinds) := by
  induction goals generalizing c with
  | nil => rfl
  | cons g goals ih =>
    have hstep := recover_code_of_moves (moves_move c.policy g t.terminal) hc
    cases hm : g.move c.policy t.terminal with
    | take report next =>
      rw [hm] at hstep
      simp only [settle, hm]
      rw [pursue, bind_congr_run hstep, pursue_append]
    | leave report =>
      rw [hm] at hstep
      have hrest := ih (c := c.recordAll report.toList) (by rw [c.current?_recordAll, hc])
      rw [pursue, bind_of_ok hstep, hrest, c.policy_recordAll]
      simp only [settle, hm]
      rcases settle c.policy t.terminal goals with ⟨kinds, _ | next⟩ <;>
        simp [Checker.recordAll_append]

theorem pursue_of_none (hc : c.current? = none) (goals : List Goal) :
    pursue goals c = some (.ok (), c.recordAll (goals.flatMap atEnd)) := by
  induction goals generalizing c with
  | nil => rfl
  | cons g goals ih =>
    rw [pursue, bind_of_ok (recover_code_of_none g hc), ih (by rw [c.current?_recordAll, hc]),
      List.flatMap_cons, Checker.recordAll_append]

end Goal

namespace Checker
variable {policy : TerminatorPolicy} {tokens : List Token}

/-- The check of some tokens that has come as far as the machine. -/
def reached (policy : TerminatorPolicy) (tokens : List Token) (s : Progress) : Checker :=
  refresh ⟨policy, tokens.toArray, s.cursor, none, s.reports.size,
    s.reports.map fun r => ⟨⟨r.kind, positionAt tokens.toArray r.index⟩, r.index⟩⟩

theorem ofTokens_eq_reached (policy : TerminatorPolicy) (tokens : List Token) :
    ofTokens policy tokens = reached policy tokens ⟨0, [], #[]⟩ := by
  simp [ofTokens, reached]

theorem reports_reached (s : Progress) : (reached policy tokens s).reports = s.reports := by
  simp [reports, reached, refresh, Function.comp_def, Detection.report]

theorem violations_reached (s : Progress) :
    (reached policy tokens s).violations =
      s.reports.toList.map fun r => ⟨r.kind, positionAt tokens.toArray r.index⟩ := by
  simp [violations, reached, refresh, Function.comp_def]

theorem reached_recordAll (s : Progress) (kinds : List ViolationKind) :
    (reached policy tokens s).recordAll kinds = reached policy tokens (s.abandon kinds) := by
  have hdetect : (reached policy tokens s).detect =
      fun kind => ⟨⟨kind, positionAt tokens.toArray s.cursor⟩, s.cursor⟩ := rfl
  have hsize : (s.reported kinds).size = s.reports.size + kinds.length := by
    simp [Progress.reported, ← Array.length_toList]
  have hreports : (s.reported kinds).toList = s.reports.toList ++ kinds.map (⟨·, s.cursor⟩) := by
    simp [Progress.reported]
  rw [recordAll_eq, hdetect]
  simp [reached, refresh, peek, Progress.abandon, hsize, ← Array.toList_inj, hreports]

theorem reached_advance {s : Progress} {t : Token}
    (hc : (reached policy tokens s).current? = some t) (kinds : List ViolationKind)
    (goals : List Goal) :
    ((reached policy tokens s).recordAll kinds).advance =
      reached policy tokens (s.advance kinds goals) := by
  have hsome : (reached policy tokens (s.abandon kinds)).current?.isSome = true := by
    rw [← reached_recordAll, current?_recordAll, hc]
    rfl
  rw [reached_recordAll, advance_of_isSome hsome]
  rfl

theorem current?_reached (s : Progress) :
    (reached policy tokens s).current? = tokens[s.cursor]?.filter (!·.isEnd) := by
  simp [reached, refresh, peek]

theorem remaining_of_none {s : Progress} (hc : (reached policy tokens s).current? = none) :
    terminals (tokens.drop s.cursor) = [] := by
  rw [current?_reached, ← List.head?_drop] at hc
  cases hdrop : tokens.drop s.cursor with
  | nil => rfl
  | cons t rest =>
    rw [hdrop] at hc
    have hend : t.isEnd = true := by simpa [Option.filter] using hc
    simp [terminals, hend]

theorem remaining_of_some {s : Progress} {t : Token}
    (hc : (reached policy tokens s).current? = some t) :
    terminals (tokens.drop s.cursor) = t.terminal :: terminals (tokens.drop (s.cursor + 1)) := by
  rw [current?_reached, Option.filter_eq_some_iff, ← List.head?_drop] at hc
  obtain ⟨hhead, hend⟩ := hc
  obtain ⟨rest, hdrop⟩ := List.head?_eq_some_iff.mp hhead
  have hnext : tokens.drop (s.cursor + 1) = rest := by rw [← List.drop_drop, hdrop]; rfl
  rw [hdrop, hnext]
  simp [terminals, hend]

/-- A run: the code of the open goals does what the machine does until nothing is open. -/
theorem pursue_reached (policy : TerminatorPolicy) (tokens : List Token) (s : Progress) :
    Goal.pursue s.goals (reached policy tokens s) =
      some (.ok (),
        reached policy tokens (s.complete policy (terminals (tokens.drop s.cursor)))) := by
  induction hts : terminals (tokens.drop s.cursor) generalizing s with
  | nil =>
    cases hc : (reached policy tokens s).current? with
    | none => rw [Goal.pursue_of_none hc, reached_recordAll]; rfl
    | some t =>
      rw [remaining_of_some hc] at hts
      cases hts
  | cons u ts ih =>
    cases hc : (reached policy tokens s).current? with
    | none =>
      rw [remaining_of_none hc] at hts
      cases hts
    | some t =>
      rw [remaining_of_some hc] at hts
      cases hts
      have hpolicy : (reached policy tokens s).policy = policy := rfl
      rw [Goal.pursue_of_current hc, hpolicy]
      rcases hs : Goal.settle policy t.terminal s.goals with ⟨kinds, _ | goals⟩
      · rw [Progress.complete_unsettled _ hs, ← reached_recordAll]
      · rw [Progress.complete_settled _ hs, ← ih (s.advance kinds goals) rfl,
          ← reached_advance hc kinds goals]
        rfl

/-- A statement of the check is a statement of the machine. -/
theorem statement_reached (policy : TerminatorPolicy) (tokens : List Token) (s : Progress) :
    (reached policy tokens s).statement =
      reached policy tokens (s.statement policy (terminals (tokens.drop s.cursor))) := by
  cases hc : (reached policy tokens s).current? with
  | none =>
    rw [statement_of_none hc, remaining_of_none hc]
    rfl
  | some t =>
    have hrun := (reached policy tokens s).parse_statement
    rw [Goal.parse_statement_eq hc, reached_advance hc _ (opening t.terminal).2] at hrun
    have hpursue := pursue_reached policy tokens
      (s.advance (opening t.terminal).1.toList (opening t.terminal).2)
    rw [remaining_of_some hc]
    exact congrArg Prod.snd (Option.some.inj (hrun.symm.trans hpursue))

/-- The check of all statements is the whole run of the machine. -/
theorem program_reached (policy : TerminatorPolicy) (tokens : List Token) {s : Progress}
    (hs : s.goals = []) :
    (reached policy tokens s).program =
      reached policy tokens (s.program policy (terminals (tokens.drop s.cursor))) := by
  induction hn : (reached policy tokens s).left using Nat.strongRecOn generalizing s with
  | ind n ih =>
    cases hc : (reached policy tokens s).current? with
    | none =>
      rw [program_of_none hc, remaining_of_none hc, Progress.program, List.foldl_nil,
        Progress.close, hs, ← reached_recordAll]
      rfl
    | some t =>
      have hless : (reached policy tokens s).statement.left < n :=
        hn ▸ left_statement_lt (by rw [hc]; rfl)
      have hwhole := Progress.program_statement policy hs (terminals (tokens.drop s.cursor))
      have hcursor := Progress.cursor_statement policy s (terminals (tokens.drop s.cursor))
      rw [statement_reached] at hless
      rw [← program_statement, statement_reached,
        ih _ hless (Progress.goals_statement policy hs _) rfl, ← hwhole, ← terminals_drop,
        List.drop_drop]
      · congr 5
        omega
      · omega

end Checker

end SyntaxAudit
