import SyntaxAudit.Proofs.EndMark
import SyntaxAudit.Proofs.Truncation

/-! How many reports a check can make. An open goal owes the reports that it would make at the end
of the input, and a terminal adds at most two to what has been reported and what is owed. -/
namespace SyntaxAudit

namespace Goal
variable {policy : TerminatorPolicy} {g : Goal} {t : Terminal} {goals next : List Goal}
  {report : Option ViolationKind}

/-- The goals that wait behind a construct which is not finished yet. They leave a terminal in
silence, if at all. -/
def isWaiting : Goal → Bool
  | blockRest => true
  | elseClause => true
  | _ => false

theorem eq_none_of_leave (hm : g.move policy t = .leave report) (hg : g.isWaiting = true) :
    report = none := by
  cases moves_of_eq hm with
  | noElse => rfl
  | missing hawaits => cases hawaits <;> cases hg
  | noParameter hawaits => cases hawaits <;> cases hg
  | noStatementEnd hawaits => cases hawaits <;> cases hg
  | noElseBody => cases hg

/-- The number of reports that the open goals would make if the input ended. -/
def owed (goals : List Goal) : Nat :=
  (goals.flatMap atEnd).length

theorem owed_cons (g : Goal) (goals : List Goal) :
    owed (g :: goals) = g.atEnd.length + owed goals := by
  simp [owed]

theorem owed_append (next goals : List Goal) : owed (next ++ goals) = owed next + owed goals := by
  simp [owed]

theorem owed_of_opens (h : Opens t report next) : report.toList.length + owed next ≤ 2 := by
  cases h <;> simp [owed, atEnd]

/-- What a goal reports with a terminal that it takes, and what is owed in its place, is at most two
more than the goal owed itself. -/
theorem owed_of_take (hm : g.move policy t = .take report next) :
    report.toList.length + owed next ≤ g.atEnd.length + 2 := by
  cases moves_of_eq hm with
  | awaited hg =>
    cases hg with
    | conditionClose head => cases head <;> simp [owed, atEnd, Conditional.body]
    | _ => simp [owed, atEnd]
  | operand hg => cases hg <;> simp [owed, atEnd]
  | noOperand hg => cases hg <;> simp [owed, atEnd]
  | blockStatement _ ho =>
    -- the block stays open below its next statement, so its brace is owed before and behind
    have hopening := owed_of_opens (opens_of_eq ho)
    have hrest : owed [blockRest] = 1 := rfl
    rw [owed_append, hrest]
    simp only [atEnd, List.length_singleton]
    omega
  | parameterName | parametersEnd | comma | statementEnd | equalsSign | blockEnd | otherwise
  | elseIf | elseBlock => simp [owed, atEnd]

/-- A goal that leaves a terminal reports no more than it owed. -/
theorem length_of_leave (hm : g.move policy t = .leave report) :
    report.toList.length ≤ g.atEnd.length := by
  have hreport : report.toList.length ≤ 1 := Option.length_toList_le
  by_cases hend : g.atEnd = []
  · -- only a missing `else` owes nothing, and it is given up in silence
    obtain rfl := atEnd_nil_inv hend
    rw [eq_none_of_leave hm rfl]
    exact Nat.le_refl 0
  · have hpos := List.length_pos_iff.mpr hend
    omega

/-- A step of a check: the reports and the goals behind them together cost at most two more than the
goals before. -/
theorem owed_feed (policy : TerminatorPolicy) (t : Terminal) (goals : List Goal) :
    (feed policy t goals).1.length + owed (feed policy t goals).2 ≤ owed goals + 2 := by
  refine feed_induction goals ?opens ?takes ?leaves
  case opens =>
    have hopening := owed_of_opens (opens_opening t)
    have hnone : owed [] = 0 := rfl
    dsimp only
    omega
  case takes =>
    intro g goals report next hm
    have htake := owed_of_take hm
    rw [owed_append, owed_cons]
    dsimp only
    omega
  case leaves =>
    intro g goals report hm ih
    have hleave := length_of_leave hm
    rw [List.length_append, owed_cons]
    dsimp only
    omega

/-- A run of a check: what was owed before and two reports for each terminal pay for all reports,
those at the end included. -/
theorem length_trace_le (policy : TerminatorPolicy) (goals : List Goal) (index : Nat)
    (text : List Terminal) :
    (trace policy goals index text).length ≤ owed goals + 2 * text.length := by
  induction text generalizing goals index with
  | nil => simp [trace, owed]
  | cons t text ih =>
    have hstep := owed_feed policy t goals
    have hrest := ih (feed policy t goals).2 (index + 1)
    rw [trace, List.length_append, List.length_map, List.length_cons]
    omega

def Layered (goals : List Goal) : Prop :=
  ∀ g ∈ goals.tail, g.isWaiting = true

theorem layered_append (hnext : Layered next) (hgoals : ∀ g ∈ goals, g.isWaiting = true) :
    Layered (next ++ goals) := by
  intro g hg
  cases next with
  | nil => exact hgoals g (List.mem_of_mem_tail hg)
  | cons top next =>
    rcases List.mem_append.mp hg with hg | hg
    · exact hnext g hg
    · exact hgoals g hg

theorem layered_of_opens (h : Opens t report next) : Layered next := by
  cases h <;> simp [Layered]

theorem layered_of_take (hm : g.move policy t = .take report next) : Layered next := by
  cases moves_of_eq hm with
  | awaited hg =>
    cases hg with
    | conditionClose head => cases head <;> simp [Layered, Conditional.body, isWaiting]
    | _ => simp [Layered]
  | operand hg => cases hg <;> simp [Layered]
  | noOperand hg => cases hg <;> simp [Layered]
  | blockStatement _ ho =>
    exact layered_append (layered_of_opens (opens_of_eq ho)) (by simp [isWaiting])
  | parameterName | parametersEnd | comma | statementEnd | equalsSign | blockEnd | otherwise
  | elseIf | elseBlock => simp [Layered]

/-- A step of a check that only has waiting goals open: they give up in silence, and what is
reported is reported by the one that takes the terminal. -/
theorem length_feed_waiting (h : ∀ g ∈ goals, g.isWaiting = true) :
    (feed policy t goals).1.length ≤ 1 ∧ Layered (feed policy t goals).2 := by
  revert h
  refine feed_induction goals ?opens ?takes ?leaves
  case opens => exact fun _ => ⟨Option.length_toList_le, layered_of_opens (opens_opening t)⟩
  case takes =>
    intro g goals report next hm h
    refine ⟨Option.length_toList_le, layered_append (layered_of_take hm) ?_⟩
    exact fun g hg => h g (List.mem_cons_of_mem _ hg)
  case leaves =>
    intro g goals report hm ih h
    rw [eq_none_of_leave hm (h g List.mem_cons_self)]
    exact ih fun g hg => h g (List.mem_cons_of_mem _ hg)

/-- A step of a check: the topmost goal may report that it gives up, and then one more report is
made by the goal that takes the terminal. -/
theorem length_feed_le (h : Layered goals) :
    (feed policy t goals).1.length ≤ 2 ∧ Layered (feed policy t goals).2 := by
  cases goals with
  | nil =>
    obtain ⟨hlength, hlayered⟩ := @length_feed_waiting policy t [] (by simp)
    exact ⟨Nat.le_succ_of_le hlength, hlayered⟩
  | cons g goals =>
    have hreport (report : Option ViolationKind) : report.toList.length ≤ 1 :=
      Option.length_toList_le
    cases hm : g.move policy t with
    | take report next =>
      rw [feed_take hm]
      exact ⟨Nat.le_succ_of_le (hreport report), layered_append (layered_of_take hm) h⟩
    | leave report =>
      obtain ⟨hlength, hlayered⟩ := @length_feed_waiting policy t goals h
      rw [feed_leave hm, List.length_append]
      exact ⟨Nat.add_le_add (hreport report) hlength, hlayered⟩

/-- A run of a check: no index but that of the end of the input has more than two reports. -/
theorem length_kindsAt_trace_le (policy : TerminatorPolicy) {text : List Terminal} {i : Nat}
    (h : i ≠ text.length) : (kindsAt i (trace policy [] 0 text)).length ≤ 2 := by
  rcases Nat.lt_or_gt_of_ne h with hlt | hgt
  · have hstep : ∀ t goals, Layered goals → Layered (feed policy t goals).2 :=
      fun t goals hgoals => (length_feed_le hgoals).2
    have hstart : Layered [] := by simp [Layered]
    obtain ⟨before, hlayered, hbefore⟩ :=
      @kindsAt_trace policy text[i] [] Layered hstep hstart 0 i text (List.getElem?_eq_getElem hlt)
    rw [Nat.zero_add] at hbefore
    rw [hbefore]
    exact (length_feed_le hlayered).1
  · -- behind the end of the input there is nothing to report
    have hnone : kindsAt i (trace policy [] 0 text) = [] := by
      apply kindsAt_eq_nil
      intro r hr
      obtain ⟨k, hk, hindex, -⟩ := raises_of_mem_trace hr
      omega
    simp [hnone]

end Goal

def nulls (n : Nat) : List Token :=
  List.replicate n ⟨.null, "null", .start⟩

theorem Goal.length_trace_others (policy : TerminatorPolicy) (index n : Nat) :
    (trace policy [terminator] index (List.replicate n .other)).length = 2 * n + 1 := by
  induction n generalizing index with
  | zero => rfl
  | succ n ih =>
    have hstep : feed policy .other [terminator] =
        ([.expectedSemicolon, .expectedExpression], [terminator]) := by
      cases policy <;> rfl
    rw [List.replicate_succ, trace, hstep, List.length_append, ih]
    simp only [List.length_map, List.length_cons, List.length_nil]
    omega

theorem terminals_nulls (n : Nat) : terminals (nulls n) = List.replicate n .other := by
  have hunmarked : ∀ t ∈ nulls n, t.isEnd = false := by
    intro t ht
    rw [List.eq_of_mem_replicate ht]
    rfl
  rw [terminals_of_unmarked hunmarked, nulls, List.map_replicate]
  rfl

/-- Every `null` is reported twice: it is no expression, and no semicolon follows. -/
theorem checkTokens_nulls (policy : TerminatorPolicy) (n : Nat) :
    (checkTokens policy (nulls n)).consumed = n ∧
      (checkTokens policy (nulls n)).errorCount = 2 * n := by
  rw [consumed_checkTokens, errorCount_checkTokens, terminals_nulls, List.length_replicate]
  refine ⟨rfl, ?_⟩
  cases n with
  | zero => rfl
  | succ n =>
    have hopens : Goal.feed policy .other [] = ([.expectedExpression], [.terminator]) := rfl
    rw [List.replicate_succ, Goal.trace, hopens, List.length_append, Goal.length_trace_others]
    simp only [List.length_map, List.length_cons, List.length_nil]
    omega

/-- The tokens of loops inside each other that break off behind the last opening brace. -/
def openLoops (n : Nat) : List Token :=
  (List.replicate n [⟨.keyword, "while", .start⟩, ⟨.punctuation, "(", .start⟩,
    ⟨.identifier, "x", .start⟩, ⟨.punctuation, ")", .start⟩,
    ⟨.punctuation, "\x7b", .start⟩]).flatten

theorem truncated_openLoops (n : Nat) :
    Truncated .semicolonOnly n ((openLoops n).map Token.terminal) := by
  induction n with
  | zero => exact .closed .noStatements
  | succ n ih =>
    have hloop := Truncated.opened .noStatements (@BlockHeader.loop _ .name rfl) ih
    have htext : (openLoops (n + 1)).map Token.terminal =
        [] ++ ([.word .kwWhile, .mark .leftParen, .name, .mark .rightParen] ++
          .mark .leftBrace :: (openLoops n).map Token.terminal) := by
      rw [openLoops, List.replicate_succ, List.flatten_cons, List.map_append]
      rfl
    rw [htext]
    exact hloop

/-- At the end of the loops a brace is missed for each of them. -/
theorem kindsAt_openLoops (policy : TerminatorPolicy) (n : Nat) :
    Goal.kindsAt (terminals (openLoops n)).length
      (Goal.trace policy [] 0 (terminals (openLoops n))) =
      List.replicate n .expectedCloseBrace := by
  have htruncated := truncated_openLoops n
  have hunmarked := unmarked_of_other_notMem htruncated.other_notMem
  rw [terminals_of_unmarked hunmarked, htruncated.trace policy.accepts_semicolon rfl 0,
    Nat.zero_add, Goal.kindsAt_self, List.flatMap_nil, List.append_nil]

/-- A check makes at most two reports for each token that it takes, and at no index but that of the
end of the input it makes more than two. Neither bound can be improved: there are texts of any
length with two reports for each token, and texts with any number of reports at the end. -/
theorem reports_linear (policy : TerminatorPolicy) :
    (∀ tokens : List Token,
      (checkTokens policy tokens).errorCount ≤ 2 * (checkTokens policy tokens).consumed) ∧
    (∀ (tokens : List Token) (i : Nat), i ≠ (checkTokens policy tokens).consumed →
      (Goal.kindsAt i (Checker.ofTokens policy tokens).program.reports.toList).length ≤ 2) ∧
    (∀ n, ∃ tokens : List Token, (checkTokens policy tokens).consumed = n ∧
      (checkTokens policy tokens).errorCount = 2 * n) ∧
    ∀ n, ∃ tokens : List Token, (Goal.kindsAt (checkTokens policy tokens).consumed
      (Checker.ofTokens policy tokens).program.reports.toList).length = n := by
  refine ⟨?_, ?_, ?_, ?_⟩
  · intro tokens
    have hle := Goal.length_trace_le policy [] 0 (terminals tokens)
    have hnone : Goal.owed [] = 0 := rfl
    rw [hnone, Nat.zero_add] at hle
    rw [errorCount_checkTokens, consumed_checkTokens]
    exact hle
  · intro tokens i hi
    rw [consumed_checkTokens] at hi
    rw [Checker.reports_program]
    exact Goal.length_kindsAt_trace_le policy hi
  · intro n
    exact ⟨nulls n, checkTokens_nulls policy n⟩
  · intro n
    refine ⟨openLoops n, ?_⟩
    rw [consumed_checkTokens, Checker.reports_program, kindsAt_openLoops, List.length_replicate]

def bareLoop : List Token :=
  [⟨.keyword, "while", ⟨1, 1⟩⟩, ⟨.null, "null", ⟨1, 7⟩⟩, ⟨.punctuation, "\x7b", ⟨1, 12⟩⟩]

theorem reports_linear_bareLoop :
    Goal.kindsAt 1 (Checker.ofTokens .semicolonOnly bareLoop).program.reports.toList =
        [.expectedOpenParen, .expectedExpression] ∧
      (1 ≠ (checkTokens .semicolonOnly bareLoop).consumed ∧
        (Goal.kindsAt 1
          (Checker.ofTokens .semicolonOnly bareLoop).program.reports.toList).length ≤ 2) := by
  have hbefore : 1 ≠ (checkTokens .semicolonOnly bareLoop).consumed := by
    rw [consumed_checkTokens]
    decide
  refine ⟨?_, hbefore, (reports_linear .semicolonOnly).2.1 bareLoop 1 hbefore⟩
  rw [Checker.reports_program]
  decide

end SyntaxAudit
