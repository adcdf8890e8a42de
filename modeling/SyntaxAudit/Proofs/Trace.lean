import SyntaxAudit.Proofs.Simulation

/-! The reports of a check as one list, written from the goals that are open and the terminals
that follow. Statements about whole checks are proved about this list. -/
namespace SyntaxAudit

namespace Goal

/-- The reports of a check that stands before the token `index` with the given goals open. -/
def trace (policy : TerminatorPolicy) (goals : List Goal) (index : Nat) :
    List Terminal → List Report
  | [] => (goals.flatMap atEnd).map (Report.mk · index)
  | t :: ts =>
    (feed policy t goals).1.map (Report.mk · index) ++
      trace policy (feed policy t goals).2 (index + 1) ts

variable {policy : TerminatorPolicy} {g : Goal} {t : Terminal} {goals : List Goal}

theorem feed_take {report : Option ViolationKind} {next : List Goal}
    (h : g.move policy t = .take report next) :
    feed policy t (g :: goals) = (report.toList, next ++ goals) := by
  simp [feed, settle, h]

theorem feed_leave {report : Option ViolationKind} (h : g.move policy t = .leave report) :
    feed policy t (g :: goals) =
      (report.toList ++ (feed policy t goals).1, (feed policy t goals).2) := by
  rcases hs : settle policy t goals with ⟨kinds, _ | left⟩ <;> simp [feed, settle, h, hs]

/-- What holds of every way a stack of goals can treat a terminal: it opens a statement, the topmost
goal takes it, or the topmost goal leaves it to the goals below. -/
@[elab_as_elim]
theorem feed_induction {motive : List Goal → List ViolationKind × List Goal → Prop}
    (goals : List Goal) (opens : motive [] ((opening t).1.toList, (opening t).2))
    (takes : ∀ g goals report next, g.move policy t = .take report next →
      motive (g :: goals) (report.toList, next ++ goals))
    (leaves : ∀ g goals report, g.move policy t = .leave report →
      motive goals (feed policy t goals) →
      motive (g :: goals)
        (report.toList ++ (feed policy t goals).1, (feed policy t goals).2)) :
    motive goals (feed policy t goals) := by
  induction goals with
  | nil => exact opens
  | cons g goals ih =>
    cases hm : g.move policy t with
    | take report next =>
      rw [feed_take hm]
      exact takes g goals report next hm
    | leave report =>
      rw [feed_leave hm]
      exact leaves g goals report hm ih

/-- A goal that would give up at the next terminal, and at the end of the input, with one and the
same report can be given up before either is known. -/
theorem trace_leave {report : Option ViolationKind} (index : Nat) (ts : List Terminal)
    (hend : g.atEnd = report.toList) (h : ∀ t ∈ ts.head?, g.move policy t = .leave report) :
    trace policy (g :: goals) index ts =
      report.toList.map (Report.mk · index) ++ trace policy goals index ts := by
  cases ts with
  | nil => simp [trace, hend]
  | cons t ts =>
    have hleave : feed policy t (g :: goals) =
        (report.toList ++ (feed policy t goals).1, (feed policy t goals).2) := feed_leave (h t rfl)
    simp [trace, hleave]

/-- Two goals that treat the next terminal and the end of the input alike are exchangeable. -/
theorem trace_congr {g' : Goal} (index : Nat) (ts : List Terminal) (hend : g.atEnd = g'.atEnd)
    (h : ∀ t ∈ ts.head?, g.move policy t = g'.move policy t) :
    trace policy (g :: goals) index ts = trace policy (g' :: goals) index ts := by
  cases ts with
  | nil => simp [trace, hend]
  | cons t ts =>
    have hmove := h t rfl
    simp [trace, feed, settle, hmove]

end Goal

namespace Progress

/-- A check adds its trace to the reports it has already. -/
theorem reports_program (policy : TerminatorPolicy) (s : Progress) (ts : List Terminal) :
    (s.program policy ts).reports.toList =
      s.reports.toList ++ Goal.trace policy s.goals s.cursor ts := by
  induction ts generalizing s with
  | nil => simp [program, close, abandon, reported, Goal.trace]
  | cons t ts ih =>
    have hstep : s.program policy (t :: ts) = (s.feed policy t).program policy ts := rfl
    rw [hstep, ih]
    simp [feed, advance, reported, Goal.trace]

theorem cursor_program (policy : TerminatorPolicy) (s : Progress) (ts : List Terminal) :
    (s.program policy ts).cursor = s.cursor + ts.length :=
  cursor_foldl_feed policy s ts

end Progress

namespace Checker

/-- A whole check ends where the machine does that begins with nothing open. -/
theorem program_ofTokens (policy : TerminatorPolicy) (tokens : List Token) :
    (ofTokens policy tokens).program =
      reached policy tokens (Progress.program policy ⟨0, [], #[]⟩ (terminals tokens)) := by
  rw [ofTokens_eq_reached]
  exact program_reached policy tokens rfl

/-- The reports of a whole check are its trace from the first token, with nothing open. -/
theorem reports_program (policy : TerminatorPolicy) (tokens : List Token) :
    (ofTokens policy tokens).program.reports.toList =
      Goal.trace policy [] 0 (terminals tokens) := by
  rw [program_ofTokens, reports_reached, Progress.reports_program]
  rfl

end Checker

def beforeEnd (tokens : List Token) : List Token :=
  tokens.takeWhile (!·.isEnd)

theorem terminals_eq (tokens : List Token) :
    terminals tokens = (beforeEnd tokens).map Token.terminal := rfl

theorem Token.terminal_of_isEnd {t : Token} (h : t.isEnd = true) : t.terminal = .other := by
  have hk : t.kind = .endOfInput := by simpa [Token.isEnd] using h
  rw [Token.terminal, hk]

theorem unmarked_of_other_notMem {tokens : List Token}
    (h : Terminal.other ∉ tokens.map Token.terminal) : ∀ t ∈ tokens, t.isEnd = false := by
  intro t ht
  rw [← Bool.not_eq_true]
  intro hend
  rw [← Token.terminal_of_isEnd hend] at h
  exact h (List.mem_map_of_mem ht)

/-- A terminal is that of the token with the same index. -/
theorem getElem?_terminals {tokens : List Token} {k : Nat} (h : k < (terminals tokens).length) :
    (terminals tokens)[k]? = tokens[k]?.map Token.terminal := by
  rw [terminals_eq, List.length_map] at h
  obtain ⟨rest, hrest⟩ : beforeEnd tokens <+: tokens := List.takeWhile_prefix _
  have hsame : (beforeEnd tokens)[k]? = tokens[k]? := by
    rw [← List.getElem?_append_left h, hrest]
  rw [terminals_eq, List.getElem?_map, hsame]

theorem terminals_append_of_unmarked {tokens : List Token} (h : ∀ t ∈ tokens, t.isEnd = false)
    (more : List Token) :
    terminals (tokens ++ more) = tokens.map Token.terminal ++ terminals more := by
  have hall : ∀ t ∈ tokens, (!t.isEnd) = true := by
    intro t hm
    rw [h t hm]
    rfl
  rw [terminals, List.takeWhile_append_of_pos hall, List.map_append]
  rfl

/-- An end mark hides what follows it from the grammar. -/
theorem terminals_append {tokens tail : List Token} (h : ∀ t ∈ tokens, t.isEnd = false)
    (ht : ∀ t ∈ tail.head?, t.isEnd = true) :
    terminals (tokens ++ tail) = tokens.map Token.terminal := by
  have hnone : terminals tail = [] := by
    cases tail with
    | nil => rfl
    | cons t tail => simp [terminals, ht t rfl]
  rw [terminals_append_of_unmarked h, hnone, List.append_nil]

/-- The violations of a check are its trace with the places of the tokens. -/
theorem violations_checkTokens (policy : TerminatorPolicy) (tokens : List Token) :
    (checkTokens policy tokens).violations =
      (Goal.trace policy [] 0 (terminals tokens)).map
        fun r => ⟨r.kind, Checker.positionAt tokens.toArray r.index⟩ := by
  rw [← Checker.reports_program, Checker.program_ofTokens, Checker.reports_reached, checkTokens,
    Checker.program_ofTokens]
  exact Checker.violations_reached _

theorem errorCount_checkTokens (policy : TerminatorPolicy) (tokens : List Token) :
    (checkTokens policy tokens).errorCount =
      (Goal.trace policy [] 0 (terminals tokens)).length := by
  rw [← Checker.reports_program, Array.length_toList, Checker.program_ofTokens,
    Checker.reports_reached, checkTokens, Checker.program_ofTokens]
  rfl

theorem consumed_checkTokens (policy : TerminatorPolicy) (tokens : List Token) :
    (checkTokens policy tokens).consumed = (terminals tokens).length := by
  have hcursor := Progress.cursor_program policy ⟨0, [], #[]⟩ (terminals tokens)
  rw [Nat.zero_add] at hcursor
  rw [checkTokens, Checker.program_ofTokens]
  exact hcursor

theorem tokenCount_checkTokens (policy : TerminatorPolicy) (tokens : List Token) :
    (checkTokens policy tokens).tokenCount = tokens.length := by
  rw [checkTokens, Checker.program_ofTokens]
  rfl

/-- The whole outcome of a check, read from its trace. -/
theorem checkTokens_eq_trace (policy : TerminatorPolicy) (tokens : List Token) :
    checkTokens policy tokens =
      ⟨(Goal.trace policy [] 0 (terminals tokens)).map
          fun r => ⟨r.kind, Checker.positionAt tokens.toArray r.index⟩,
        (Goal.trace policy [] 0 (terminals tokens)).length, (terminals tokens).length,
        tokens.length⟩ := by
  rw [← violations_checkTokens, ← errorCount_checkTokens, ← consumed_checkTokens policy tokens,
    ← tokenCount_checkTokens policy tokens]

end SyntaxAudit
