import SyntaxAudit.Proofs.Recognition

/-! The first report of a check stands at the first token with which the text is no longer the
beginning of a program. -/
namespace SyntaxAudit

namespace Goal

/-- Some text completes the goals: a check reads it without a report, whatever is open below. -/
def Completable (policy : TerminatorPolicy) (gs : List Goal) : Prop :=
  ∃ text : List Terminal, ∀ goals rest,
    Passes policy (gs ++ goals) (text.map .keep) goals rest

namespace Completable
variable {policy : TerminatorPolicy} {g : Goal} {gs next : List Goal}

theorem nil : Completable policy [] :=
  ⟨[], fun _ _ => .refl⟩

theorem cons (hg : Completable policy [g]) (hgs : Completable policy gs) :
    Completable policy (g :: gs) := by
  obtain ⟨first, hfirst⟩ := hg
  obtain ⟨text, htext⟩ := hgs
  refine ⟨first ++ text, ?_⟩
  intro goals rest
  rw [List.map_append]
  exact (hfirst (gs ++ goals) _).trans (htext goals rest)

theorem of_take (t : Terminal) (hm : g.move policy t = .take none next)
    (h : Completable policy next) : Completable policy [g] := by
  obtain ⟨text, htext⟩ := h
  exact ⟨t :: text, fun goals rest => .keep hm (htext goals rest)⟩

/-- No construct is a dead end. -/
theorem single (policy : TerminatorPolicy) (g : Goal) : Completable policy [g] := by
  have hend : policy.accepts (.mark .semicolon) = true := policy.accepts_semicolon _ rfl
  have hlast : moveTerminator policy (.mark .semicolon) = .take none [] := if_pos hend
  have hrest : Completable policy [.blockRest] := of_take (.mark .rightBrace) rfl nil
  have hblock : Completable policy [.blockOpen] := of_take (.mark .leftBrace) rfl hrest
  have hbody : Completable policy [.elseBody] := of_take (.mark .leftBrace) rfl hrest
  have helse : Completable policy [.elseClause] := of_take (.word .kwElse) rfl hbody
  have hname : Completable policy [.parameter] := of_take (.mark .rightParen) rfl hblock
  have hnames : Completable policy [.parametersOpen] := of_take (.mark .leftParen) rfl hname
  have hclose (head : Conditional) : Completable policy [.conditionClose head] := by
    refine of_take (.mark .rightParen) rfl ?_
    cases head with
    | ifHead => exact cons hblock helse
    | whileHead => exact hblock
  have hcondition (head : Conditional) : Completable policy [.condition head] :=
    of_take .name rfl (hclose head)
  cases g with
  | functionName => exact of_take .name rfl hnames
  | parametersOpen => exact hnames
  | parameter => exact hname
  | parameterComma => exact of_take (.mark .rightParen) rfl hblock
  | blockOpen => exact hblock
  | blockRest => exact hrest
  | variableName => exact of_take .name rfl (of_take (.mark .semicolon) hlast nil)
  | initializer => exact of_take (.mark .semicolon) hlast nil
  | initialValue => exact of_take .name rfl (of_take (.mark .semicolon) hlast nil)
  | terminator => exact of_take (.mark .semicolon) hlast nil
  | conditionOpen head => exact of_take (.mark .leftParen) rfl (hcondition head)
  | condition head => exact hcondition head
  | conditionClose head => exact hclose head
  | elseClause => exact helse
  | elseBody => exact hbody

theorem all (policy : TerminatorPolicy) (gs : List Goal) : Completable policy gs := by
  induction gs with
  | nil => exact nil
  | cons g gs ih => exact cons (single policy g) ih

end Completable

variable {policy : TerminatorPolicy} {goals : List Goal} {text : List Terminal}

/-- Whatever is open, some text ends the check without a report. -/
theorem exists_trace_nil (policy : TerminatorPolicy) (goals : List Goal) (index : Nat) :
    ∃ text, trace policy goals index text = [] := by
  obtain ⟨text, h⟩ := Completable.all policy goals
  refine ⟨text, ?_⟩
  have hall := h [] [] index
  rwa [Edit.edited_map_keep, Edit.reports_map_keep, List.append_nil, List.append_nil] at hall

/-- A check is silent on some continuation of what stands before its first report, and on no
continuation of what stands up to it. -/
theorem first_report {index : Nat} {r : Report} {reports : List Report}
    (h : trace policy goals index text = r :: reports) :
    ∃ k ≤ text.length, r.index = index + k ∧
      (∃ more, trace policy goals index (text.take k ++ more) = []) ∧
      (k < text.length → ∀ more, trace policy goals index (text.take (k + 1) ++ more) ≠ []) := by
  induction text generalizing goals index with
  | nil =>
    have hmem : r ∈ (goals.flatMap atEnd).map (Report.mk · index) := by
      rw [trace] at h
      rw [h]
      exact List.mem_cons_self
    obtain ⟨kind, _, rfl⟩ := List.mem_map.mp hmem
    exact ⟨0, Nat.le_refl 0, rfl, exists_trace_nil policy goals index, by simp⟩
  | cons t text ih =>
    rw [trace] at h
    rcases hf : (feed policy t goals).1 with _ | ⟨kind, kinds⟩
    · rw [hf, List.map_nil, List.nil_append] at h
      obtain ⟨k, hk, hindex, ⟨more, hmore⟩, hnone⟩ := ih h
      refine ⟨k + 1, Nat.succ_le_succ hk, by omega, ⟨more, ?_⟩, ?_⟩
      · simpa [trace, hf] using hmore
      · intro hlt more
        simpa [trace, hf] using hnone (Nat.lt_of_succ_lt_succ hlt) more
    · rw [hf, List.map_cons, List.cons_append] at h
      obtain ⟨rfl, _⟩ := List.cons.inj h
      refine ⟨0, Nat.zero_le _, rfl, exists_trace_nil policy goals index, ?_⟩
      intro _ more
      simp [trace, hf]

end Goal

/-- Every terminal is that of some token. -/
theorem Token.terminal_surjective (t : Terminal) : ∃ token : Token, token.terminal = t := by
  match t with
  | .keyword none => exact ⟨⟨.keyword, "", .start⟩, by decide⟩
  | .word k =>
    refine ⟨⟨.keyword, k.spelling, .start⟩, ?_⟩
    simp [Token.terminal, Token.keyword?, Keyword.ofSpelling?_spelling]
  | .name => exact ⟨⟨.identifier, "", .start⟩, rfl⟩
  | .literal => exact ⟨⟨.number, "", .start⟩, rfl⟩
  | .sign none => exact ⟨⟨.punctuation, "", .start⟩, by decide⟩
  | .mark p =>
    refine ⟨⟨.punctuation, p.spelling, .start⟩, ?_⟩
    simp [Token.terminal, Token.punctuation?, Punctuation.ofSpelling?_spelling]
  | .assign => exact ⟨⟨.operator, "=", .start⟩, by decide⟩
  | .other => exact ⟨⟨.null, "", .start⟩, rfl⟩

private theorem exists_tokens (text : List Terminal) :
    ∃ tokens : List Token, tokens.map Token.terminal = text := by
  induction text with
  | nil => exact ⟨[], rfl⟩
  | cons t text ih =>
    obtain ⟨token, ht⟩ := Token.terminal_surjective t
    obtain ⟨tokens, htext⟩ := ih
    exact ⟨token :: tokens, by rw [List.map_cons, ht, htext]⟩

/-- If a check finds something wrong, the tokens before its first report can be continued to a
program, and those up to it cannot; at the end of the input they are no program themselves. -/
theorem first_report_ends_prefix (policy : TerminatorPolicy) (tokens : List Token)
    (h : (checkTokens policy tokens).isClean = false) :
    ∃ r reports, (Checker.ofTokens policy tokens).program.reports.toList = r :: reports ∧
      (checkTokens policy tokens).violations.head? =
        some ⟨r.kind, Checker.positionAt tokens.toArray r.index⟩ ∧
      (∀ t, tokens[r.index]? = some t →
        Checker.positionAt tokens.toArray r.index = t.position) ∧
      r.index ≤ (beforeEnd tokens).length ∧
      (∃ more : List Token,
        IsProgram policy (((beforeEnd tokens).take r.index ++ more).map Token.terminal)) ∧
      (r.index < (beforeEnd tokens).length → ∀ more : List Token,
        ¬ IsProgram policy (((beforeEnd tokens).take (r.index + 1) ++ more).map Token.terminal)) ∧
      (r.index = (beforeEnd tokens).length →
        ¬ IsProgram policy ((beforeEnd tokens).map Token.terminal)) := by
  have hne : Goal.trace policy [] 0 (terminals tokens) ≠ [] := by
    intro hnil
    simp [Outcome.isClean, errorCount_checkTokens, hnil] at h
  obtain ⟨r, reports, hr⟩ := List.exists_cons_of_ne_nil hne
  obtain ⟨k, hk, hindex, ⟨more, hmore⟩, hnone⟩ := Goal.first_report hr
  rw [Nat.zero_add] at hindex
  subst hindex
  rw [terminals_eq, List.length_map] at hk hnone
  refine ⟨r, reports, ?_, ?_, fun t => Checker.positionAt_of_getElem?, hk, ?_, ?_, ?_⟩
  · rw [Checker.reports_program, hr]
  · rw [violations_checkTokens, hr]
    rfl
  · obtain ⟨extra, rfl⟩ := exists_tokens more
    refine ⟨extra, ?_⟩
    rw [← trace_eq_nil_iff policy _ 0, List.map_append, List.map_take]
    exact hmore
  · intro hlt extra
    rw [← trace_eq_nil_iff policy _ 0, List.map_append, List.map_take]
    exact hnone hlt (extra.map Token.terminal)
  · intro _
    rw [← trace_eq_nil_iff policy _ 0]
    exact hne

/-- The tokens of `if (a) { } else b;`. -/
def bareElse : List Token :=
  [⟨.keyword, "if", ⟨1, 1⟩⟩, ⟨.punctuation, "(", ⟨1, 4⟩⟩, ⟨.identifier, "a", ⟨1, 5⟩⟩,
    ⟨.punctuation, ")", ⟨1, 6⟩⟩, ⟨.punctuation, "\x7b", ⟨1, 8⟩⟩,
    ⟨.punctuation, "\x7d", ⟨1, 10⟩⟩, ⟨.keyword, "else", ⟨1, 12⟩⟩,
    ⟨.identifier, "b", ⟨1, 17⟩⟩, ⟨.punctuation, ";", ⟨1, 18⟩⟩, ⟨.endOfInput, "", ⟨1, 19⟩⟩]

theorem first_report_bareElse :
    (checkTokens .anyPunctuation bareElse).isClean = false ∧
      (checkTokens .anyPunctuation bareElse).violations.head? =
        some ⟨.expectedOpenBrace, ⟨1, 17⟩⟩ ∧
      (∃ more : List Token,
        IsProgram .anyPunctuation ((bareElse.take 7 ++ more).map Token.terminal)) ∧
      ∀ more : List Token,
        ¬ IsProgram .anyPunctuation ((bareElse.take 8 ++ more).map Token.terminal) := by
  have hdirty : (checkTokens .anyPunctuation bareElse).isClean = false := by
    rw [checkTokens_eq_trace]
    decide
  obtain ⟨r, reports, hr, hhead, hplace, -, hsome, hnone, -⟩ :=
    first_report_ends_prefix .anyPunctuation bareElse hdirty
  have hreports : (Checker.ofTokens .anyPunctuation bareElse).program.reports.toList =
      [⟨.expectedOpenBrace, 7⟩] := by
    rw [Checker.reports_program]
    decide
  rw [hreports] at hr
  obtain ⟨rfl, -⟩ := List.cons.inj hr
  rw [hplace ⟨.identifier, "b", ⟨1, 17⟩⟩ rfl] at hhead
  exact ⟨hdirty, hhead, hsome, hnone (by decide)⟩

end SyntaxAudit
