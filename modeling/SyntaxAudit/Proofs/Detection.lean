import SyntaxAudit.Proofs.Recognition

/-! Where reports come from: a goal or the opening of a statement raises each of them at one
terminal, or a goal at the end of the input, and what stands there is the reason for it. -/
namespace SyntaxAudit

def Move.report : Move → Option ViolationKind
  | .take report _ => report
  | .leave report => report

namespace Goal
variable {policy : TerminatorPolicy} {t : Terminal} {goals : List Goal} {kind : ViolationKind}

def Raises (policy : TerminatorPolicy) (kind : ViolationKind) : Option Terminal → Prop
  | some t => (∃ g : Goal, (g.move policy t).report = some kind) ∨ (opening t).1 = some kind
  | none => ∃ g : Goal, kind ∈ g.atEnd

theorem raises_of_mem_feed (h : kind ∈ (feed policy t goals).1) :
    Raises policy kind (some t) := by
  revert h
  refine feed_induction goals ?opens ?takes ?leaves
  case opens => exact fun h => .inr (Option.mem_toList.mp h)
  case takes =>
    intro g goals report next hm h
    refine .inl ⟨g, ?_⟩
    rw [hm]
    exact Option.mem_toList.mp h
  case leaves =>
    intro g goals report hm ih h
    rcases List.mem_append.mp h with h | h
    · refine .inl ⟨g, ?_⟩
      rw [hm]
      exact Option.mem_toList.mp h
    · exact ih h

/-- Every report of a check is raised by what stands at its index. -/
theorem raises_of_mem_trace {index : Nat} {text : List Terminal} {r : Report}
    (h : r ∈ trace policy goals index text) :
    ∃ k ≤ text.length, r.index = index + k ∧ Raises policy r.kind text[k]? := by
  induction text generalizing goals index with
  | nil =>
    obtain ⟨kind, hk, rfl⟩ := List.mem_map.mp h
    obtain ⟨g, -, hg⟩ := List.mem_flatMap.mp hk
    exact ⟨0, Nat.le_refl 0, rfl, g, hg⟩
  | cons t text ih =>
    rw [trace] at h
    rcases List.mem_append.mp h with h | h
    · obtain ⟨kind, hk, rfl⟩ := List.mem_map.mp h
      exact ⟨0, Nat.zero_le _, rfl, raises_of_mem_feed hk⟩
    · obtain ⟨k, hk, hindex, hraises⟩ := ih h
      exact ⟨k + 1, Nat.succ_le_succ hk, by omega, hraises⟩

def kindsAt (index : Nat) (reports : List Report) : List ViolationKind :=
  (reports.filter (·.index == index)).map Report.kind

theorem kindsAt_append (index : Nat) (rs rs' : List Report) :
    kindsAt index (rs ++ rs') = kindsAt index rs ++ kindsAt index rs' := by
  simp [kindsAt]

theorem kindsAt_self (index : Nat) (kinds : List ViolationKind) :
    kindsAt index (kinds.map (Report.mk · index)) = kinds := by
  simp [kindsAt, List.filter_map, Function.comp_def]

theorem kindsAt_eq_nil {index : Nat} {reports : List Report}
    (h : ∀ r ∈ reports, r.index ≠ index) : kindsAt index reports = [] := by
  simpa [kindsAt] using h

theorem le_index_of_mem_trace {index : Nat} {text : List Terminal} {r : Report}
    (h : r ∈ trace policy goals index text) : index ≤ r.index := by
  obtain ⟨k, -, hindex, -⟩ := raises_of_mem_trace h
  omega

/-- What a check reports at one index it reports in the one step in which it takes the terminal
there. The goals that are open before this step have every property that steps preserve. -/
theorem kindsAt_trace {P : List Goal → Prop}
    (hstep : ∀ t goals, P goals → P (feed policy t goals).2) (hgoals : P goals) {index k : Nat}
    {text : List Terminal} (h : text[k]? = some t) :
    ∃ before, P before ∧ kindsAt (index + k) (trace policy goals index text) =
      (feed policy t before).1 := by
  induction text generalizing goals index k with
  | nil => simp at h
  | cons u text ih =>
    rw [trace, kindsAt_append]
    cases k with
    | zero =>
      obtain rfl : u = t := by simpa using h
      have hlater : kindsAt index (trace policy (feed policy u goals).2 (index + 1) text) = [] := by
        apply kindsAt_eq_nil
        intro r hr
        have hle := le_index_of_mem_trace hr
        omega
      refine ⟨goals, hgoals, ?_⟩
      rw [Nat.add_zero, kindsAt_self, hlater, List.append_nil]
    | succ k =>
      have hearlier : kindsAt (index + (k + 1))
          ((feed policy u goals).1.map (Report.mk · index)) = [] := by
        apply kindsAt_eq_nil
        intro r hr
        obtain ⟨kind, -, rfl⟩ := List.mem_map.mp hr
        simp
      obtain ⟨before, hp, hbefore⟩ :=
        @ih (feed policy u goals).2 (hstep u goals hgoals) (index + 1) k (by simpa using h)
      refine ⟨before, hp, ?_⟩
      rw [hearlier, List.nil_append, ← hbefore, Nat.add_assoc, Nat.add_comm 1 k]

theorem countP_kindsAt (j : Nat) (reports : List Report) (p : ViolationKind → Bool) :
    reports.countP (fun r => r.index == j && p r.kind) = (kindsAt j reports).countP p := by
  simp [kindsAt, List.countP_map, List.countP_filter, Function.comp_def, Bool.and_comm]

end Goal

def TerminatorPolicy.Admits : TerminatorPolicy → Token → Prop
  | anyPunctuation, t => t.kind = .punctuation
  | semicolonOnly, t => t.punctuation? = some .semicolon

theorem TerminatorPolicy.accepts_of_admits {policy : TerminatorPolicy} {t : Token}
    (h : policy.Admits t) : policy.accepts t.terminal = true := by
  cases policy with
  | anyPunctuation => rw [Token.terminal_eq_sign.mpr ⟨h, rfl⟩]; rfl
  | semicolonOnly => rw [Token.terminal_eq_mark.mpr h]; rfl

/-- The reason for a violation: what stands at the place where it was detected, if the input goes
on there. -/
def ViolationKind.Warranted (policy : TerminatorPolicy) (place : Option Token) :
    ViolationKind → Prop
  | unexpectedKeyword => ∃ t ∈ place, t.kind = .keyword ∧
      ∀ k ∈ t.keyword?, k ∉ [.kwFunction, .kwVar, .kwLet, .kwConst, .kwIf, .kwWhile]
  | expectedSemicolon => ∀ t ∈ place, ¬ policy.Admits t
  | expectedOpenBrace => ∀ t ∈ place, t.punctuation? ≠ some .leftBrace
  | expectedCloseBrace => place = none
  | expectedExpression => ∀ t ∈ place, t.kind ∉ [.identifier, .number, .string, .boolean]
  | expectedFunctionName => ∀ t ∈ place, t.kind ≠ .identifier
  | expectedOpenParen => ∀ t ∈ place, t.punctuation? ≠ some .leftParen
  | expectedParameterName =>
      ∃ t ∈ place, t.kind ≠ .identifier ∧ t.punctuation? ≠ some .rightParen
  | expectedCloseParen => ∀ t ∈ place, t.punctuation? ≠ some .rightParen
  | expectedVariableName => ∀ t ∈ place, t.kind ≠ .identifier
  | expectedFunctionKeyword => False
  | expectedDeclarationKeyword => False
  | expectedIfKeyword => False
  | expectedWhileKeyword => False

namespace Goal
variable {policy : TerminatorPolicy} {g : Goal} {t : Token} {kind : ViolationKind}

theorem warranted_expression (h : t.terminal.isOperand = false) :
    ViolationKind.expectedExpression.Warranted policy (some t) := by
  rintro _ ⟨⟩ hk
  rw [Token.isOperand_terminal] at h
  simp only [List.mem_cons, List.not_mem_nil, or_false] at hk
  rcases hk with hk | hk | hk | hk <;> simp [hk, TokenKind.isOperand] at h

theorem warranted_of_opens {next : List Goal} (h : Opens t.terminal (some kind) next) :
    kind.Warranted policy (some t) := by
  generalize hu : t.terminal = u at h
  cases h with
  | unexpected hnone =>
    obtain ⟨hkind, hword⟩ := Token.terminal_eq_keyword.mp hu
    exact ⟨t, rfl, hkind, hword ▸ hnone⟩
  | noOperand _ hoperand => exact warranted_expression (hu ▸ hoperand)

theorem warranted_of_missing {u : Terminal} {next : List Goal} (h : Awaits g u next kind)
    (hne : t.terminal ≠ u) : kind.Warranted policy (some t) := by
  cases h with
  | functionName | variableName =>
    rintro _ ⟨⟩ hk
    exact hne (Token.terminal_eq_name.mpr hk)
  | parametersOpen | blockOpen | conditionOpen | conditionClose =>
    rintro _ ⟨⟩ hp
    exact hne (Token.terminal_eq_mark.mpr hp)

/-- A step of a goal: what it reports is warranted by the token before it. -/
theorem warranted_of_moves {m : Move} (hm : Moves policy g t.terminal m)
    (h : m.report = some kind) : kind.Warranted policy (some t) := by
  generalize hu : t.terminal = u at hm
  cases hm with
  | missing hawaits hne =>
    cases h
    exact warranted_of_missing hawaits (hu ▸ hne)
  | noOperand _ hoperand =>
    cases h
    exact warranted_expression (hu ▸ hoperand)
  | noParameter _ hname hclose =>
    cases h
    subst hu
    refine ⟨t, rfl, ?_, ?_⟩
    · exact fun hk => hname (Token.terminal_eq_name.mpr hk)
    · exact fun hp => hclose (Token.terminal_eq_mark.mpr hp)
  | noStatementEnd _ haccepts =>
    cases h
    rintro _ ⟨⟩ hends
    rw [← hu, TerminatorPolicy.accepts_of_admits hends] at haccepts
    cases haccepts
  | blockStatement _ hopening =>
    subst hu h
    exact warranted_of_opens (opens_of_eq hopening)
  | noElseBody _ hbrace =>
    cases h
    rintro _ ⟨⟩ hp
    exact hbrace (hu ▸ Token.terminal_eq_mark.mpr hp)
  | awaited | operand | parameterName | parametersEnd | comma | statementEnd | equalsSign | blockEnd
  | otherwise | noElse | elseIf | elseBlock => cases h

theorem warranted_of_atEnd (h : kind ∈ g.atEnd) : kind.Warranted policy none := by
  cases g <;> simp [atEnd] at h <;> rcases h with rfl | rfl <;> simp [ViolationKind.Warranted]

/-- What can be raised at a token, or at the end of the input, has its reason there. -/
theorem Raises.warranted {place : Option Token}
    (h : Raises policy kind (place.map Token.terminal)) : kind.Warranted policy place := by
  cases place with
  | none =>
    obtain ⟨g, hg⟩ := h
    exact warranted_of_atEnd hg
  | some t =>
    rcases h with ⟨g, hg⟩ | ho
    · exact warranted_of_moves (moves_move policy g t.terminal) hg
    · exact warranted_of_opens (ho ▸ opens_opening t.terminal)

end Goal

theorem getElem?_beforeEnd {tokens : List Token} {k : Nat} (h : k ≤ (beforeEnd tokens).length) :
    (beforeEnd tokens)[k]? = tokens[k]?.filter (!·.isEnd) := by
  induction tokens generalizing k with
  | nil => rfl
  | cons t tokens ih =>
    cases ht : t.isEnd with
    | true =>
      obtain rfl : k = 0 := by simpa [beforeEnd, ht] using h
      simp [beforeEnd, Option.filter, ht]
    | false =>
      have hcons : beforeEnd (t :: tokens) = t :: beforeEnd tokens := by simp [beforeEnd, ht]
      rw [hcons] at h ⊢
      cases k with
      | zero => simp [Option.filter, ht]
      | succ k => simpa using ih (Nat.le_of_succ_le_succ h)

/-- A report of a whole check lies within the input or at its end, and has its reason there. -/
theorem warranted_of_mem_trace {policy : TerminatorPolicy} {tokens : List Token} {r : Report}
    (h : r ∈ Goal.trace policy [] 0 (terminals tokens)) :
    r.index ≤ (terminals tokens).length ∧
      r.kind.Warranted policy (tokens[r.index]?.filter (!·.isEnd)) := by
  obtain ⟨k, hk, hindex, hraises⟩ := Goal.raises_of_mem_trace h
  rw [Nat.zero_add] at hindex
  subst hindex
  refine ⟨hk, ?_⟩
  rw [terminals_eq] at hk hraises
  rw [List.length_map] at hk
  rw [List.getElem?_map] at hraises
  rw [← getElem?_beforeEnd hk]
  exact hraises.warranted

/-- Each violation is a report with its place, which is that of the token at which it was detected.
This token, if it stands before the end of the input, is the reason for the violation. -/
theorem reports_warranted (policy : TerminatorPolicy) (tokens : List Token) :
    (checkTokens policy tokens).violations =
        (Checker.ofTokens policy tokens).program.reports.toList.map
          (fun r => ⟨r.kind, Checker.positionAt tokens.toArray r.index⟩) ∧
      ∀ r ∈ (Checker.ofTokens policy tokens).program.reports.toList,
        r.kind.Warranted policy (tokens[r.index]?.filter (!·.isEnd)) ∧
        ∀ t, tokens[r.index]? = some t →
          Checker.positionAt tokens.toArray r.index = t.position := by
  constructor
  · rw [violations_checkTokens, Checker.reports_program]
  · intro r hr
    rw [Checker.reports_program] at hr
    exact ⟨(warranted_of_mem_trace hr).2, fun t => Checker.positionAt_of_getElem?⟩

/-- The tokens of `function f(a;`. -/
def brokenParameters : List Token :=
  [⟨.keyword, "function", ⟨1, 1⟩⟩, ⟨.identifier, "f", ⟨1, 10⟩⟩, ⟨.punctuation, "(", ⟨1, 11⟩⟩,
    ⟨.identifier, "a", ⟨1, 12⟩⟩, ⟨.punctuation, ";", ⟨1, 13⟩⟩]

theorem reports_warranted_brokenParameters :
    (checkTokens .semicolonOnly brokenParameters).violations =
        [⟨.expectedParameterName, ⟨1, 13⟩⟩, ⟨.expectedExpression, ⟨1, 13⟩⟩,
          ⟨.expectedSemicolon, ⟨1, 13⟩⟩] ∧
      ⟨.expectedParameterName, 4⟩ ∈
        (Checker.ofTokens .semicolonOnly brokenParameters).program.reports.toList ∧
      Checker.positionAt brokenParameters.toArray 4 = ⟨1, 13⟩ ∧
      ∃ t ∈ brokenParameters[4]?, t.kind ≠ .identifier ∧ t.punctuation? ≠ some .rightParen := by
  obtain ⟨hviolations, hwarranted⟩ := reports_warranted .semicolonOnly brokenParameters
  have hreports : (Checker.ofTokens .semicolonOnly brokenParameters).program.reports.toList =
      [⟨.expectedParameterName, 4⟩, ⟨.expectedExpression, 4⟩, ⟨.expectedSemicolon, 5⟩] := by
    rw [Checker.reports_program]
    decide
  rw [hreports] at hviolations hwarranted
  obtain ⟨hreason, hplace⟩ := hwarranted ⟨.expectedParameterName, 4⟩ (by simp)
  exact ⟨hviolations, by simp [hreports], hplace _ rfl, hreason⟩

end SyntaxAudit
