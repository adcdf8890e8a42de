import SyntaxAudit.Proofs.Detection
import SyntaxAudit.Proofs.ScannedTokens

/-! Tokens that the grammar has no use for: whatever is open when one of them comes, it is rejected
once and only once. -/
namespace SyntaxAudit

/-- The kinds of violation that reject a token and take it all the same. -/
def ViolationKind.isRejection : ViolationKind → Bool
  | expectedExpression => true
  | unexpectedKeyword => true
  | _ => false

def Terminal.isUnsupported : Terminal → Bool
  | .other => true
  | t => t.isStray

/-- The terminals before an operand that is not the first of its statement. -/
def Terminal.precedesOperand : Terminal → Bool
  | .assign => true
  | .mark .leftParen => true
  | _ => false

namespace Goal
variable {policy : TerminatorPolicy} {g : Goal} {t : Terminal} {goals next : List Goal}
  {report : Option ViolationKind}

private theorem isOperand_unsupported (h : t.isUnsupported = true) : t.isOperand = false := by
  cases t <;> simp_all [Terminal.isUnsupported, Terminal.isStray, Terminal.isOperand]

private theorem accepts_unsupported (policy : TerminatorPolicy) (h : t.isUnsupported = true) :
    policy.accepts t = false := by
  cases t <;> cases policy <;>
    simp_all [Terminal.isUnsupported, Terminal.isStray, TerminatorPolicy.accepts]

theorem opening_unsupported (h : t.isUnsupported = true) :
    (opening t).1.toList.countP ViolationKind.isRejection = 1 := by
  by_cases hother : t = .other
  · subst hother
    rfl
  · have hstray : t.isStray = true := by
      unfold Terminal.isUnsupported at h
      split at h <;> simp_all
    rw [opening_stray hstray]
    rfl

/-- A goal rejects an unsupported terminal if and only if it takes it. -/
theorem move_unsupported (h : t.isUnsupported = true) :
    match g.move policy t with
    | .take report _ => report.toList.countP ViolationKind.isRejection = 1
    | .leave report => report.toList.countP ViolationKind.isRejection = 0 := by
  have hmoves := moves_move policy g t
  generalize g.move policy t = m at hmoves
  cases hmoves with
  | missing hg => cases hg <;> rfl
  | noOperand => rfl
  | noParameter => rfl
  | noStatementEnd => rfl
  | noElse => rfl
  | noElseBody => rfl
  | blockStatement _ ho =>
    have hopening := opening_unsupported h
    rwa [ho] at hopening
  | operand _ hoperand =>
    rw [isOperand_unsupported h] at hoperand
    cases hoperand
  | statementEnd _ haccepts =>
    rw [accepts_unsupported policy h] at haccepts
    cases haccepts
  | awaited hg => cases hg <;> exact absurd h (by decide)
  | parameterName | parametersEnd | comma | equalsSign | blockEnd | otherwise | elseIf
  | elseBlock => exact absurd h (by decide)

/-- A step of a check: whatever is open, an unsupported terminal is rejected once. -/
theorem feed_unsupported (h : t.isUnsupported = true) (goals : List Goal) :
    (feed policy t goals).1.countP ViolationKind.isRejection = 1 := by
  refine feed_induction goals ?opens ?takes ?leaves
  case opens => exact opening_unsupported h
  case takes =>
    intro g goals report next hm
    have hmove := @move_unsupported policy g t h
    rw [hm] at hmove
    exact hmove
  case leaves =>
    intro g goals report hm ih
    have hmove := @move_unsupported policy g t h
    rw [hm] at hmove
    rw [List.countP_append, hmove, ih]

/-- The goals that miss an expression when the input ends before they are completed. -/
def awaitsOperand : Goal → Bool
  | initialValue => true
  | condition _ => true
  | _ => false

def Calm (goals : List Goal) : Prop :=
  ∀ g ∈ goals, g.awaitsOperand = false

theorem Calm.append (hnext : Calm next) (hgoals : Calm goals) : Calm (next ++ goals) := by
  intro g hg
  rcases List.mem_append.mp hg with hg | hg
  · exact hnext g hg
  · exact hgoals g hg

theorem calm_of_opens (h : Opens t report next) : Calm next := by
  cases h <;> simp [Calm, awaitsOperand]

/-- A goal that takes a terminal asks for an operand only behind an equals sign or an opening
parenthesis, and then for nothing else. -/
theorem calm_of_take (hm : g.move policy t = .take report next) :
    Calm next ∨ t.precedesOperand = true ∧ ∃ g', next = [g'] := by
  cases moves_of_eq hm with
  | awaited hg =>
    cases hg with
    | conditionOpen head => exact .inr ⟨rfl, _, rfl⟩
    | conditionClose head => cases head <;> simp [Calm, awaitsOperand, Conditional.body]
    | _ => simp [Calm, awaitsOperand]
  | operand hg => cases hg <;> simp [Calm, awaitsOperand]
  | noOperand hg => cases hg <;> simp [Calm, awaitsOperand]
  | blockStatement _ ho =>
    exact .inl ((calm_of_opens (opens_of_eq ho)).append (by simp [Calm, awaitsOperand]))
  | equalsSign => exact .inr ⟨rfl, _, rfl⟩
  | parameterName | parametersEnd | comma | statementEnd | blockEnd | otherwise | elseIf
  | elseBlock => simp [Calm, awaitsOperand]

/-- A step of a check: only the topmost goal may await an operand, and only right behind what
stands before operands. -/
theorem calm_feed (h : Calm goals.tail) :
    Calm (feed policy t goals).2 ∨
      t.precedesOperand = true ∧ Calm (feed policy t goals).2.tail := by
  revert h
  refine feed_induction goals ?opens ?takes ?leaves
  case opens => exact fun _ => .inl (calm_of_opens (opens_opening t))
  case takes =>
    intro g goals report next hm h
    rcases calm_of_take hm with hnext | ⟨ht, g', rfl⟩
    · exact .inl (hnext.append h)
    · exact .inr ⟨ht, h⟩
  case leaves =>
    intro g goals report hm ih h
    exact ih fun g hg => h g (List.mem_of_mem_tail hg)

/-- An expression is missed at the end of the input only behind what stands before operands. -/
theorem last_of_missing_operand {index : Nat} {text : List Terminal} (h : Calm goals.tail)
    (hne : text ≠ [])
    (hr : ⟨.expectedExpression, index + text.length⟩ ∈ trace policy goals index text) :
    ∃ t ∈ text.getLast?, t.precedesOperand = true := by
  induction text generalizing goals index with
  | nil => exact absurd rfl hne
  | cons t text ih =>
    have hlater : ⟨.expectedExpression, index + 1 + text.length⟩ ∈
        trace policy (feed policy t goals).2 (index + 1) text := by
      rw [trace] at hr
      rcases List.mem_append.mp hr with hr | hr
      · obtain ⟨kind, -, he⟩ := List.mem_map.mp hr
        simp at he
      · rwa [List.length_cons, Nat.add_comm text.length, ← Nat.add_assoc] at hr
    have hcalm := @calm_feed policy t goals h
    cases text with
    | nil =>
      refine ⟨t, rfl, ?_⟩
      rcases hcalm with hcalm | ⟨ht, -⟩
      · obtain ⟨kind, hkind, he⟩ := List.mem_map.mp hlater
        obtain ⟨g, hg, hend⟩ := List.mem_flatMap.mp hkind
        have hawaits : g.awaitsOperand = true := by
          cases g <;> simp_all [atEnd, awaitsOperand]
        rw [hcalm g hg] at hawaits
        cases hawaits
      · exact ht
    | cons u text =>
      have htail : Calm (feed policy t goals).2.tail := by
        rcases hcalm with hcalm | ⟨-, hcalm⟩
        · exact fun g hg => hcalm g (List.mem_of_mem_tail hg)
        · exact hcalm
      obtain ⟨v, hv, hp⟩ := ih htail (by simp) hlater
      exact ⟨v, by simpa using hv, hp⟩

end Goal

def Token.IsUnsupported (t : Token) : Prop :=
  t.kind = .comment ∨ t.kind = .null ∨ t.kind = .undefined ∨
    t.kind = .operator ∧ t.operator? ≠ some .assign ∨
    t.kind = .keyword ∧ ∀ k ∈ t.keyword?, k ∈ [.kwFor, .kwDo, .kwSwitch, .kwCase, .kwDefault,
      .kwReturn, .kwBreak, .kwContinue]

theorem Token.isUnsupported_terminal {t : Token} (h : t.IsUnsupported) :
    t.terminal.isUnsupported = true := by
  rcases h with h | h | h | ⟨h, ho⟩ | ⟨h, hk⟩
  · simp [Token.terminal, h, Terminal.isUnsupported]
  · simp [Token.terminal, h, Terminal.isUnsupported]
  · simp [Token.terminal, h, Terminal.isUnsupported]
  · simp [Token.terminal, h, ho, Terminal.isUnsupported]
  · rw [Token.terminal, h]
    cases hw : t.keyword? with
    | none => rfl
    | some k =>
      have hmem := hk k hw
      simp only [List.mem_cons, List.not_mem_nil, or_false] at hmem
      rcases hmem with rfl | rfl | rfl | rfl | rfl | rfl | rfl | rfl <;> rfl

theorem rejected_once {policy : TerminatorPolicy} {tokens : List Token} {j : Nat} {t : Token}
    (hj : j < (terminals tokens).length) (ht : tokens[j]? = some t) (h : t.IsUnsupported) :
    (Goal.trace policy [] 0 (terminals tokens)).countP
      (fun r => r.index == j && r.kind.isRejection) = 1 := by
  have hterminal := getElem?_terminals hj
  rw [ht, Option.map_some] at hterminal
  obtain ⟨before, -, hbefore⟩ := @Goal.kindsAt_trace policy t.terminal [] (fun _ => True)
    (fun _ _ _ => trivial) trivial 0 j _ hterminal
  rw [Nat.zero_add] at hbefore
  rw [Goal.countP_kindsAt, hbefore]
  exact Goal.feed_unsupported (Token.isUnsupported_terminal h) before

section comments
variable {policy : TerminatorPolicy} {tokens : List Token} {t : Token} {r : Report} {j : Nat}

/-- A comment is rejected as an expression, never as a keyword. -/
theorem kind_of_comment (hr : r ∈ Goal.trace policy [] 0 (terminals tokens))
    (ht : tokens[r.index]? = some t) (hc : t.kind = .comment) (h : r.kind.isRejection = true) :
    r.kind = .expectedExpression := by
  have hwarranted := (warranted_of_mem_trace hr).2
  cases hk : r.kind with
  | unexpectedKeyword =>
    rw [hk, ht] at hwarranted
    obtain ⟨u, hu, hkeyword, -⟩ := hwarranted
    obtain ⟨rfl, -⟩ : t = u ∧ _ := by simpa [Option.filter_eq_some_iff] using hu
    rw [hc] at hkeyword
    cases hkeyword
  | expectedExpression => rfl
  | _ => simp [hk, ViolationKind.isRejection] at h

/-- An expression is not missed right behind a comment. -/
theorem not_missing_behind_comment (hall : (terminals tokens).length = tokens.length)
    (hlast : tokens.getLast? = some t) (hc : t.kind = .comment) :
    ⟨.expectedExpression, tokens.length⟩ ∉ Goal.trace policy [] 0 (terminals tokens) := by
  intro hr
  rw [List.getLast?_eq_getElem?] at hlast
  have hlt : tokens.length - 1 < (terminals tokens).length := by
    have hbound := (List.getElem?_eq_some_iff.mp hlast).1
    omega
  have hne : terminals tokens ≠ [] := List.ne_nil_of_length_pos (by omega)
  rw [← hall, ← Nat.zero_add (terminals tokens).length] at hr
  obtain ⟨u, hu, hoperand⟩ := Goal.last_of_missing_operand (by simp [Goal.Calm]) hne hr
  rw [List.getLast?_eq_getElem?, hall, getElem?_terminals hlt, hlast] at hu
  obtain rfl : t.terminal = u := by simpa using hu
  simp [Token.terminal, hc, Terminal.precedesOperand] at hoperand

/-- Only the token of a comment lends its place to a missing expression. At the end of the input
the last token does, and it is no comment then. -/
theorem index_of_comment (horder : tokens.Pairwise fun a b => a.position.Precedes b.position)
    (hr : r ∈ Goal.trace policy [] 0 (terminals tokens)) (ht : tokens[j]? = some t)
    (hc : t.kind = .comment) (hkind : r.kind = .expectedExpression)
    (hplace : Checker.positionAt tokens.toArray r.index = t.position) : r.index = j := by
  cases hat : tokens[r.index]? with
  | some a =>
    rw [Checker.positionAt_of_getElem? hat] at hplace
    exact eq_of_position_eq horder hat ht hplace
  | none =>
    exfalso
    have hle := (warranted_of_mem_trace hr).1
    have hbound : (terminals tokens).length ≤ tokens.length := by
      rw [terminals_eq, List.length_map]
      exact (List.takeWhile_prefix _).length_le
    have hge := List.getElem?_eq_none_iff.mp hat
    have hindex : r.index = tokens.length := by omega
    obtain ⟨last, hlast⟩ : ∃ last, tokens.getLast? = some last :=
      ⟨_, List.getLast?_eq_some_getLast (List.ne_nil_of_mem (List.mem_of_getElem? ht))⟩
    -- the last token lends its place to what is missed at the end, so it is the comment
    have hsame : tokens.length - 1 = j := by
      rw [hindex, Checker.positionAt_length hlast] at hplace
      exact eq_of_position_eq horder (List.getLast?_eq_getElem?.symm.trans hlast) ht hplace
    have hcomment : tokens.getLast? = some t := by
      rw [List.getLast?_eq_getElem?, hsame, ht]
    have hmissing : ⟨.expectedExpression, tokens.length⟩ ∈
        Goal.trace policy [] 0 (terminals tokens) := by
      rw [← hindex, ← hkind]
      exact hr
    exact not_missing_behind_comment (by omega) hcomment hc hmissing

end comments

/-- Every comment of a scanned text is rejected once, at its place. -/
theorem comment_rejected_once {options : ScanOptions} {source : String} {tokens : List Token}
    (h : scan options source = .ok tokens) (policy : TerminatorPolicy) {t : Token} (ht : t ∈ tokens)
    (hc : t.kind = .comment) :
    (checkTokens policy tokens).violations.count ⟨.expectedExpression, t.position⟩ = 1 := by
  obtain ⟨body, hbody, hend, horder⟩ := tokens_of_scan h
  obtain ⟨j, hat⟩ := List.mem_iff_getElem?.mp ht
  have hj : j < (terminals tokens).length := by
    rw [hbody, terminals_endTokens hend, List.length_map]
    rcases Nat.lt_or_ge j body.length with hlt | hge
    · exact hlt
    · rw [hbody, List.getElem?_append_right hge] at hat
      have hmark := List.mem_of_getElem? hat
      unfold ScanOptions.endTokens at hmark
      split at hmark
      · obtain rfl := List.mem_singleton.mp hmark
        cases hc
      · cases hmark
  have honce := @rejected_once policy tokens j t hj hat (.inl hc)
  rw [violations_checkTokens, List.count, List.countP_map, ← honce]
  apply List.countP_congr
  intro r hr
  have hiff :
      (r.kind = .expectedExpression ∧ Checker.positionAt tokens.toArray r.index = t.position) ↔
        (r.index = j ∧ r.kind.isRejection = true) := by
    constructor
    · rintro ⟨hkind, hplace⟩
      exact ⟨index_of_comment horder hr hat hc hkind hplace, by rw [hkind]; rfl⟩
    · rintro ⟨rfl, hkind⟩
      exact ⟨kind_of_comment hr hat hc hkind, Checker.positionAt_of_getElem? hat⟩
  simpa using hiff

/-- A check rejects every unsupported token that it takes once and only once, as an expression or as
a keyword. In a source text whose comments are kept, every comment is rejected as an expression, and
no other violation of this kind has its place. -/
theorem unsupported_rejected_once :
    (∀ (policy : TerminatorPolicy) (tokens : List Token) (j : Nat) (t : Token),
      j < (checkTokens policy tokens).consumed → tokens[j]? = some t → t.IsUnsupported →
      (Checker.ofTokens policy tokens).program.reports.toList.countP
        (fun r => r.index == j && r.kind.isRejection) = 1) ∧
    ∀ (options : CheckOptions) (source : String) (tokens : List Token),
      options.scan.keepComments = true → scan options.scan source = .ok tokens →
      ∃ outcome, checkSource options source = .ok outcome ∧
        ∀ (before after : List Lexeme) (comment : Lexeme),
          lexemes source.toList = before ++ comment :: after → comment.kind = .token .comment →
          outcome.violations.count
            ⟨.expectedExpression, .behind (before.flatMap Lexeme.text)⟩ = 1 := by
  constructor
  · intro policy tokens j t hj ht h
    rw [consumed_checkTokens] at hj
    rw [Checker.reports_program]
    exact rejected_once hj ht h
  · intro options source tokens hkeep hscan
    refine ⟨_, checkSource_of_scan hscan, ?_⟩
    intro before after comment hpieces hcomment
    have hmem := mem_tokens_of_scan hkeep hscan hpieces hcomment
    exact comment_rejected_once hscan options.terminator hmem rfl

def commentForValue : List Token :=
  [⟨.keyword, "let", ⟨1, 1⟩⟩, ⟨.identifier, "x", ⟨1, 5⟩⟩, ⟨.operator, "=", ⟨1, 7⟩⟩,
    ⟨.comment, "// y", ⟨1, 9⟩⟩]

def beforeComment : List Lexeme :=
  [⟨.token .keyword, ['l', 'e', 't']⟩, ⟨.blank, [' ']⟩, ⟨.token .identifier, ['x']⟩,
    ⟨.blank, [' ']⟩, ⟨.token .operator, ['=']⟩, ⟨.blank, [' ']⟩]

theorem comment_for_value_rejected :
    (Checker.ofTokens .semicolonOnly commentForValue).program.reports.toList.countP
      (fun r => r.index == 3 && r.kind.isRejection) = 1 ∧
    ∃ outcome, checkSource { scan := ⟨true, false⟩ } "let x = // y" = .ok outcome ∧
      outcome.violations.count ⟨.expectedExpression, ⟨1, 9⟩⟩ = 1 := by
  obtain ⟨htokens, hsource⟩ := unsupported_rejected_once
  have hitems : items ⟨true, false⟩ "let x = // y" = commentForValue.map .token := by
    decide +kernel
  have hscan : scan ⟨true, false⟩ "let x = // y" = .ok commentForValue := by
    rw [scan, hitems]
    rfl
  have hpieces : lexemes "let x = // y".toList =
      beforeComment ++ ⟨.token .comment, ['/', '/', ' ', 'y']⟩ :: [] := by
    decide +kernel
  obtain ⟨outcome, hok, hcomments⟩ :=
    hsource { scan := ⟨true, false⟩ } "let x = // y" commentForValue rfl hscan
  refine ⟨?_, outcome, hok, ?_⟩
  · have htaken : 3 < (checkTokens .semicolonOnly commentForValue).consumed := by
      rw [consumed_checkTokens]
      decide
    exact htokens .semicolonOnly commentForValue 3 ⟨.comment, "// y", ⟨1, 9⟩⟩ htaken rfl (.inl rfl)
  · exact hcomments beforeComment [] _ hpieces rfl

end SyntaxAudit
