import SyntaxAudit.Proofs.Recovery

/-! The check accepts exactly the programs of the grammar. A goal stands for the texts that complete
its construct, and a check without a report reads such a text for each goal that is open. -/
namespace SyntaxAudit

namespace Goal

/-- The texts that complete a construct of which a goal is left. -/
inductive Completes (policy : TerminatorPolicy) : Goal → List Terminal → Prop
  | functionName {text : List Terminal} :
      Completes policy .parametersOpen text → Completes policy .functionName (.name :: text)
  | parametersOpen {text : List Terminal} :
      Completes policy .parameter text →
      Completes policy .parametersOpen (.mark .leftParen :: text)
  | parameter {names body : List Terminal} :
      Derives policy .parameters names → Derives policy .block body →
      Completes policy .parameter (names ++ .mark .rightParen :: body)
  | parameterComma {text : List Terminal} :
      Completes policy .parameter text → Completes policy .parameterComma (.mark .comma :: text)
  | noParameterComma {text : List Terminal} :
      Completes policy .parameter text → Completes policy .parameterComma text
  | blockOpen {body : List Terminal} :
      Derives policy .block body → Completes policy .blockOpen body
  | blockRest {body : List Terminal} :
      Derives policy .statements body →
      Completes policy .blockRest (body ++ [.mark .rightBrace])
  | variableName {text : List Terminal} :
      Completes policy .initializer text → Completes policy .variableName (.name :: text)
  | initializer {text : List Terminal} :
      Completes policy .initialValue text → Completes policy .initializer (.assign :: text)
  | noInitializer {text : List Terminal} :
      Completes policy .terminator text → Completes policy .initializer text
  | initialValue {value : Terminal} {text : List Terminal} :
      value.isOperand = true → Completes policy .terminator text →
      Completes policy .initialValue (value :: text)
  | terminator {last : Terminal} :
      policy.accepts last = true → Completes policy .terminator [last]
  | conditionOpen {head : Conditional} {text : List Terminal} :
      Completes policy (.condition head) text →
      Completes policy (.conditionOpen head) (.mark .leftParen :: text)
  | condition {head : Conditional} {value : Terminal} {text : List Terminal} :
      value.isOperand = true → Completes policy (.conditionClose head) text →
      Completes policy (.condition head) (value :: text)
  | whileClose {body : List Terminal} :
      Derives policy .block body →
      Completes policy (.conditionClose .whileHead) (.mark .rightParen :: body)
  | ifClose {body text : List Terminal} :
      Derives policy .block body → Completes policy .elseClause text →
      Completes policy (.conditionClose .ifHead) (.mark .rightParen :: (body ++ text))
  | elseClause {text : List Terminal} :
      Completes policy .elseBody text → Completes policy .elseClause (.word .kwElse :: text)
  | noElse : Completes policy .elseClause []
  | elseBlock {body : List Terminal} :
      Derives policy .block body → Completes policy .elseBody body
  | elseIf {text : List Terminal} :
      Derives policy .conditional text → Completes policy .elseBody text

inductive CompletesAll (policy : TerminatorPolicy) : List Goal → List Terminal → Prop
  | nil : CompletesAll policy [] []
  | cons {g : Goal} {goals : List Goal} {first rest : List Terminal} :
      Completes policy g first → CompletesAll policy goals rest →
      CompletesAll policy (g :: goals) (first ++ rest)

variable {policy : TerminatorPolicy} {g : Goal} {t : Terminal} {goals next : List Goal}
  {text : List Terminal}

namespace CompletesAll

theorem append_inv (h : CompletesAll policy (next ++ goals) text) :
    ∃ first rest, text = first ++ rest ∧ CompletesAll policy next first ∧
      CompletesAll policy goals rest := by
  induction next generalizing text with
  | nil => exact ⟨[], text, rfl, .nil, h⟩
  | cons g next ih =>
    cases h with
    | cons hg h =>
      obtain ⟨first, rest, rfl, hf, hr⟩ := ih h
      exact ⟨_, rest, (List.append_assoc ..).symm, .cons hg hf, hr⟩

theorem nil_inv (h : CompletesAll policy [] text) : text = [] := by
  cases h
  rfl

theorem singleton_inv (h : CompletesAll policy [g] text) : Completes policy g text := by
  cases h with
  | cons hg h =>
    rw [h.nil_inv, List.append_nil]
    exact hg

end CompletesAll

/-- A conditional is the word `if` and what completes its head. -/
theorem Completes.conditional (h : Completes policy (.conditionOpen .ifHead) text) :
    Derives policy .conditional (.word .kwIf :: text) := by
  cases h with
  | conditionOpen h =>
    cases h with
    | condition hv h =>
      cases h with
      | ifClose hb he =>
        cases he with
        | noElse =>
          rw [List.append_nil]
          exact .ifOnly hv hb
        | elseClause he =>
          cases he with
          | elseBlock ho => exact .ifElse hv hb ho
          | elseIf ho => exact .ifElseIf hv hb ho

theorem Completes.variable {k : Keyword} (hk : k.declaresVariable = true)
    (h : Completes policy .variableName text) : Derives policy .statement (.word k :: text) := by
  cases h with
  | variableName h =>
    cases h with
    | noInitializer h =>
      cases h with
      | terminator hl => exact .declaration hk hl
    | initializer h =>
      cases h with
      | initialValue hv h =>
        cases h with
        | terminator hl => exact .initialization hk hv hl

theorem Completes.function (h : Completes policy .functionName text) :
    Derives policy .statement (.word .kwFunction :: text) := by
  cases h with
  | functionName h =>
    cases h with
    | parametersOpen h =>
      cases h with
      | parameter hn hb => exact .function hn hb

theorem Completes.loop (h : Completes policy (.conditionOpen .whileHead) text) :
    Derives policy .statement (.word .kwWhile :: text) := by
  cases h with
  | conditionOpen h =>
    cases h with
    | condition hv h =>
      cases h with
      | whileClose hb => exact .loop hv hb

theorem Completes.expression (ht : t.isOperand = true) (h : Completes policy .terminator text) :
    Derives policy .statement (t :: text) := by
  cases h with
  | terminator hl => exact .expression ht hl

/-- A terminal that opens a statement without a report is followed by the rest of the statement. -/
theorem derives_of_opening (ho : opening t = (none, next))
    (h : CompletesAll policy next text) : Derives policy .statement (t :: text) := by
  cases opens_of_eq ho with
  | function => exact h.singleton_inv.function
  | declaration hk => exact h.singleton_inv.variable hk
  | choice => exact .choice h.singleton_inv.conditional
  | loop => exact h.singleton_inv.loop
  | operand ht => exact h.singleton_inv.expression ht

/-- A parameter is followed by more of them, with or without a comma. -/
private theorem completes_name (h : Completes policy .parameterComma text) :
    Completes policy .parameter (.name :: text) := by
  cases h with
  | parameterComma hp =>
    cases hp with
    | parameter hn hb => exact .parameter (.parameterComma hn) hb
  | noParameterComma hp =>
    cases hp with
    | parameter hn hb => exact .parameter (.parameter hn) hb

private theorem completes_awaitsParameter (hg : AwaitsParameter t g)
    (h : Completes policy .parameter (t :: text)) : Completes policy g (t :: text) := by
  cases hg with
  | parameter => exact h
  | noComma => exact .noParameterComma h

private theorem completes_blockRest (ho : opening t = (none, next))
    (h : CompletesAll policy (next ++ [.blockRest]) text) :
    Completes policy .blockRest (t :: text) := by
  obtain ⟨first, rest, rfl, hf, hr⟩ := h.append_inv
  cases hr.singleton_inv with
  | blockRest hb =>
    rw [← List.cons_append, ← List.append_assoc]
    exact .blockRest (.moreStatements (derives_of_opening ho hf) hb)

private theorem completes_close {head : Conditional} (h : CompletesAll policy head.body text) :
    Completes policy (.conditionClose head) (.mark .rightParen :: text) := by
  cases head with
  | ifHead =>
    cases h with
    | cons hb h =>
      cases hb with
      | blockOpen hb => exact .ifClose hb h.singleton_inv
  | whileHead =>
    cases h.singleton_inv with
    | blockOpen hb => exact .whileClose hb

private theorem completes_awaited {kind : ViolationKind} (hg : Awaits g t next kind)
    (h : CompletesAll policy next text) : Completes policy g (t :: text) := by
  cases hg with
  | functionName => exact .functionName h.singleton_inv
  | parametersOpen => exact .parametersOpen h.singleton_inv
  | blockOpen =>
    cases h.singleton_inv with
    | blockRest hb => exact .blockOpen (.braces hb)
  | variableName => exact .variableName h.singleton_inv
  | conditionOpen head => exact .conditionOpen h.singleton_inv
  | conditionClose head => exact completes_close h

/-- A step of a goal without a report, read backwards: the terminal and what completes the next
goals together complete the goal. -/
theorem completes_of_take (hm : g.move policy t = .take none next)
    (h : CompletesAll policy next text) : Completes policy g (t :: text) := by
  cases moves_of_eq hm with
  | awaited hg => exact completes_awaited hg h
  | operand hg ht =>
    cases hg with
    | initialValue => exact .initialValue ht h.singleton_inv
    | condition head => exact .condition ht h.singleton_inv
  | parameterName hg => exact completes_awaitsParameter hg (completes_name h.singleton_inv)
  | parametersEnd hg =>
    cases h.singleton_inv with
    | blockOpen hb => exact completes_awaitsParameter hg (.parameter .noParameters hb)
  | comma => exact .parameterComma h.singleton_inv
  | statementEnd hg ht =>
    rw [h.nil_inv]
    cases hg with
    | noEqualsSign => exact .noInitializer (.terminator ht)
    | terminator => exact .terminator ht
  | equalsSign => exact .initializer h.singleton_inv
  | blockEnd =>
    rw [h.nil_inv]
    exact .blockRest .noStatements
  | blockStatement _ ho => exact completes_blockRest ho h
  | otherwise => exact .elseClause h.singleton_inv
  | elseIf => exact .elseIf h.singleton_inv.conditional
  | elseBlock =>
    cases h.singleton_inv with
    | blockRest hb => exact .elseBlock (.braces hb)

/-- Only a missing `else` is passed over in silence. -/
private theorem leave_none_inv (h : g.move policy t = .leave none) : g = .elseClause := by
  cases moves_of_eq h with
  | noElse => rfl

/-- Only a missing `else` is no fault at the end of the input. -/
theorem atEnd_nil_inv (h : g.atEnd = []) : g = .elseClause := by
  cases g <;> simp [atEnd] at h
  rfl

/-- The texts with which a check may go on: all open goals are completed, and statements follow. -/
def Fulfills (policy : TerminatorPolicy) (goals : List Goal) (text : List Terminal) : Prop :=
  ∃ first rest, text = first ++ rest ∧ CompletesAll policy goals first ∧
    Derives policy .statements rest

theorem fulfills_of_end (h : goals.flatMap atEnd = []) : Fulfills policy goals [] := by
  refine ⟨[], [], rfl, ?_, .noStatements⟩
  induction goals with
  | nil => exact .nil
  | cons g goals ih =>
    simp only [List.flatMap_cons, List.append_eq_nil_iff] at h
    rw [atEnd_nil_inv h.1]
    exact .cons .noElse (ih h.2)

/-- A step of a check without a report, read backwards. -/
theorem fulfills_of_feed (hf : feed policy t goals = ([], next))
    (h : Fulfills policy next text) : Fulfills policy goals (t :: text) := by
  induction goals with
  | nil =>
    rcases ho : opening t with ⟨report, after⟩
    cases report with
    | some kind => simp [feed, settle, ho] at hf
    | none =>
      obtain rfl : after = next := by simpa [feed, settle, ho] using hf
      obtain ⟨first, rest, rfl, hfirst, hrest⟩ := h
      exact ⟨[], _, rfl, .nil, .moreStatements (derives_of_opening ho hfirst) hrest⟩
  | cons g goals ih =>
    cases hm : g.move policy t with
    | take report after =>
      rw [feed_take hm] at hf
      cases report with
      | some kind => simp at hf
      | none =>
        obtain rfl : after ++ goals = next := by simpa using hf
        obtain ⟨text, rest, rfl, hall, hrest⟩ := h
        obtain ⟨first, others, rfl, hfirst, hothers⟩ := hall.append_inv
        exact ⟨_, rest, rfl, .cons (completes_of_take hm hfirst) hothers, hrest⟩
    | leave report =>
      rw [feed_leave hm] at hf
      cases report with
      | some kind => simp at hf
      | none =>
        -- only a missing `else` is passed over in silence
        obtain rfl := leave_none_inv hm
        obtain ⟨first, rest, he, hfirst, hrest⟩ := ih (by simpa [Prod.ext_iff] using hf)
        exact ⟨first, rest, he, .cons .noElse hfirst, hrest⟩

/-- A check without a report has read a text that its open goals asked for. -/
theorem fulfills_of_trace {index : Nat} (h : trace policy goals index text = []) :
    Fulfills policy goals text := by
  induction text generalizing goals index with
  | nil =>
    rw [trace, List.map_eq_nil_iff] at h
    exact fulfills_of_end h
  | cons t text ih =>
    rw [trace, List.append_eq_nil_iff, List.map_eq_nil_iff] at h
    exact fulfills_of_feed (Prod.ext h.1 rfl) (ih h.2)

end Goal

/-- The check of a text has nothing to report exactly if the text is a program. -/
theorem trace_eq_nil_iff (policy : TerminatorPolicy) (text : List Terminal) (index : Nat) :
    Goal.trace policy [] index text = [] ↔ IsProgram policy text := by
  constructor
  · intro h
    obtain ⟨first, rest, rfl, hfirst, hrest⟩ := Goal.fulfills_of_trace h
    rw [hfirst.nil_inv]
    exact hrest
  · intro h
    have hd := Derives.damaged h (.none policy text)
    have hc : Edit.Clear policy [] (text.map .keep) :=
      fun _ => Edit.noneBeforeBrace_map_keep [] text
    have ht := hd.trace_edited (fun _ => id) hc index
    rwa [Edit.edited_map_keep, Edit.reports_map_keep] at ht

/-- A check finds nothing wrong exactly with those tokens that form a program up to the end mark. -/
theorem clean_iff_isProgram (policy : TerminatorPolicy) (tokens : List Token) :
    ((checkTokens policy tokens).violations = [] ∧ (checkTokens policy tokens).errorCount = 0) ↔
      IsProgram policy (terminals tokens) := by
  rw [violations_checkTokens, errorCount_checkTokens, List.map_eq_nil_iff, List.length_eq_zero_iff,
    and_self]
  exact trace_eq_nil_iff policy (terminals tokens) 0

end SyntaxAudit
