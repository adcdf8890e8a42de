import SyntaxAudit.Proofs.Damage

/-! How a check passes through an edited text: from the goals open before it to those open behind
it, with a report for each edit and none for anything else. -/
namespace SyntaxAudit

def Terminal.mayFollow : Terminal → Bool
  | .name => true
  | .literal => true
  | .keyword k => k != some .kwElse
  | .mark .rightBrace => true
  | _ => false

def Follows (text : List Terminal) : Prop :=
  ∀ t ∈ text.head?, t.mayFollow = true

/-- What may come behind a statement does not end it, but for a closing brace under the policy that
accepts any punctuation. -/
theorem TerminatorPolicy.accepts_of_mayFollow (policy : TerminatorPolicy) {t : Terminal}
    (h : t.mayFollow = true) (hb : policy = .anyPunctuation → t ≠ .mark .rightBrace) :
    policy.accepts t = false := by
  unfold accepts
  split <;> simp_all [Terminal.mayFollow]

namespace Goal
open Edit
variable {policy : TerminatorPolicy} {goals goals' goals'' : List Goal} {rest : List Terminal}
  {es fs : List (Edit Terminal)} {g : Goal} {t : Terminal}

/-- The goals between two statements: nothing is open, or the rest of a block. -/
def atBoundary : List Goal → Bool
  | [] => true
  | blockRest :: _ => true
  | _ => false

theorem feed_boundary (hb : atBoundary goals = true) (ht : t ≠ .mark .rightBrace) :
    feed policy t goals = ((opening t).1.toList, (opening t).2 ++ goals) := by
  match goals, hb with
  | [], _ => simp [feed, settle]
  | blockRest :: gs, _ =>
    have hm : blockRest.move policy t = .take (opening t).1 ((opening t).2 ++ [blockRest]) := by
      unfold move
      split <;> simp_all
    rw [feed_take hm]
    simp

theorem opening_operand (h : t.isOperand = true) : opening t = (none, [.terminator]) := by
  cases t <;> simp_all [Terminal.isOperand, opening]

theorem opening_opener {k : Keyword} (h : k.declaresVariable = true) :
    opening (.word k) = (none, [.variableName]) := by
  cases k <;> simp_all [Keyword.declaresVariable, opening]

theorem opening_stray (h : t.isStray = true) : opening t = (some .unexpectedKeyword, []) := by
  match t, h with
  | .keyword none, _ => rfl
  | .word k, h => cases k <;> simp_all [Terminal.isStray, Keyword.usage, opening]

theorem move_initialValue (h : t.isOperand = true) :
    initialValue.move policy t = .take none [.terminator] := by
  simp [move, takeOperand, h]

theorem move_initializer (t : Terminal) (h : t ≠ .assign) :
    initializer.move policy t = moveTerminator policy t := by
  unfold move
  split <;> simp_all

theorem move_parameterComma (h : t ≠ .mark .comma) :
    parameterComma.move policy t = parameter.move policy t := by
  have hp : parameter.move policy t = moveParameter t := rfl
  rw [hp]
  unfold move
  split <;> simp_all

/-- A check that begins the edited text with `goals` open reports the edits, and has `goals'` open
before `rest`. -/
def Passes (policy : TerminatorPolicy) (goals : List Goal) (es : List (Edit Terminal))
    (goals' : List Goal) (rest : List Terminal) : Prop :=
  ∀ index, trace policy goals index (edited es ++ rest) =
    reports index es ++ trace policy goals' (index + (edited es).length) rest

namespace Passes

theorem refl : Passes policy goals [] goals rest := by
  intro index
  rfl

theorem trans (h : Passes policy goals es goals' (edited fs ++ rest))
    (h' : Passes policy goals' fs goals'' rest) : Passes policy goals (es ++ fs) goals'' rest := by
  intro index
  rw [edited_append, List.append_assoc, h, h', reports_append]
  simp [Nat.add_assoc]

/-- A symbol that is taken without a report leads on to what the check has open behind it. -/
theorem taken {next : List Goal} (hf : feed policy t goals = ([], next))
    (h : Passes policy next es goals' rest) : Passes policy goals (.keep t :: es) goals' rest := by
  intro index
  have hlength : index + 1 + (edited es).length = index + (edited (.keep t :: es)).length := by
    rw [edited, List.length_cons]
    omega
  calc trace policy goals index (edited (.keep t :: es) ++ rest)
    _ = trace policy next (index + 1) (edited es ++ rest) := by simp [edited, trace, hf]
    _ = reports (index + 1) es ++ trace policy goals' (index + 1 + (edited es).length) rest :=
      h (index + 1)
    _ = reports index (.keep t :: es) ++
        trace policy goals' (index + (edited (.keep t :: es)).length) rest := by
      rw [hlength, reports]

theorem keep {next : List Goal} (hm : g.move policy t = .take none next)
    (h : Passes policy (next ++ goals) es goals' rest) :
    Passes policy (g :: goals) (.keep t :: es) goals' rest :=
  taken (feed_take hm) h

/-- A goal that waits for a symbol that was taken out reports it and is given up. -/
theorem drop (hend : g.atEnd = [.expectedSemicolon])
    (hm : ∀ t ∈ rest.head?, g.move policy t = .leave (some .expectedSemicolon)) :
    Passes policy (g :: goals) [.drop t] goals rest := by
  intro index
  exact trace_leave index rest hend hm

/-- Between two statements a terminal opens the next one. -/
theorem begin {next : List Goal} (hb : atBoundary goals = true) (ho : opening t = (none, next))
    (h : Passes policy (next ++ goals) es goals' rest) :
    Passes policy goals (.keep t :: es) goals' rest := by
  have ht : t ≠ .mark .rightBrace := by
    rintro rfl
    simp [opening] at ho
  apply taken _ h
  rw [feed_boundary hb ht, ho]
  rfl

/-- Between two statements a stray keyword is reported, and nothing opens. -/
theorem stray (hb : atBoundary goals = true) (ht : t.isStray = true)
    (h : Passes policy goals es goals' rest) :
    Passes policy goals (.insert t :: es) goals' rest := by
  intro index
  have hne : t ≠ .mark .rightBrace := by
    rintro rfl
    simp [Terminal.isStray] at ht
  have hf : feed policy t goals = ([.unexpectedKeyword], goals) := by
    rw [feed_boundary hb hne, opening_stray ht]
    rfl
  have hlength : index + 1 + (edited es).length = index + (edited (.insert t :: es)).length := by
    rw [edited, List.length_cons]
    omega
  calc trace policy goals index (edited (.insert t :: es) ++ rest)
    _ = ⟨.unexpectedKeyword, index⟩ :: trace policy goals (index + 1) (edited es ++ rest) := by
      simp [edited, trace, hf]
    _ = ⟨.unexpectedKeyword, index⟩ :: (reports (index + 1) es ++
        trace policy goals' (index + 1 + (edited es).length) rest) := by rw [h (index + 1)]
    _ = reports index (.insert t :: es) ++
        trace policy goals' (index + (edited (.insert t :: es)).length) rest := by
      rw [hlength, reports, List.cons_append]

/-- A missing `else` is noticed at what follows the statement. -/
theorem withoutElse (hr : Follows rest) (h : Passes policy goals es (.elseClause :: goals') rest) :
    Passes policy goals es goals' rest := by
  intro index
  have hleave : ∀ t ∈ rest.head?, elseClause.move policy t = .leave none := by
    intro t ht
    have hf := hr t ht
    unfold move
    split <;> simp_all [Terminal.mayFollow]
  rw [h index]
  exact congrArg _ (trace_leave _ rest rfl hleave)

/-- A condition in parentheses leads to what its construct asks for behind it. -/
theorem condition {head : Conditional} {value : Terminal} (hv : value.isOperand = true)
    (h : Passes policy (head.body ++ goals) es goals' rest) :
    Passes policy (.conditionOpen head :: goals)
      (.keep (.mark .leftParen) :: .keep value :: .keep (.mark .rightParen) :: es) goals' rest := by
  have hm : (Goal.condition head).move policy value = .take none [.conditionClose head] := by
    simp [move, takeOperand, hv]
  exact keep rfl (keep hm (keep rfl h))

/-- The end of a statement is taken where it stands. Where it was taken out, it is missed at what
follows, which cannot be taken for it. -/
theorem ending {grammar : TerminatorPolicy} {last : Edit Terminal}
    (hend : g.atEnd = [.expectedSemicolon])
    (hmove : ∀ t, t ≠ .assign → g.move policy t = moveTerminator policy t)
    (hsub : ∀ t, grammar.accepts t = true → policy.accepts t = true)
    (hl : last.isTerminator grammar = true) (hr : Follows rest)
    (hs : Clear policy rest [last]) :
    Passes policy (g :: goals) [last] goals rest := by
  cases last with
  | keep t =>
    have ha : policy.accepts t = true := hsub t hl
    have hne : t ≠ .assign := by
      rintro rfl
      cases policy <;> simp [TerminatorPolicy.accepts] at ha
    have hm : g.move policy t = .take none [] := by simp [hmove t hne, moveTerminator, ha]
    exact keep hm refl
  | drop t =>
    apply drop hend
    intro u hu
    have hf := hr u hu
    have hne : u ≠ .assign := by
      rintro rfl
      simp [Terminal.mayFollow] at hf
    have hbrace : policy = .anyPunctuation → u ≠ .mark .rightBrace := by
      rintro hp rfl
      have hclear := hs hp
      simp_all [noneBeforeBrace, edited]
    simp [hmove u hne, moveTerminator, policy.accepts_of_mayFollow hf hbrace]
  | insert t => simp [isTerminator] at hl

end Passes

end Goal

end SyntaxAudit
