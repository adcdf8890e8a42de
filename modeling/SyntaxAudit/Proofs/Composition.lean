import SyntaxAudit.Proofs.EndMark
import SyntaxAudit.Proofs.Stability

/-! A program without faults in front of other tokens: the check comes to these tokens with nothing
open but perhaps a missing `else`, and reports about them what it would report of them alone. -/
namespace SyntaxAudit

def Report.shifted (n : Nat) (r : Report) : Report :=
  ⟨r.kind, n + r.index⟩

namespace Goal
variable {policy : TerminatorPolicy} {goals : List Goal} {text more : List Terminal}

/-- What a check reports does not depend on the index at which it begins. -/
theorem trace_shifted (policy : TerminatorPolicy) (goals : List Goal) (n index : Nat)
    (text : List Terminal) :
    trace policy goals (n + index) text =
      (trace policy goals index text).map (Report.shifted n) := by
  have hstep (index : Nat) (kinds : List ViolationKind) :
      kinds.map (Report.mk · (n + index)) =
        (kinds.map (Report.mk · index)).map (Report.shifted n) := by
    rw [List.map_map]
    rfl
  induction text generalizing goals index with
  | nil => exact hstep index _
  | cons t text ih => rw [trace, trace, List.map_append, ← hstep, ← ih, Nat.add_assoc]

/-- Goals that are satisfied at the end of the input are satisfied in front of anything but `else`:
they are given up without a report. -/
theorem trace_optional (hgoals : goals.flatMap atEnd = []) (index : Nat)
    (helse : ∀ t ∈ text.head?, t ≠ .word .kwElse) :
    trace policy goals index text = trace policy [] index text := by
  induction goals with
  | nil => rfl
  | cons g goals ih =>
    rw [List.flatMap_cons, List.append_eq_nil_iff] at hgoals
    obtain rfl := atEnd_nil_inv hgoals.1
    have hleave : ∀ t ∈ text.head?, elseClause.move policy t = .leave none := by
      intro t ht
      have hne := helse t ht
      unfold move
      split <;> simp_all
    rw [trace_leave index text rfl hleave]
    exact ih hgoals.2

/-- The reports about what stands behind a text without faults. -/
theorem trace_append_of_clean (hclean : trace policy [] 0 text = [])
    (helse : ∀ t ∈ more.head?, t ≠ .word .kwElse) :
    trace policy [] 0 (text ++ more) =
      (trace policy [] 0 more).map (Report.shifted text.length) := by
  -- the check of the text alone ends with the same goals open, and they miss nothing
  have hends := trace_append policy [] 0 text []
  rw [List.append_nil, hclean, eq_comm, List.append_eq_nil_iff, trace, List.map_eq_nil_iff] at hends
  rw [trace_append, hends.1, List.nil_append, trace_optional hends.2 _ helse, Nat.zero_add,
    ← trace_shifted, Nat.add_zero]

end Goal

/-- Behind other tokens, the place of an index is that of the index counted from there on. -/
theorem positionAt_append_right (a : List Token) {b : List Token} (hb : b ≠ []) (i : Nat) :
    Checker.positionAt (a ++ b).toArray (a.length + i) = Checker.positionAt b.toArray i := by
  have hat : (a ++ b)[a.length + i]? = b[i]? := by
    rw [List.getElem?_append_right (Nat.le_add_right _ _), Nat.add_sub_cancel_left]
  have hlast : (a ++ b).getLast? = b.getLast? := by
    rw [List.getLast?_append, List.getLast?_eq_some_getLast hb, Option.some_or]
  simp [Checker.positionAt, hat, hlast]

theorem head?_terminals {tokens : List Token}
    (h : ∀ t ∈ tokens.head?, t.keyword? ≠ some .kwElse) :
    ∀ t ∈ (terminals tokens).head?, t ≠ .word .kwElse := by
  cases tokens with
  | nil => simp [terminals]
  | cons u tokens =>
    cases hend : u.isEnd with
    | true => simp [terminals, hend]
    | false =>
      have hhead : (terminals (u :: tokens)).head? = some u.terminal := by simp [terminals, hend]
      rw [hhead]
      rintro _ ⟨⟩ helse
      exact h u rfl (Token.terminal_eq_keyword.mp helse).2

/-- A program without faults in front of tokens that do not begin with `else` changes nothing about
the violations found in these tokens, neither their kinds nor their places nor their order, and all
its own tokens are taken. -/
theorem clean_programs_compose (policy : TerminatorPolicy) {a b : List Token}
    (ha : ∀ t ∈ a, t.isEnd = false) (hclean : (checkTokens policy a).isClean = true)
    (hb : ∀ t ∈ b.head?, t.keyword? ≠ some .kwElse) :
    checkTokens policy (a ++ b) =
      { checkTokens policy b with
        consumed := a.length + (checkTokens policy b).consumed
        tokenCount := a.length + (checkTokens policy b).tokenCount } := by
  have hterminals : terminals (a ++ b) = terminals a ++ terminals b := by
    rw [terminals_append_of_unmarked ha, terminals_of_unmarked ha]
  have hlength : (terminals a).length = a.length := by
    rw [terminals_of_unmarked ha, List.length_map]
  have hnone : Goal.trace policy [] 0 (terminals a) = [] := by
    rw [Outcome.isClean, errorCount_checkTokens, beq_iff_eq] at hclean
    exact List.eq_nil_of_length_eq_zero hclean
  have htrace : Goal.trace policy [] 0 (terminals (a ++ b)) =
      (Goal.trace policy [] 0 (terminals b)).map (Report.shifted a.length) := by
    rw [hterminals, Goal.trace_append_of_clean hnone (head?_terminals hb), hlength]
  have hplaces : ∀ r ∈ Goal.trace policy [] 0 (terminals b),
      Checker.positionAt (a ++ b).toArray (a.length + r.index) =
        Checker.positionAt b.toArray r.index := by
    intro r hr
    obtain ⟨last, hlast⟩ := exists_last_of_report hr
    have hne : b ≠ [] := by
      rintro rfl
      cases hlast
    exact positionAt_append_right a hne r.index
  rw [checkTokens_eq_trace policy (a ++ b), checkTokens_eq_trace policy b, htrace, hterminals,
    List.length_append, List.length_append, List.length_map, hlength, List.map_map]
  congr 1
  apply List.map_congr_left
  intro r hr
  rw [← hplaces r hr]
  rfl

def emptyChoice : List Token :=
  [⟨.keyword, "if", ⟨1, 1⟩⟩, ⟨.punctuation, "(", ⟨1, 4⟩⟩, ⟨.identifier, "x", ⟨1, 5⟩⟩,
    ⟨.punctuation, ")", ⟨1, 6⟩⟩, ⟨.punctuation, "\x7b", ⟨1, 8⟩⟩, ⟨.punctuation, "\x7d", ⟨1, 10⟩⟩]

def unendedNames : List Token :=
  [⟨.identifier, "x", ⟨2, 1⟩⟩, ⟨.identifier, "y", ⟨2, 3⟩⟩]

def otherwise : List Token :=
  [⟨.keyword, "else", ⟨2, 1⟩⟩, ⟨.punctuation, "\x7b", ⟨2, 6⟩⟩, ⟨.punctuation, "\x7d", ⟨2, 8⟩⟩]

theorem clean_programs_compose_emptyChoice :
    (checkTokens .semicolonOnly emptyChoice).isClean = true ∧
    checkTokens .semicolonOnly (emptyChoice ++ unendedNames) =
      ⟨[⟨.expectedSemicolon, ⟨2, 3⟩⟩, ⟨.expectedSemicolon, ⟨2, 3⟩⟩], 2, 8, 8⟩ := by
  have hclean : (checkTokens .semicolonOnly emptyChoice).isClean = true := by
    rw [checkTokens_eq_trace]
    decide
  refine ⟨hclean, ?_⟩
  rw [clean_programs_compose .semicolonOnly (by decide) hclean (by decide), checkTokens_eq_trace]
  decide

/-- An `else` goes with the program before it: alone it is a violation. -/
example : (checkTokens .semicolonOnly (emptyChoice ++ otherwise)).isClean = true ∧
    (checkTokens .semicolonOnly otherwise).isClean = false := by
  rw [checkTokens_eq_trace, checkTokens_eq_trace]
  decide

end SyntaxAudit
