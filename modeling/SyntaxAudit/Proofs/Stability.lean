import SyntaxAudit.Proofs.Detection

/-! What a check reports about the beginning of a text does not depend on how the text goes on. -/
namespace SyntaxAudit

def Checker.violationsBefore (c : Checker) (n : Nat) : List Violation :=
  (c.detections.toList.filter (·.index < n)).map Detection.toViolation

namespace Goal
variable {policy : TerminatorPolicy} {goals : List Goal} {index : Nat} {text : List Terminal}

def openAfter (policy : TerminatorPolicy) (goals : List Goal) : List Terminal → List Goal
  | [] => goals
  | t :: ts => openAfter policy (feed policy t goals).2 ts

/-- The reports made while a text is taken, without those about what is open behind it. -/
def taking (policy : TerminatorPolicy) (goals : List Goal) (index : Nat) :
    List Terminal → List Report
  | [] => []
  | t :: ts =>
    (feed policy t goals).1.map (Report.mk · index) ++
      taking policy (feed policy t goals).2 (index + 1) ts

/-- A check of a text that goes on takes the first part, and then checks the rest with what is
open there. -/
theorem trace_append (policy : TerminatorPolicy) (goals : List Goal) (index : Nat)
    (text more : List Terminal) :
    trace policy goals index (text ++ more) =
      taking policy goals index text ++
        trace policy (openAfter policy goals text) (index + text.length) more := by
  induction text generalizing goals index with
  | nil => rfl
  | cons t text ih =>
    have hlength : index + 1 + text.length = index + (t :: text).length := by
      rw [List.length_cons]
      omega
    rw [List.cons_append, trace, ih, hlength, taking, openAfter, List.append_assoc]

theorem index_lt_of_mem_taking {r : Report} (h : r ∈ taking policy goals index text) :
    r.index < index + text.length := by
  induction text generalizing goals index with
  | nil => cases h
  | cons t text ih =>
    rw [List.length_cons]
    rcases List.mem_append.mp h with h | h
    · obtain ⟨kind, -, rfl⟩ := List.mem_map.mp h
      exact Nat.lt_add_of_pos_right (Nat.succ_pos _)
    · have hlt := ih h
      omega

end Goal

section
variable {policy : TerminatorPolicy} {ts : List Token}

/-- Behind an end mark nothing is seen any more. -/
theorem terminals_append_of_marked (h : ∃ t ∈ ts, t.isEnd = true) (more : List Token) :
    terminals (ts ++ more) = terminals ts ∧ (terminals ts).length < ts.length := by
  induction ts with
  | nil => simp at h
  | cons u ts ih =>
    cases hu : u.isEnd with
    | true => simp [terminals, hu]
    | false =>
      have hrest : ∃ t ∈ ts, t.isEnd = true := by
        obtain ⟨t, ht, hend⟩ := h
        rcases List.mem_cons.mp ht with rfl | ht
        · rw [hu] at hend
          cases hend
        · exact ⟨t, ht, hend⟩
      obtain ⟨heq, hlt⟩ := ih hrest
      have hcons (tokens : List Token) :
          terminals (u :: tokens) = u.terminal :: terminals tokens := by
        simp [terminals, hu]
      rw [List.cons_append, hcons, hcons, heq, List.length_cons, List.length_cons]
      exact ⟨rfl, Nat.succ_lt_succ hlt⟩

/-- The reports about the beginning of a text come first, and they are the same however it goes
on. -/
theorem reports_split (policy : TerminatorPolicy) (ts : List Token) :
    ∃ early : List Report, (∀ r ∈ early, r.index < ts.length) ∧
      ∀ more, ∃ late, Goal.trace policy [] 0 (terminals (ts ++ more)) = early ++ late ∧
        ∀ r ∈ late, ts.length ≤ r.index := by
  by_cases h : ∃ t ∈ ts, t.isEnd = true
  · -- every report is made up to the end mark, which lies in the beginning
    refine ⟨Goal.trace policy [] 0 (terminals ts), ?_, ?_⟩
    · intro r hr
      have hle := (warranted_of_mem_trace hr).1
      have hlt := (terminals_append_of_marked h []).2
      omega
    · intro more
      refine ⟨[], ?_, by simp⟩
      rw [(terminals_append_of_marked h more).1, List.append_nil]
  · have hunmarked : ∀ t ∈ ts, t.isEnd = false := by simpa using h
    refine ⟨Goal.taking policy [] 0 (ts.map Token.terminal), ?_, ?_⟩
    · intro r hr
      have hlt := Goal.index_lt_of_mem_taking hr
      rwa [Nat.zero_add, List.length_map] at hlt
    · intro more
      have hall := Goal.trace_append policy [] 0 (ts.map Token.terminal) (terminals more)
      rw [← terminals_append_of_unmarked hunmarked] at hall
      refine ⟨_, hall, ?_⟩
      intro r hr
      have hle := Goal.le_index_of_mem_trace hr
      rwa [Nat.zero_add, List.length_map] at hle

theorem positionAt_append {i : Nat} (h : i < ts.length) (more : List Token) :
    Checker.positionAt (ts ++ more).toArray i = Checker.positionAt ts.toArray i := by
  have hat : ts[i]? = some ts[i] := List.getElem?_eq_getElem h
  have hlong : (ts ++ more)[i]? = some ts[i] := by
    rw [List.getElem?_append_left h, hat]
  rw [Checker.positionAt_of_getElem? hlong, Checker.positionAt_of_getElem? hat]

theorem violationsBefore_program (policy : TerminatorPolicy) (tokens : List Token) (n : Nat) :
    (Checker.ofTokens policy tokens).program.violationsBefore n =
      ((Goal.trace policy [] 0 (terminals tokens)).filter (·.index < n)).map
        fun r => ⟨r.kind, Checker.positionAt tokens.toArray r.index⟩ := by
  rw [← Checker.reports_program, Checker.program_ofTokens, Checker.reports_reached]
  simp [Checker.violationsBefore, Checker.reached, Checker.refresh, List.filter_map,
    Function.comp_def]

end

/-- What a check reports about the tokens of a beginning is the same, in kind, place and order, for
any two ways to go on, and it comes before everything else that is reported. -/
theorem early_reports_stable (policy : TerminatorPolicy) (ts a b : List Token) :
    (Checker.ofTokens policy (ts ++ a)).program.violationsBefore ts.length =
        (Checker.ofTokens policy (ts ++ b)).program.violationsBefore ts.length ∧
      (Checker.ofTokens policy (ts ++ a)).program.violationsBefore ts.length <+:
        (checkTokens policy (ts ++ a)).violations := by
  obtain ⟨early, hearly, hsplit⟩ := reports_split policy ts
  let place (r : Report) : Violation := ⟨r.kind, Checker.positionAt ts.toArray r.index⟩
  have hplace (more : List Token) : early.map place =
      early.map fun r => ⟨r.kind, Checker.positionAt (ts ++ more).toArray r.index⟩ := by
    apply List.map_congr_left
    intro r hr
    rw [positionAt_append (hearly r hr)]
  have hbefore (more : List Token) :
      (Checker.ofTokens policy (ts ++ more)).program.violationsBefore ts.length =
        early.map place := by
    obtain ⟨late, htrace, hlate⟩ := hsplit more
    have hkept : early.filter (·.index < ts.length) = early := by
      simpa using hearly
    have hgone : late.filter (·.index < ts.length) = [] := by
      simpa using hlate
    rw [violationsBefore_program, htrace, List.filter_append, hkept, hgone, List.append_nil, hplace]
  refine ⟨?_, ?_⟩
  · rw [hbefore a, hbefore b]
  · obtain ⟨late, htrace, -⟩ := hsplit a
    rw [hbefore a, violations_checkTokens, htrace, List.map_append, hplace a]
    exact List.prefix_append _ _

end SyntaxAudit
