import SyntaxAudit.Proofs.Detection

/-! An end mark and the end of the token sequence are the same place to a check. They differ only in
the position that is given to what is missed there. -/
namespace SyntaxAudit

section
variable {policy : TerminatorPolicy} {ts : List Token} {e : Token}

theorem terminals_of_unmarked (h : ∀ t ∈ ts, t.isEnd = false) :
    terminals ts = ts.map Token.terminal := by
  have hall := terminals_append_of_unmarked h []
  rw [List.append_nil] at hall
  exact hall.trans (List.append_nil _)

theorem terminals_endMark (h : ∀ t ∈ ts, t.isEnd = false) (he : e.isEnd = true)
    (rest : List Token) : terminals (ts ++ e :: rest) = terminals ts := by
  have hhead : ∀ t ∈ (e :: rest).head?, t.isEnd = true := by
    rintro _ ⟨⟩
    exact he
  rw [terminals_append h hhead, terminals_of_unmarked h]

/-- Up to an end mark, positions do not depend on what is behind it. -/
theorem positionAt_endMark (rest : List Token) {i : Nat} (h : i ≤ ts.length) :
    Checker.positionAt (ts ++ e :: rest).toArray i = (ts[i]?.getD e).position := by
  rcases Nat.lt_or_eq_of_le h with hlt | rfl
  · have hat : (ts ++ e :: rest)[i]? = some ts[i] := by
      rw [List.getElem?_append_left hlt, List.getElem?_eq_getElem hlt]
    rw [Checker.positionAt_of_getElem? hat, List.getElem?_eq_getElem hlt]
    rfl
  · have hat : (ts ++ e :: rest)[ts.length]? = some e := by simp
    rw [Checker.positionAt_of_getElem? hat, List.getElem?_eq_none (Nat.le_refl _)]
    rfl

theorem ne_nil_of_report {r : Report} (hr : r ∈ Goal.trace policy [] 0 (terminals ts)) :
    ts ≠ [] := by
  rintro rfl
  simp [terminals, Goal.trace] at hr

/-- A report at the end of the input is made only if there is a last token. -/
theorem exists_last_of_report {r : Report} (hr : r ∈ Goal.trace policy [] 0 (terminals ts)) :
    ∃ last, ts.getLast? = some last :=
  ⟨_, List.getLast?_eq_some_getLast (ne_nil_of_report hr)⟩

/-- What is reported before the end has its own token's position in both runs; what is reported at
the end has the position of the last token in one and that of the end mark in the other. -/
theorem positions_of_report (h : ∀ t ∈ ts, t.isEnd = false) (rest : List Token) {r : Report}
    (hr : r ∈ Goal.trace policy [] 0 (terminals ts)) :
    (∃ t, ts[r.index]? = some t ∧ Checker.positionAt ts.toArray r.index = t.position ∧
      Checker.positionAt (ts ++ e :: rest).toArray r.index = t.position) ∨
    r.index = ts.length ∧ ∃ last, ts.getLast? = some last ∧
      Checker.positionAt ts.toArray r.index = last.position ∧
      Checker.positionAt (ts ++ e :: rest).toArray r.index = e.position := by
  have hle := (warranted_of_mem_trace hr).1
  rw [terminals_of_unmarked h, List.length_map] at hle
  have hmarked := @positionAt_endMark ts e rest r.index hle
  rcases Nat.lt_or_eq_of_le hle with hlt | heq
  · have hat := List.getElem?_eq_getElem hlt
    rw [hat] at hmarked
    exact .inl ⟨ts[r.index], hat, Checker.positionAt_of_getElem? hat, hmarked⟩
  · obtain ⟨last, hlast⟩ := exists_last_of_report hr
    rw [List.getElem?_eq_none (Nat.le_of_eq heq.symm)] at hmarked
    refine .inr ⟨heq, last, hlast, ?_, hmarked⟩
    rw [heq]
    exact Checker.positionAt_length hlast

/-- Of what is behind an end mark, a check sees only the number of tokens. -/
theorem checkTokens_endMark (h : ∀ t ∈ ts, t.isEnd = false) (he : e.isEnd = true)
    (rest other : List Token) :
    checkTokens policy (ts ++ e :: other) =
      { checkTokens policy (ts ++ e :: rest) with tokenCount := ts.length + 1 + other.length } := by
  have hsame (other : List Token) := terminals_endMark h he other
  have hviolations : (checkTokens policy (ts ++ e :: other)).violations =
      (checkTokens policy (ts ++ e :: rest)).violations := by
    rw [violations_checkTokens, violations_checkTokens, hsame, hsame]
    apply List.map_congr_left
    intro r hr
    have hle := (warranted_of_mem_trace hr).1
    rw [terminals_of_unmarked h, List.length_map] at hle
    rw [positionAt_endMark other hle, positionAt_endMark rest hle]
  have herrors : (checkTokens policy (ts ++ e :: other)).errorCount =
      (checkTokens policy (ts ++ e :: rest)).errorCount := by
    rw [errorCount_checkTokens, errorCount_checkTokens, hsame, hsame]
  have hconsumed : (checkTokens policy (ts ++ e :: other)).consumed =
      (checkTokens policy (ts ++ e :: rest)).consumed := by
    rw [consumed_checkTokens, consumed_checkTokens, hsame, hsame]
  have hcount : (checkTokens policy (ts ++ e :: other)).tokenCount =
      ts.length + 1 + other.length := by
    rw [tokenCount_checkTokens, List.length_append, List.length_cons]
    omega
  simp only [← hviolations, ← herrors, ← hconsumed, ← hcount]

end

/-- A check of tokens without an end mark, and a check of the same tokens with an end mark and
anything behind it, take the same tokens and report the same violations, in the same order. Those
detected before the end have the same positions; those detected at the end have the position of the
last token in the one check and that of the end mark in the other. Of what is behind the end mark,
only the number of tokens is seen. -/
theorem endMark_is_end (policy : TerminatorPolicy) {ts : List Token} {e : Token}
    (h : ∀ t ∈ ts, t.isEnd = false) (he : e.isEnd = true) (rest : List Token) :
    (checkTokens policy (ts ++ e :: rest)).consumed = (checkTokens policy ts).consumed ∧
    (checkTokens policy (ts ++ e :: rest)).errorCount = (checkTokens policy ts).errorCount ∧
    (checkTokens policy (ts ++ e :: rest)).violations.map Violation.kind =
      (checkTokens policy ts).violations.map Violation.kind ∧
    (∀ (k : Nat) (r : Report),
      (Checker.ofTokens policy ts).program.reports.toList[k]? = some r →
      (Checker.ofTokens policy (ts ++ e :: rest)).program.reports.toList[k]? = some r ∧
      ∃ p q, (checkTokens policy ts).violations[k]? = some ⟨r.kind, p⟩ ∧
        (checkTokens policy (ts ++ e :: rest)).violations[k]? = some ⟨r.kind, q⟩ ∧
        ((∃ t, ts[r.index]? = some t ∧ p = t.position ∧ q = t.position) ∨
          r.index = ts.length ∧ ∃ last, ts.getLast? = some last ∧
            p = last.position ∧ q = e.position)) ∧
    ∀ other : List Token, checkTokens policy (ts ++ e :: other) =
      { checkTokens policy (ts ++ e :: rest) with tokenCount := ts.length + 1 + other.length } := by
  have hsame (other : List Token) := terminals_endMark h he other
  refine ⟨?_, ?_, ?_, ?_, ?_⟩
  · rw [consumed_checkTokens, consumed_checkTokens, hsame]
  · rw [errorCount_checkTokens, errorCount_checkTokens, hsame]
  · rw [violations_checkTokens, violations_checkTokens, hsame, List.map_map, List.map_map]
    rfl
  · intro k r hr
    rw [Checker.reports_program] at hr ⊢
    rw [hsame]
    have hmem := List.mem_of_getElem? hr
    refine ⟨hr, Checker.positionAt ts.toArray r.index,
      Checker.positionAt (ts ++ e :: rest).toArray r.index, ?_, ?_, positions_of_report h rest hmem⟩
    · rw [violations_checkTokens, List.getElem?_map, hr]
      rfl
    · rw [violations_checkTokens, hsame, List.getElem?_map, hr]
      rfl
  · exact checkTokens_endMark h he rest

def openCondition : List Token :=
  [⟨.keyword, "while", ⟨1, 1⟩⟩, ⟨.punctuation, "(", ⟨1, 7⟩⟩]

theorem endMark_is_end_openCondition :
    (checkTokens .semicolonOnly openCondition).violations[1]? =
      some ⟨.expectedCloseParen, ⟨1, 7⟩⟩ ∧
    (checkTokens .semicolonOnly
      (openCondition ++ ⟨.endOfInput, "", ⟨1, 8⟩⟩ :: openCondition)).violations[1]? =
      some ⟨.expectedCloseParen, ⟨1, 8⟩⟩ := by
  have hunmarked : ∀ t ∈ openCondition, t.isEnd = false := by decide
  have hmark : Token.isEnd ⟨.endOfInput, "", ⟨1, 8⟩⟩ = true := rfl
  have hreport : (Checker.ofTokens .semicolonOnly openCondition).program.reports.toList[1]? =
      some ⟨.expectedCloseParen, 2⟩ := by
    rw [Checker.reports_program]
    decide
  obtain ⟨-, -, -, hpositions, -⟩ :=
    endMark_is_end .semicolonOnly hunmarked hmark openCondition
  obtain ⟨-, p, q, hp, hq, ⟨t, ht, -, -⟩ | ⟨-, last, hlast, rfl, rfl⟩⟩ :=
    hpositions 1 ⟨.expectedCloseParen, 2⟩ hreport
  · cases ht
  · obtain rfl : ⟨.punctuation, "(", ⟨1, 7⟩⟩ = last := by simpa [openCondition] using hlast
    exact ⟨hp, hq⟩

end SyntaxAudit
