import SyntaxAudit.Proofs.EndMark
import SyntaxAudit.Proofs.ScannedTokens

/-! Reports come in the order of the source: no report of a check is detected before an earlier one,
each has the position of a token, and what a scan hands out stands in reading order. -/
namespace SyntaxAudit

namespace Goal

/-- The indices of the reports never go down. -/
theorem pairwise_trace (policy : TerminatorPolicy) (goals : List Goal) (index : Nat)
    (text : List Terminal) :
    (trace policy goals index text).Pairwise fun r r' => r.index ≤ r'.index := by
  have hstep (index : Nat) (kinds : List ViolationKind) :
      (kinds.map (Report.mk · index)).Pairwise fun r r' => r.index ≤ r'.index := by
    rw [List.pairwise_map]
    exact List.pairwise_of_forall fun _ _ => Nat.le_refl index
  induction text generalizing goals index with
  | nil => exact hstep index _
  | cons t text ih =>
    rw [trace]
    refine List.pairwise_append.mpr ⟨hstep index _, ih _ (index + 1), ?_⟩
    intro r hr r' hr'
    obtain ⟨kind, -, rfl⟩ := List.mem_map.mp hr
    exact Nat.le_of_succ_le (le_index_of_mem_trace hr')

end Goal

section
variable {policy : TerminatorPolicy} {tokens : List Token}

/-- The token whose position a report has: the one at which it was detected, or the last one. -/
theorem token_of_report {r : Report} (hr : r ∈ Goal.trace policy [] 0 (terminals tokens)) :
    ∃ t, tokens[min r.index (tokens.length - 1)]? = some t ∧
      Checker.positionAt tokens.toArray r.index = t.position := by
  have hle := (warranted_of_mem_trace hr).1
  have hshort : (terminals tokens).length ≤ tokens.length := by
    rw [terminals_eq, List.length_map]
    exact (List.takeWhile_sublist _).length_le
  rcases Nat.lt_or_ge r.index tokens.length with hlt | hge
  · have hat : tokens[r.index]? = some tokens[r.index] := List.getElem?_eq_getElem hlt
    have hmin : min r.index (tokens.length - 1) = r.index := by omega
    rw [hmin]
    exact ⟨tokens[r.index], hat, Checker.positionAt_of_getElem? hat⟩
  · have hend : r.index = tokens.length := by omega
    have hmin : min r.index (tokens.length - 1) = tokens.length - 1 := by omega
    obtain ⟨last, hlast⟩ := exists_last_of_report hr
    refine ⟨last, ?_, ?_⟩
    · rw [hmin, ← List.getLast?_eq_getElem?, hlast]
    · rw [hend]
      exact Checker.positionAt_length hlast

theorem token_of_violation {v : Violation} (hv : v ∈ (checkTokens policy tokens).violations) :
    ∃ t ∈ tokens, v.position = t.position := by
  rw [violations_checkTokens] at hv
  obtain ⟨r, hr, rfl⟩ := List.mem_map.mp hv
  obtain ⟨t, ht, hposition⟩ := token_of_report hr
  exact ⟨t, List.mem_of_getElem? ht, hposition⟩

/-- In reading order, a token that is not behind another one stands before it or is the same. -/
theorem precedes_or_eq_of_le {i j : Nat} {a b : Token}
    (h : tokens.Pairwise fun a b => a.position.Precedes b.position) (hi : tokens[i]? = some a)
    (hj : tokens[j]? = some b) (hij : i ≤ j) :
    a.position.Precedes b.position ∨ a.position = b.position := by
  obtain ⟨hi', rfl⟩ := List.getElem?_eq_some_iff.mp hi
  obtain ⟨hj', rfl⟩ := List.getElem?_eq_some_iff.mp hj
  rcases Nat.lt_or_eq_of_le hij with hlt | rfl
  · exact .inl (List.pairwise_iff_getElem.mp h i j hi' hj' hlt)
  · exact .inr rfl

theorem positions_checkTokens (policy : TerminatorPolicy) (tokens : List Token) :
    (checkTokens policy tokens).violations.map Violation.position =
      (Goal.trace policy [] 0 (terminals tokens)).map
        fun r => Checker.positionAt tokens.toArray r.index := by
  rw [violations_checkTokens, List.map_map]
  rfl

/-- The reports of a check of tokens in reading order are in reading order. -/
theorem pairwise_positions (h : tokens.Pairwise fun a b => a.position.Precedes b.position)
    (policy : TerminatorPolicy) :
    ((checkTokens policy tokens).violations.map Violation.position).Pairwise
      fun p q => p.Precedes q ∨ p = q := by
  rw [positions_checkTokens, List.pairwise_map]
  refine (Goal.pairwise_trace policy [] 0 (terminals tokens)).imp_of_mem ?_
  intro r r' hr hr' hle
  obtain ⟨t, ht, hposition⟩ := token_of_report hr
  obtain ⟨t', ht', hposition'⟩ := token_of_report hr'
  rw [hposition, hposition']
  exact precedes_or_eq_of_le h ht ht' (by omega)

end

/-- The errors of a failed scan are in reading order. -/
theorem errors_of_scan {options : ScanOptions} {source : String} {errors : List LexError}
    (h : scan options source = .error errors) :
    (errors.map LexError.position).Pairwise Position.Precedes := by
  have herrors : errors = (items options source).filterMap Item.error? := errors_of_collect h
  rw [herrors, List.pairwise_map]
  refine List.Pairwise.filterMap _ ?_ (pairwise_itemsFrom options .start source.toList).2
  intro a b hab e he f hf
  cases a <;> cases he
  cases b <;> cases hf
  exact hab

/-- The violations of a check have the positions of tokens whose indices never go down and never
pass the place where the check ended. So the violations in a source text stand in reading order and
at its tokens; and if a text is not checked, its lexical errors stand in reading order, no two of
them at one place. -/
theorem reports_in_source_order :
    (∀ (policy : TerminatorPolicy) (tokens : List Token),
      ∃ indices : List Nat, indices.Pairwise (· ≤ ·) ∧
        (∀ i ∈ indices, i ≤ min (checkTokens policy tokens).consumed
          ((checkTokens policy tokens).tokenCount - 1)) ∧
        (checkTokens policy tokens).violations.map (some ·.position) =
          indices.map fun i => tokens[i]?.map Token.position) ∧
    (∀ (options : CheckOptions) (source : String) (outcome : Outcome),
      checkSource options source = .ok outcome →
      (outcome.violations.map Violation.position).Pairwise (fun p q => p.Precedes q ∨ p = q) ∧
      ∃ tokens, scan options.scan source = .ok tokens ∧
        ∀ v ∈ outcome.violations, ∃ t ∈ tokens, v.position = t.position) ∧
    ∀ (options : CheckOptions) (source : String) (errors : List LexError),
      checkSource options source = .error errors →
      (errors.map LexError.position).Pairwise Position.Precedes := by
  refine ⟨?_, ?_, ?_⟩
  · intro policy tokens
    refine ⟨(Goal.trace policy [] 0 (terminals tokens)).map fun r =>
      min r.index (tokens.length - 1), ?_, ?_, ?_⟩
    · rw [List.pairwise_map]
      refine (Goal.pairwise_trace policy [] 0 (terminals tokens)).imp ?_
      intro r r' hle
      omega
    · intro i hi
      obtain ⟨r, hr, rfl⟩ := List.mem_map.mp hi
      have hle := (warranted_of_mem_trace hr).1
      rw [consumed_checkTokens, tokenCount_checkTokens]
      omega
    · rw [violations_checkTokens, List.map_map, List.map_map]
      apply List.map_congr_left
      intro r hr
      obtain ⟨t, ht, hposition⟩ := token_of_report hr
      simp [ht, hposition]
  · intro options source outcome h
    cases hscan : scan options.scan source with
    | error errors =>
      rw [checkSource, hscan] at h
      cases h
    | ok tokens =>
      rw [checkSource_of_scan hscan] at h
      obtain rfl := Except.ok.inj h
      obtain ⟨-, -, -, horder⟩ := tokens_of_scan hscan
      refine ⟨pairwise_positions horder options.terminator, tokens, rfl, ?_⟩
      exact fun v hv => token_of_violation hv
  · intro options source errors h
    cases hscan : scan options.scan source with
    | error found =>
      rw [checkSource, hscan] at h
      obtain rfl := Except.error.inj h
      exact errors_of_scan hscan
    | ok tokens =>
      rw [checkSource_of_scan hscan] at h
      cases h

def strayElse : List Token :=
  [⟨.keyword, "else", ⟨1, 1⟩⟩, ⟨.identifier, "x", ⟨2, 1⟩⟩, ⟨.endOfInput, "", ⟨2, 2⟩⟩]

def strayCharacters : List Item :=
  [.token ⟨.identifier, "x", ⟨1, 1⟩⟩, .error ⟨.unexpectedCharacter '#', ⟨1, 3⟩⟩,
    .token ⟨.identifier, "y", ⟨1, 5⟩⟩, .error ⟨.unexpectedCharacter '@', ⟨1, 7⟩⟩,
    .token ⟨.endOfInput, "", ⟨1, 8⟩⟩]

theorem reports_in_order_stray :
    (∃ outcome, checkSource {} "else\nx" = .ok outcome ∧
      outcome.violations.map Violation.position = [⟨1, 1⟩, ⟨2, 2⟩] ∧
      (outcome.violations.map Violation.position).Pairwise fun p q => p.Precedes q ∨ p = q) ∧
    ∃ errors, checkSource {} "x # y @" = .error errors ∧
      errors.map LexError.position = [⟨1, 3⟩, ⟨1, 7⟩] ∧
      (errors.map LexError.position).Pairwise Position.Precedes := by
  obtain ⟨-, hchecked, hfailed⟩ := reports_in_source_order
  have hitems : items {} "else\nx" = strayElse.map .token := by decide +kernel
  have hscan : scan {} "else\nx" = .ok strayElse := by
    rw [scan, hitems]
    rfl
  have hcheck : checkSource {} "else\nx" = .ok (checkTokens .anyPunctuation strayElse) := by
    rw [checkSource, hscan]
    rfl
  have herrors : items {} "x # y @" = strayCharacters := by decide +kernel
  have hfail : checkSource {} "x # y @" = .error
      [⟨.unexpectedCharacter '#', ⟨1, 3⟩⟩, ⟨.unexpectedCharacter '@', ⟨1, 7⟩⟩] := by
    rw [checkSource, scan, herrors]
    rfl
  have hplaces : (checkTokens .anyPunctuation strayElse).violations.map Violation.position =
      [⟨1, 1⟩, ⟨2, 2⟩] := by
    rw [violations_checkTokens]
    decide
  exact ⟨⟨_, hcheck, hplaces, (hchecked {} _ _ hcheck).1⟩, _, hfail, rfl, hfailed {} _ _ hfail⟩

end SyntaxAudit
