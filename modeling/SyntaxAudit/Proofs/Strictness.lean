import SyntaxAudit.Proofs.Detection

/-! The two policies side by side. A strict check and a loose one do the same until a statement is
ended by a sign other than the semicolon: the loose check takes it, the strict one reports it. -/
namespace SyntaxAudit

/-- The signs that end a statement under the loose policy only. -/
def Terminal.isLooseEnd : Terminal → Bool
  | .mark .semicolon => false
  | .sign _ => true
  | _ => false

/-- The policies differ about the loose ends and about nothing else. -/
theorem TerminatorPolicy.accepts_policies (t : Terminal) :
    anyPunctuation.accepts t = (semicolonOnly.accepts t || t.isLooseEnd) ∧
      (t.isLooseEnd = true → semicolonOnly.accepts t = false) := by
  match t with
  | .mark p => cases p <;> simp [accepts, Terminal.isLooseEnd]
  | .sign none => simp [accepts, Terminal.isLooseEnd]
  | .keyword _ | .name | .literal | .assign | .other => simp [accepts, Terminal.isLooseEnd]

namespace Goal
variable {t : Terminal} {g : Goal}

theorem moveTerminator_policies (t : Terminal) :
    moveTerminator .anyPunctuation t = moveTerminator .semicolonOnly t ∨
      t.isLooseEnd = true ∧ moveTerminator .anyPunctuation t = .take none [] ∧
        moveTerminator .semicolonOnly t = .leave (some .expectedSemicolon) := by
  obtain ⟨hloose, hstrict⟩ := TerminatorPolicy.accepts_policies t
  by_cases h : t.isLooseEnd = true
  · right
    refine ⟨h, ?_, ?_⟩
    · simp [moveTerminator, hloose, h]
    · simp [moveTerminator, hstrict h]
  · left
    simp [moveTerminator, hloose, h]

/-- Only a goal that waits for the end of a statement asks the policy. -/
theorem move_of_ne (policy policy' : TerminatorPolicy) (t : Terminal) (hend : g ≠ .terminator)
    (hvalue : g ≠ .initializer) : g.move policy t = g.move policy' t := by
  unfold move
  split <;> simp_all

/-- A step of a goal: the policies agree, or a sign ends a statement under the loose one only. -/
theorem move_policies (g : Goal) (t : Terminal) :
    g.move .anyPunctuation t = g.move .semicolonOnly t ∨
      t.isLooseEnd = true ∧ g.move .anyPunctuation t = .take none [] ∧
        g.move .semicolonOnly t = .leave (some .expectedSemicolon) := by
  cases g with
  | terminator => exact moveTerminator_policies t
  | initializer =>
    by_cases h : t = .assign
    · subst h
      exact .inl rfl
    · rw [move_initializer t h, move_initializer t h]
      exact moveTerminator_policies t
  | _ => exact .inl (move_of_ne _ _ t (by simp) (by simp))

/-- A step of a check: the policies agree, or the strict check reports a missing semicolon where the
loose one takes a sign in silence. Until then both report the same. -/
theorem feed_policies (t : Terminal) (goals : List Goal) :
    feed .anyPunctuation t goals = feed .semicolonOnly t goals ∨
      t.isLooseEnd = true ∧ ∃ more, (feed .semicolonOnly t goals).1 =
        (feed .anyPunctuation t goals).1 ++ .expectedSemicolon :: more := by
  induction goals with
  | nil => exact .inl rfl
  | cons g goals ih =>
    rcases move_policies g t with hsame | ⟨hend, hloose, hstrict⟩
    · cases hm : g.move .semicolonOnly t with
      | take report next =>
        left
        rw [feed_take hm, feed_take (hsame.trans hm)]
      | leave report =>
        rw [feed_leave hm, feed_leave (hsame.trans hm)]
        rcases ih with hbelow | ⟨hend, more, hmore⟩
        · left
          rw [hbelow]
        · right
          refine ⟨hend, more, ?_⟩
          rw [hmore, List.append_assoc]
    · right
      refine ⟨hend, (feed .semicolonOnly t goals).1, ?_⟩
      rw [feed_take hloose, feed_leave hstrict]
      rfl

/-- A run of a check: the policies agree to the end, or there is a sign up to which they report the
same, at which the strict check then reports a missing semicolon, and behind which the loose check
makes all its other reports. -/
theorem trace_policies (goals : List Goal) (index : Nat) (text : List Terminal) :
    trace .anyPunctuation goals index text = trace .semicolonOnly goals index text ∨
      ∃ before loose strict k t, text[k]? = some t ∧ t.isLooseEnd = true ∧
        trace .anyPunctuation goals index text = before ++ loose ∧
        trace .semicolonOnly goals index text =
          before ++ ⟨.expectedSemicolon, index + k⟩ :: strict ∧
        ∀ r ∈ loose, index + k < r.index := by
  induction text generalizing goals index with
  | nil => exact .inl rfl
  | cons t text ih =>
    rw [trace, trace]
    rcases feed_policies t goals with hsame | ⟨hend, more, hmore⟩
    · rw [hsame]
      rcases ih (feed .semicolonOnly t goals).2 (index + 1) with
        hrest | ⟨before, loose, strict, k, u, hu, hend, hloose, hstrict, hlater⟩
      · left
        rw [hrest]
      · right
        have hindex : index + 1 + k = index + (k + 1) := by omega
        rw [hindex] at hstrict hlater
        refine ⟨(feed .semicolonOnly t goals).1.map (Report.mk · index) ++ before, loose, strict,
          k + 1, u, hu, hend, ?_, ?_, hlater⟩
        · rw [hloose, List.append_assoc]
        · rw [hstrict, List.append_assoc]
    · right
      refine ⟨(feed .anyPunctuation t goals).1.map (Report.mk · index), _,
        more.map (Report.mk · index) ++
          trace .semicolonOnly (feed .semicolonOnly t goals).2 (index + 1) text,
        0, t, rfl, hend, rfl, ?_, ?_⟩
      · rw [hmore, List.map_append, List.append_assoc]
        rfl
      · intro r hr
        exact le_index_of_mem_trace hr

end Goal

theorem Token.kind_of_isLooseEnd {t : Token} (h : t.terminal.isLooseEnd = true) :
    t.kind = .punctuation ∧ t.punctuation? ≠ some .semicolon := by
  cases hu : t.terminal with
  | sign m =>
    obtain ⟨hkind, hmark⟩ := Token.terminal_eq_sign.mp hu
    refine ⟨hkind, ?_⟩
    intro hsemicolon
    rw [hu, ← hmark, hsemicolon] at h
    cases h
  | _ =>
    rw [hu] at h
    cases h

/-- Either the two policies have the same outcome, or their reports are the same up to a punctuation
token that is no semicolon: there the strict check reports a missing semicolon next, and the loose
one reports nothing more before it has passed the token. A text that is clean under the strict
policy has the same outcome under the loose one. -/
theorem policies_part_at_loose_end (tokens : List Token) :
    (checkTokens .anyPunctuation tokens = checkTokens .semicolonOnly tokens ∨
      ∃ (before loose strict : List Violation) (i : Nat) (t : Token),
        (checkTokens .anyPunctuation tokens).violations = before ++ loose ∧
        (checkTokens .semicolonOnly tokens).violations =
          before ++ ⟨.expectedSemicolon, t.position⟩ :: strict ∧
        (Checker.ofTokens .semicolonOnly tokens).program.reports.toList[before.length]? =
          some ⟨.expectedSemicolon, i⟩ ∧
        (∀ r ∈ (Checker.ofTokens .anyPunctuation tokens).program.reports.toList.drop before.length,
          i < r.index) ∧
        tokens[i]? = some t ∧ t.kind = .punctuation ∧ t.punctuation? ≠ some .semicolon) ∧
    ((checkTokens .semicolonOnly tokens).isClean = true →
      checkTokens .anyPunctuation tokens = checkTokens .semicolonOnly tokens) := by
  have hchecks (h : Goal.trace .anyPunctuation [] 0 (terminals tokens) =
      Goal.trace .semicolonOnly [] 0 (terminals tokens)) :
      checkTokens .anyPunctuation tokens = checkTokens .semicolonOnly tokens := by
    rw [checkTokens_eq_trace, checkTokens_eq_trace, h]
  rcases Goal.trace_policies [] 0 (terminals tokens) with
    hsame | ⟨before, loose, strict, k, u, hu, hend, hloose, hstrict, hlater⟩
  · exact ⟨.inl (hchecks hsame), fun _ => hchecks hsame⟩
  · rw [Nat.zero_add] at hstrict hlater
    rw [getElem?_terminals (List.getElem?_eq_some_iff.mp hu).1] at hu
    obtain ⟨t, ht, rfl⟩ := Option.map_eq_some_iff.mp hu
    obtain ⟨hkind, hmark⟩ := Token.kind_of_isLooseEnd hend
    let place (r : Report) : Violation := ⟨r.kind, Checker.positionAt tokens.toArray r.index⟩
    constructor
    · right
      refine ⟨before.map place, loose.map place, strict.map place, k, t, ?_, ?_, ?_, ?_, ht, hkind,
        hmark⟩
      · rw [violations_checkTokens, hloose, List.map_append]
      · rw [violations_checkTokens, hstrict, List.map_append, List.map_cons,
          Checker.positionAt_of_getElem? ht]
      · rw [Checker.reports_program, hstrict, List.length_map]
        simp
      · intro r hr
        rw [Checker.reports_program, hloose, List.length_map, List.drop_left] at hr
        exact hlater r hr
    · intro hclean
      rw [Outcome.isClean, errorCount_checkTokens, hstrict] at hclean
      simp at hclean

def endedBody : List Token :=
  [⟨.keyword, "if", ⟨1, 1⟩⟩, ⟨.punctuation, "(", ⟨1, 4⟩⟩, ⟨.identifier, "x", ⟨1, 5⟩⟩,
    ⟨.punctuation, ")", ⟨1, 6⟩⟩, ⟨.punctuation, "\x7b", ⟨1, 8⟩⟩, ⟨.identifier, "x", ⟨1, 10⟩⟩,
    ⟨.punctuation, ";", ⟨1, 11⟩⟩, ⟨.punctuation, "\x7d", ⟨1, 13⟩⟩]

theorem policies_part_endedBody :
    ((checkTokens .semicolonOnly endedBody).isClean = true ∧
      checkTokens .anyPunctuation endedBody = checkTokens .semicolonOnly endedBody) ∧
    -- without its semicolon the statement is ended by the brace under one policy only
    ∃ (before strict : List Violation) (t : Token),
      (checkTokens .semicolonOnly (endedBody.eraseIdx 6)).violations =
        before ++ ⟨.expectedSemicolon, t.position⟩ :: strict ∧
      t ∈ endedBody.eraseIdx 6 ∧ t.kind = .punctuation ∧ t.punctuation? ≠ some .semicolon := by
  have hclean : (checkTokens .semicolonOnly endedBody).isClean = true := by
    rw [checkTokens_eq_trace]
    decide
  have hdiffer : checkTokens .anyPunctuation (endedBody.eraseIdx 6) ≠
      checkTokens .semicolonOnly (endedBody.eraseIdx 6) := by
    rw [checkTokens_eq_trace, checkTokens_eq_trace]
    decide
  refine ⟨⟨hclean, (policies_part_at_loose_end endedBody).2 hclean⟩, ?_⟩
  obtain ⟨before, -, strict, i, t, -, hstrict, -, -, ht, hkind, hmark⟩ :=
    (policies_part_at_loose_end (endedBody.eraseIdx 6)).1.resolve_left hdiffer
  exact ⟨before, strict, t, hstrict, List.mem_of_getElem? ht, hkind, hmark⟩

end SyntaxAudit
