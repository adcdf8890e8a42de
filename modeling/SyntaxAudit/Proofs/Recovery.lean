import SyntaxAudit.Proofs.Passage

/-! A check of a damaged program: it reports each edit in order and nothing else, and stands after
every statement where it would stand in the program without damage. -/
namespace SyntaxAudit

namespace Damaged
open Edit
variable {policy : TerminatorPolicy} {es : List (Edit Terminal)}

private theorem mayFollow_operand {t : Terminal} (h : t.isOperand = true) :
    t.mayFollow = true := by
  cases t <;> simp_all [Terminal.isOperand, Terminal.mayFollow]

private theorem mayFollow_stray {t : Terminal} (h : t.isStray = true) : t.mayFollow = true := by
  match t, h with
  | .keyword none, _ => rfl
  | .word k, h => cases k <;> simp_all [Terminal.isStray, Keyword.usage, Terminal.mayFollow]

private theorem mayFollow_opener {k : Keyword} (h : k.declaresVariable = true) :
    (Terminal.word k).mayFollow = true := by
  cases k <;> simp_all [Keyword.declaresVariable, Terminal.mayFollow]

theorem follows_conditional (h : Damaged policy .conditional es) (rest : List Terminal) :
    Follows (edited es ++ rest) := by
  cases h <;> simp [Follows, edited, Terminal.mayFollow]

theorem follows_statement (h : Damaged policy .statement es) (rest : List Terminal) :
    Follows (edited es ++ rest) := by
  cases h with
  | expression hv _ => simpa [Follows, edited] using mayFollow_operand hv
  | declaration ho _ => simpa [Follows, edited] using mayFollow_opener ho
  | initialization ho _ _ => simpa [Follows, edited] using mayFollow_opener ho
  | function _ _ => simp [Follows, edited, Terminal.mayFollow]
  | loop _ _ => simp [Follows, edited, Terminal.mayFollow]
  | choice hc => exact hc.follows_conditional rest

/-- Statements may come behind a statement if what follows them may. -/
theorem follows_statements (h : Damaged policy .statements es) {rest : List Terminal}
    (hr : Follows rest) : Follows (edited es ++ rest) := by
  cases h with
  | noStatements => exact hr
  | moreStatements hf _ =>
    rw [edited_append, List.append_assoc]
    exact hf.follows_statement _
  | strayKeyword ht _ => simpa [Follows, edited] using mayFollow_stray ht

end Damaged

namespace Goal
open Edit

/-- What a check does with each construct, damaged or not, in terms of the goals before and behind
it. Statements are taken between statements, and what follows them must not continue them. -/
def Recovers (policy : TerminatorPolicy) : Phrase → List (Edit Terminal) → Prop
  | .statements, es | .statement, es => ∀ goals rest, atBoundary goals = true → Follows rest →
      Clear policy rest es → Passes policy goals es goals rest
  | .conditional, es => ∃ tail, es = .keep (.word .kwIf) :: tail ∧
      ∀ goals rest, Follows rest → Clear policy rest tail →
      Passes policy (.conditionOpen .ifHead :: goals) tail goals rest
  | .block, es => ∃ tail, es = .keep (.mark .leftBrace) :: tail ∧
      ∀ goals rest, Clear policy rest tail → Passes policy (.blockRest :: goals) tail goals rest
  | .parameters, es => ∀ goals rest, rest.head? = some (.mark .rightParen) →
      (edited es ++ rest).head? ≠ some (.mark .comma) ∧
      Passes policy (.parameter :: goals) es (.parameter :: goals) rest

end Goal

namespace Damaged
open Edit Goal Passes

/-- A check recovers from all damage to a construct, under any policy that accepts what the grammar
has as ends of statements. -/
theorem recovers {grammar policy : TerminatorPolicy} {phrase : Phrase} {es : List (Edit Terminal)}
    (hsub : ∀ t, grammar.accepts t = true → policy.accepts t = true)
    (h : Damaged grammar phrase es) : Recovers policy phrase es := by
  induction h with
  | noStatements =>
    intro goals rest _ _ _
    exact refl
  | moreStatements _ hr ihf ihr =>
    intro goals rest hb hrest hc
    exact (ihf goals _ hb (hr.follows_statements hrest) hc.left).trans
      (ihr goals rest hb hrest hc.right)
  | strayKeyword ht _ ih =>
    intro goals rest hb hrest hc
    exact stray hb ht (ih goals rest hb hrest hc)
  | expression hv hl =>
    intro goals rest hb hrest hc
    exact begin hb (opening_operand hv) (ending rfl (fun _ _ => rfl) hsub hl hrest hc)
  | declaration ho hl =>
    intro goals rest hb hrest hc
    exact begin hb (opening_opener ho) (keep rfl (ending rfl move_initializer hsub hl hrest hc))
  | initialization ho hv hl =>
    intro goals rest hb hrest hc
    exact begin hb (opening_opener ho) (keep rfl (keep rfl (keep (move_initialValue hv)
      (ending rfl (fun _ _ => rfl) hsub hl hrest hc))))
  | function _ _ ihn ihb =>
    intro goals rest hb _ hc
    obtain ⟨tail, rfl, ihb⟩ := ihb
    refine begin hb rfl (keep rfl (keep rfl ?_))
    refine trans (ihn goals _ rfl).2 (keep rfl (keep rfl ?_))
    exact ihb goals rest hc.right
  | loop hv _ ihb =>
    intro goals rest hb _ hc
    obtain ⟨tail, rfl, ihb⟩ := ihb
    exact begin hb rfl (condition hv (keep rfl (ihb goals rest hc)))
  | choice _ ih =>
    intro goals rest hb hrest hc
    obtain ⟨tail, rfl, ih⟩ := ih
    exact begin hb rfl (ih goals rest hrest hc)
  | ifOnly hv _ ihb =>
    obtain ⟨tail, rfl, ihb⟩ := ihb
    refine ⟨_, rfl, ?_⟩
    intro goals rest hrest hc
    exact condition hv (keep rfl (withoutElse hrest (ihb (.elseClause :: goals) rest hc)))
  | ifElse hv _ _ ihb iho =>
    obtain ⟨tail, rfl, ihb⟩ := ihb
    obtain ⟨other, rfl, iho⟩ := iho
    refine ⟨_, rfl, ?_⟩
    intro goals rest _ hc
    refine condition hv (keep rfl (trans (ihb (.elseClause :: goals) _ hc.left) ?_))
    exact keep rfl (keep rfl (iho goals rest hc.right))
  | ifElseIf hv _ _ ihb iho =>
    obtain ⟨tail, rfl, ihb⟩ := ihb
    obtain ⟨other, rfl, iho⟩ := iho
    refine ⟨_, rfl, ?_⟩
    intro goals rest hrest hc
    refine condition hv (keep rfl (trans (ihb (.elseClause :: goals) _ hc.left) ?_))
    exact keep rfl (keep rfl (iho goals rest hrest hc.right))
  | braces _ ih =>
    refine ⟨_, rfl, ?_⟩
    intro goals rest hc
    refine trans (ih (.blockRest :: goals) _ rfl ?_ hc.left) (keep rfl refl)
    simp [Follows, edited, Terminal.mayFollow]
  | noParameters =>
    intro goals rest hrest
    refine ⟨?_, refl⟩
    simp [edited, hrest]
  | @parameter names _ ih =>
    intro goals rest hrest
    obtain ⟨hne, ih⟩ := ih goals rest hrest
    refine ⟨by simp [edited], ?_⟩
    -- the goal for an optional comma meets no comma, so it acts as the goal for a parameter
    have hcomma : Passes policy (.parameterComma :: goals) names (.parameter :: goals) rest := by
      intro index
      rw [← ih index]
      refine trace_congr index _ rfl ?_
      intro t ht
      exact move_parameterComma fun he => hne (he ▸ ht)
    exact keep rfl hcomma
  | parameterComma _ ih =>
    intro goals rest hrest
    exact ⟨by simp [edited], keep rfl (keep rfl (ih goals rest hrest).2)⟩

/-- The reports of a check of a damaged program are its edits. -/
theorem trace_edited {grammar policy : TerminatorPolicy} {es : List (Edit Terminal)}
    (hsub : ∀ t, grammar.accepts t = true → policy.accepts t = true)
    (h : Damaged grammar .statements es) (hc : Clear policy [] es) (index : Nat) :
    trace policy [] index (edited es) = reports index es := by
  have hp := h.recovers hsub [] [] rfl (by simp [Follows]) hc index
  simpa [trace] using hp

end Damaged

theorem TerminatorPolicy.accepts_semicolon (policy : TerminatorPolicy) (t : Terminal)
    (h : semicolonOnly.accepts t = true) : policy.accepts t = true := by
  cases policy with
  | semicolonOnly => exact h
  | anyPunctuation =>
    unfold accepts at h ⊢
    split at h <;> simp_all

/-- Take any of the semicolons out of a program and put stray keywords before, between and behind
its statements. Then a check reports each edit once, in order and in its place, and takes all tokens
up to the end mark. Where any punctuation ends a statement, no semicolon may be taken out right
before a closing brace, which would end the statement instead. -/
theorem damage_reported_exactly (policy : TerminatorPolicy) (es : List (Edit Token))
    (tail : List Token)
    (hd : Damaged .semicolonOnly .statements (es.map (Edit.map Token.terminal)))
    (hc : policy = .anyPunctuation →
      Edit.noneBeforeBrace [] (es.map (Edit.map Token.terminal)) = true)
    (ht : ∀ t ∈ tail.head?, t.isEnd = true) :
    IsProgram .semicolonOnly ((Edit.original es).map Token.terminal) ∧
      (Checker.ofTokens policy (Edit.edited es ++ tail)).program.reports.toList =
        Edit.reports 0 es ∧
      (checkTokens policy (Edit.edited es ++ tail)).violations =
        (Edit.reports 0 es).map (fun r =>
          ⟨r.kind, Checker.positionAt (Edit.edited es ++ tail).toArray r.index⟩) ∧
      (∀ r ∈ Edit.reports 0 es, ∀ t, (Edit.edited es ++ tail)[r.index]? = some t →
        Checker.positionAt (Edit.edited es ++ tail).toArray r.index = t.position) ∧
      (checkTokens policy (Edit.edited es ++ tail)).consumed = (Edit.edited es).length := by
  have hend : ∀ t ∈ Edit.edited es, t.isEnd = false := by
    intro t hm
    rw [← Bool.not_eq_true]
    intro he
    apply hd.other_notMem
    rw [Edit.edited_map, ← Token.terminal_of_isEnd he]
    exact List.mem_map_of_mem hm
  have hterm := terminals_append hend ht
  have htrace : Goal.trace policy [] 0 (terminals (Edit.edited es ++ tail)) =
      Edit.reports 0 es := by
    have h := hd.trace_edited policy.accepts_semicolon hc 0
    rwa [Edit.edited_map, Edit.reports_map, ← hterm] at h
  refine ⟨?_, ?_, ?_, fun r _ t => Checker.positionAt_of_getElem?, ?_⟩
  · have h := hd.derives_original
    rwa [Edit.original_map] at h
  · rw [Checker.reports_program, htrace]
  · rw [violations_checkTokens, htrace]
  · rw [consumed_checkTokens, hterm, List.length_map]

/-- The edits that make `for if (a) { x return } else { } z` out of
`if (a) { x; } else { } z;`. -/
def damagedChoice : List (Edit Token) :=
  [.insert ⟨.keyword, "for", ⟨1, 1⟩⟩, .keep ⟨.keyword, "if", ⟨1, 5⟩⟩,
    .keep ⟨.punctuation, "(", ⟨1, 8⟩⟩, .keep ⟨.identifier, "a", ⟨1, 9⟩⟩,
    .keep ⟨.punctuation, ")", ⟨1, 10⟩⟩, .keep ⟨.punctuation, "\x7b", ⟨1, 12⟩⟩,
    .keep ⟨.identifier, "x", ⟨1, 14⟩⟩, .drop ⟨.punctuation, ";", ⟨1, 15⟩⟩,
    .insert ⟨.keyword, "return", ⟨1, 16⟩⟩, .keep ⟨.punctuation, "\x7d", ⟨1, 23⟩⟩,
    .keep ⟨.keyword, "else", ⟨1, 25⟩⟩, .keep ⟨.punctuation, "\x7b", ⟨1, 30⟩⟩,
    .keep ⟨.punctuation, "\x7d", ⟨1, 32⟩⟩, .keep ⟨.identifier, "z", ⟨1, 34⟩⟩,
    .drop ⟨.punctuation, ";", ⟨1, 35⟩⟩]

private theorem damaged_damagedChoice :
    Damaged .semicolonOnly .statements (damagedChoice.map (Edit.map Token.terminal)) := by
  have hbody : Damaged .semicolonOnly .statements
      [.keep .name, .drop (.mark .semicolon), .insert (.word .kwReturn)] :=
    .moreStatements (.expression rfl rfl) (.strayKeyword rfl .noStatements)
  have hchoice := @Damaged.ifElse .semicolonOnly .name _ _ rfl (.braces hbody)
    (.braces .noStatements)
  have hlast : Damaged .semicolonOnly .statements [.keep .name, .drop (.mark .semicolon)] :=
    .moreStatements (.expression rfl rfl) .noStatements
  have hall := @Damaged.strayKeyword _ (.word .kwFor) _ rfl
    (.moreStatements (.choice hchoice) hlast)
  have he : damagedChoice.map (Edit.map Token.terminal) =
      [.insert (.word .kwFor), .keep (.word .kwIf), .keep (.mark .leftParen), .keep .name,
        .keep (.mark .rightParen), .keep (.mark .leftBrace), .keep .name,
        .drop (.mark .semicolon), .insert (.word .kwReturn), .keep (.mark .rightBrace),
        .keep (.word .kwElse), .keep (.mark .leftBrace), .keep (.mark .rightBrace),
        .keep .name, .drop (.mark .semicolon)] := by
    decide
  rw [he]
  exact hall

theorem damage_reported_damagedChoice :
    (Checker.ofTokens .anyPunctuation
      (Edit.edited damagedChoice ++ [⟨.endOfInput, "", ⟨1, 35⟩⟩])).program.reports.toList =
      [⟨.unexpectedKeyword, 0⟩, ⟨.expectedSemicolon, 7⟩, ⟨.unexpectedKeyword, 7⟩,
        ⟨.expectedSemicolon, 13⟩] ∧
    (checkTokens .anyPunctuation
      (Edit.edited damagedChoice ++ [⟨.endOfInput, "", ⟨1, 35⟩⟩])).violations =
      [⟨.unexpectedKeyword, ⟨1, 1⟩⟩, ⟨.expectedSemicolon, ⟨1, 16⟩⟩,
        ⟨.unexpectedKeyword, ⟨1, 16⟩⟩, ⟨.expectedSemicolon, ⟨1, 35⟩⟩] := by
  obtain ⟨-, hreports, hviolations, -⟩ := damage_reported_exactly .anyPunctuation damagedChoice
    [⟨.endOfInput, "", ⟨1, 35⟩⟩] damaged_damagedChoice (by decide) (by decide)
  exact ⟨hreports, hviolations⟩

end SyntaxAudit
