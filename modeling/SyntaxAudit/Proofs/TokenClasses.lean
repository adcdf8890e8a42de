import SyntaxAudit.Proofs.SourceOrder

/-! What a check sees of its tokens is their classes. Two sequences of the same classes get the same
reports at the same tokens, however the tokens are spelled and wherever they stand. -/
namespace SyntaxAudit

/-- Two tokens of the same class: the grammar names no difference between them. -/
structure Token.Alike (t u : Token) : Prop where
  kind : t.kind = u.kind
  keyword : t.keyword? = u.keyword?
  punctuation : t.punctuation? = u.punctuation?
  assign : t.operator? = some .assign ↔ u.operator? = some .assign

namespace Token.Alike
variable {t u : Token}

theorem isEnd (h : t.Alike u) : t.isEnd = u.isEnd := by
  rw [Token.isEnd, Token.isEnd, h.kind]

theorem terminal (h : t.Alike u) : t.terminal = u.terminal := by
  unfold Token.terminal
  simp only [h.kind, h.keyword, h.punctuation, h.assign]

end Token.Alike

section
variable {a b : List Token}

/-- The grammar sees the same in two sequences of the same classes. -/
theorem terminals_of_alike (hlength : a.length = b.length)
    (halike : ∀ (i : Nat) (t u : Token), a[i]? = some t → b[i]? = some u → t.Alike u) :
    terminals a = terminals b := by
  induction a generalizing b with
  | nil =>
    obtain rfl := List.eq_nil_of_length_eq_zero hlength.symm
    rfl
  | cons t a ih =>
    cases b with
    | nil => cases hlength
    | cons u b =>
      have hhead : t.Alike u := halike 0 t u rfl rfl
      have htail := ih (Nat.succ.inj hlength) fun i => halike (i + 1)
      cases hend : u.isEnd with
      | true => simp [terminals, hhead.isEnd, hend]
      | false =>
        rw [terminals, terminals] at htail
        simp [terminals, hhead.isEnd, hhead.terminal, hend, htail]

/-- The two tokens whose positions a report has in two sequences of the same length. -/
theorem tokens_of_report {policy : TerminatorPolicy} (hlength : a.length = b.length)
    (hterminals : terminals a = terminals b) {r : Report}
    (hr : r ∈ Goal.trace policy [] 0 (terminals a)) :
    ∃ (i : Nat) (t u : Token), a[i]? = some t ∧ b[i]? = some u ∧
      Checker.positionAt a.toArray r.index = t.position ∧
      Checker.positionAt b.toArray r.index = u.position := by
  obtain ⟨t, ht, hplace⟩ := token_of_report hr
  obtain ⟨u, hu, hplace'⟩ := @token_of_report policy b r (hterminals ▸ hr)
  rw [← hlength] at hu
  exact ⟨_, t, u, ht, hu, hplace, hplace'⟩

end

/-- Two sequences of tokens that agree in their classes, index by index, are taken to the same point
with the same violations in the same order, and each violation has the positions of two tokens with
one common index. -/
theorem verdict_of_classes (policy : TerminatorPolicy) {a b : List Token}
    (hlength : a.length = b.length)
    (halike : ∀ (i : Nat) (t u : Token), a[i]? = some t → b[i]? = some u → t.Alike u) :
    (checkTokens policy a).consumed = (checkTokens policy b).consumed ∧
    (checkTokens policy a).errorCount = (checkTokens policy b).errorCount ∧
    (checkTokens policy a).violations.map Violation.kind =
      (checkTokens policy b).violations.map Violation.kind ∧
    ∀ (k : Nat) (v w : Violation), (checkTokens policy a).violations[k]? = some v →
      (checkTokens policy b).violations[k]? = some w →
      ∃ (i : Nat) (t u : Token), a[i]? = some t ∧ b[i]? = some u ∧
        v.position = t.position ∧ w.position = u.position := by
  have hterminals := terminals_of_alike hlength halike
  refine ⟨?_, ?_, ?_, ?_⟩
  · rw [consumed_checkTokens, consumed_checkTokens, hterminals]
  · rw [errorCount_checkTokens, errorCount_checkTokens, hterminals]
  · rw [violations_checkTokens, violations_checkTokens, hterminals, List.map_map, List.map_map]
    rfl
  · intro k v w hv hw
    rw [violations_checkTokens, List.getElem?_map] at hv hw
    rw [← hterminals] at hw
    obtain ⟨r, hr, rfl⟩ := Option.map_eq_some_iff.mp hv
    rw [hr] at hw
    obtain rfl := Option.some.inj hw
    exact tokens_of_report hlength hterminals (List.mem_of_getElem? hr)

def shortSum : List Token :=
  [⟨.identifier, "x", ⟨1, 1⟩⟩, ⟨.operator, "+", ⟨1, 3⟩⟩, ⟨.number, "1", ⟨1, 5⟩⟩]

def spreadBound : List Token :=
  [⟨.identifier, "total", ⟨3, 1⟩⟩, ⟨.operator, "<=", ⟨4, 7⟩⟩, ⟨.number, "2.5", ⟨9, 2⟩⟩]

theorem verdict_of_classes_shortSum :
    (checkTokens .semicolonOnly spreadBound).violations.map Violation.kind =
      [.expectedSemicolon, .expectedExpression, .expectedSemicolon, .expectedSemicolon] ∧
    ∃ (i : Nat) (t u : Token), shortSum[i]? = some t ∧ spreadBound[i]? = some u ∧
      (⟨1, 5⟩ : Position) = t.position ∧ (⟨9, 2⟩ : Position) = u.position := by
  have hlength : shortSum.length = spreadBound.length := rfl
  have halike : ∀ (i : Nat) (t u : Token), shortSum[i]? = some t → spreadBound[i]? = some u →
      t.Alike u := by
    intro i t u ht hu
    match i with
    | 0 | 1 | 2 =>
      obtain rfl := Option.some.inj ht
      obtain rfl := Option.some.inj hu
      exact ⟨rfl, by decide, by decide, by decide⟩
    | i + 3 => cases ht
  obtain ⟨-, -, hkinds, hplaces⟩ := verdict_of_classes .semicolonOnly hlength halike
  refine ⟨?_, ?_⟩
  · rw [← hkinds, violations_checkTokens]
    decide
  · -- the last violation is detected behind the last token
    refine hplaces 3 ⟨.expectedSemicolon, ⟨1, 5⟩⟩ ⟨.expectedSemicolon, ⟨9, 2⟩⟩ ?_ ?_
    · rw [violations_checkTokens]
      decide
    · rw [violations_checkTokens]
      decide

end SyntaxAudit
