import SyntaxAudit.Checker.Production

/-! Every production returns, whatever state it is called in. It calls another one with fewer tokens
before it, or with as many where a loop calls its statement and a statement its construct. -/
namespace SyntaxAudit

namespace Checker
variable {c d e : Checker}

/-- One check is reached from another by taking tokens and recording violations. -/
inductive Steps (c : Checker) : Checker → Prop
  | refl : Steps c c
  | advance {d : Checker} : Steps c d → Steps c d.advance
  | record {d : Checker} (v : Detection) : Steps c d → Steps c (d.record v)

theorem Steps.trans (h : c.Steps d) (h' : d.Steps e) : c.Steps e := by
  induction h' with
  | refl => exact h
  | advance _ ih => exact ih.advance
  | record v _ ih => exact ih.record v

/-- Either no token was taken, or the cursor has moved on and fewer tokens remain. -/
theorem Steps.moved (h : c.Steps d) :
    d.cursor = c.cursor ∧ d.left = c.left ∨ c.cursor < d.cursor ∧ d.left < c.left := by
  induction h with
  | refl => exact .inl ⟨rfl, rfl⟩
  | @advance d _ ih =>
    cases hd : d.current? with
    | none =>
      rw [advance_of_none hd]
      exact ih
    | some t =>
      have hsome : d.current?.isSome = true := by rw [hd]; rfl
      have hleft := left_advance_lt hsome
      have hcursor := cursor_advance hsome
      omega
  | record v _ ih => exact ih

theorem Steps.left_le (h : c.Steps d) : d.left ≤ c.left := by
  have hmoved := h.moved
  omega

theorem Steps.cursor_le (h : c.Steps d) : c.cursor ≤ d.cursor := by
  have hmoved := h.moved
  omega

theorem isSome_of_any {wanted : Token → Bool} (h : c.current?.any wanted = true) :
    c.current?.isSome = true := by
  cases hc : c.current? with
  | none =>
    rw [hc] at h
    cases h
  | some t => rfl

end Checker

namespace Attempt
variable {α β : Type} {c d : Checker}

def Returns (x : Attempt α) (c : Checker) : Prop :=
  ∃ r d, x c = some (r, d) ∧ c.Steps d

theorem Returns.bind {x : Attempt α} {k : α → Attempt β} (h : x.Returns c)
    (hk : ∀ a d, c.Steps d → (k a).Returns d) : (x >>= k).Returns c := by
  obtain ⟨v | a, d, hx, hd⟩ := h
  · exact ⟨.error v, d, bind_of_error hx, hd⟩
  · obtain ⟨r, e, hka, he⟩ := hk a d hd
    exact ⟨r, e, (bind_of_ok hx).trans hka, hd.trans he⟩

theorem Returns.recover {x : Attempt Unit} (h : x.Returns c) :
    (recover x).Returns c := by
  obtain ⟨v | _, d, hx, hd⟩ := h
  · exact ⟨.ok (), _, recover_of_error hx, hd.record v⟩
  · exact ⟨.ok (), d, recover_of_ok hx, hd⟩

theorem returns_accept (wanted : Token → Bool) :
    (accept wanted).Returns c := by
  by_cases h : c.current?.any wanted = true
  · exact ⟨_, _, accept_of_any h, .advance .refl⟩
  · exact ⟨_, _, accept_of_not_any h, .refl⟩

/-- The attempt returns, and takes a token if the current one is of the given kind. -/
def Takes (x : Attempt Unit) (first : Token → Bool) (c : Checker) : Prop :=
  ∃ r d, x c = some (r, d) ∧ c.Steps d ∧ (c.current?.any first = true → c.cursor < d.cursor)

theorem Takes.returns {x : Attempt Unit} {first : Token → Bool} (h : x.Takes first c) :
    x.Returns c := by
  obtain ⟨r, d, hx, hd, -⟩ := h
  exact ⟨r, d, hx, hd⟩

/-- What begins with an expectation takes a token that is as expected. -/
theorem takes_expect {wanted : Token → Bool} {kind : ViolationKind} {k : Unit → Attempt Unit}
    (hk : ∀ d, c.Steps d → d.left < c.left → (k ()).Returns d) :
    (expect wanted kind >>= k).Takes wanted c := by
  by_cases h : c.current?.any wanted = true
  · have hsome := Checker.isSome_of_any h
    have hadvance : c.Steps c.advance := .advance .refl
    obtain ⟨r, d, hd, hsteps⟩ := hk c.advance hadvance (Checker.left_advance_lt hsome)
    refine ⟨r, d, (bind_of_ok (expect_of_any h kind)).trans hd, hadvance.trans hsteps, fun _ => ?_⟩
    have hcursor := Checker.cursor_advance hsome
    have hle := hsteps.cursor_le
    omega
  · exact ⟨_, c, bind_of_error (expect_of_not_any h kind), .refl, fun hwanted => absurd hwanted h⟩

theorem returns_expect (wanted : Token → Bool) (kind : ViolationKind) :
    (expect wanted kind).Returns c := by
  by_cases h : c.current?.any wanted = true
  · exact ⟨_, _, expect_of_any h kind, .advance .refl⟩
  · exact ⟨_, _, expect_of_not_any h kind, .refl⟩

/-- An expression takes the current token, whatever it is. -/
theorem takes_expression : expression.Takes (fun _ => true) c := by
  cases hc : c.current? with
  | none => exact ⟨_, c, expression_of_none hc, .refl, by simp [hc]⟩
  | some t =>
    refine ⟨_, c.advance, expression_of_some hc, .advance .refl, fun _ => ?_⟩
    have hcursor := Checker.cursor_advance (c := c) (by rw [hc]; rfl)
    omega

theorem Takes.bind {x : Attempt Unit} {first : Token → Bool} {k : Unit → Attempt Unit}
    (h : x.Takes first c)
    (hk : ∀ d, c.Steps d → (c.current?.any first = true → d.left < c.left) → (k ()).Returns d) :
    (x >>= k).Takes first c := by
  obtain ⟨v | _, d, hx, hd, htaken⟩ := h
  · exact ⟨.error v, d, bind_of_error hx, hd, htaken⟩
  · have hless : c.current?.any first = true → d.left < c.left := by
      intro hfirst
      have hcursor := htaken hfirst
      have hmoved := hd.moved
      omega
    obtain ⟨r, e, hka, he⟩ := hk d hd hless
    refine ⟨r, e, (bind_of_ok hx).trans hka, hd.trans he, fun hfirst => ?_⟩
    exact Nat.lt_of_lt_of_le (htaken hfirst) he.cursor_le

theorem Takes.recover {x : Attempt Unit} {first : Token → Bool} (h : x.Takes first c) :
    (recover x).Takes first c := by
  obtain ⟨v | _, d, hx, hd, htaken⟩ := h
  · exact ⟨.ok (), _, recover_of_error hx, hd.record v, htaken⟩
  · exact ⟨.ok (), d, recover_of_ok hx, hd, htaken⟩

theorem returns_terminator : terminator.Returns c :=
  .bind ⟨_, c, rfl, .refl⟩ fun d _ _ => returns_expect d.policy.ends _

theorem takes_expressionStatement : expressionStatement.Takes (fun _ => true) c :=
  .bind (.recover takes_expression) fun _ _ _ => returns_terminator

theorem takes_variableDeclaration :
    variableDeclaration.Takes (·.keyword?.any Keyword.declaresVariable) c := by
  refine takes_expect fun d _ _ => ?_
  refine .bind (returns_expect _ _) fun _ d _ => .bind (returns_accept _) fun assigned d _ => ?_
  cases assigned with
  | true => exact .bind (.recover takes_expression.returns) fun _ d _ => returns_terminator
  | false => exact returns_terminator

theorem returns_condition : condition.Returns c := by
  refine (takes_expect fun d _ _ => ?_).returns
  exact .bind (.recover takes_expression.returns) fun _ d _ => returns_expect _ _

end Attempt

namespace Production
open Attempt
variable {c d : Checker} {p q : Production}

/-- The tokens that a production is sure to take. -/
def opens : Production → Token → Bool
  | statement => fun _ => true
  | functionDeclaration => (·.isKeyword .kwFunction)
  | ifStatement => (·.isKeyword .kwIf)
  | whileStatement => (·.isKeyword .kwWhile)
  | program | parameterList | block | blockRest => fun _ => false

theorem takes_of_returns {x : Attempt Unit} {first : Token → Bool} (h : x.Returns c)
    (hnone : ¬c.current?.any first = true) : x.Takes first c := by
  obtain ⟨r, d, hx, hd⟩ := h
  exact ⟨r, d, hx, hd, fun hfirst => absurd hfirst hnone⟩

theorem takes_get {k : Checker → Attempt Unit} {first : Token → Bool} (h : (k c).Takes first c) :
    (get >>= k : Attempt Unit).Takes first c := by
  obtain ⟨r, d, hx, hd⟩ := h
  exact ⟨r, d, (get_bind c).trans hx, hd⟩

theorem not_any_false : ¬c.current?.any (fun _ => false) = true := by
  cases c.current? <;> exact Bool.noConfusion

section Body
variable {call : Production → Attempt Unit}

theorem returns_below (hcall : ∀ q d, q.Below d p c → (call q).Takes q.opens d)
    (hd : d.left < c.left) (q : Production) : (call q).Returns d :=
  (hcall q d (.inl hd)).returns

/-- Whatever the current token is, the construct that is chosen for it takes it. -/
theorem takes_construct {t : Token} (hcall : ∀ q, q.rank < 1 → (call q).Takes q.opens c)
    (hc : c.current? = some t) : (construct call t).Takes (fun _ => true) c := by
  have hopened : ∀ {x : Attempt Unit} {first : Token → Bool},
      x.Takes first c → first t = true → x.Takes (fun _ => true) c := by
    rintro x first ⟨r, d, hx, hd, htaken⟩ hfirst
    exact ⟨r, d, hx, hd, fun _ => htaken (by rw [hc]; exact hfirst)⟩
  -- a keyword that begins nothing is taken here and now
  have hstray : (modify fun c => (c.record (c.detect .unexpectedKeyword)).advance :
      Attempt Unit).Takes (fun _ => true) c := by
    refine ⟨_, _, rfl, .advance (.record _ .refl), fun _ => ?_⟩
    have hcursor := Checker.cursor_advance (c := c.record (c.detect .unexpectedKeyword))
      (by change c.current?.isSome = true; rw [hc]; rfl)
    exact hcursor ▸ Nat.lt_succ_self c.cursor
  by_cases hkind : t.kind = .keyword
  · rw [construct, if_pos hkind]
    cases hk : t.keyword? with
    | none => exact hstray
    | some k =>
      cases k with
      | kwFunction => exact hopened (hcall functionDeclaration Nat.one_pos) (beq_iff_eq.mpr hk)
      | kwVar | kwLet | kwConst => exact hopened takes_variableDeclaration (by rw [hk]; rfl)
      | kwIf => exact hopened (hcall ifStatement Nat.one_pos) (beq_iff_eq.mpr hk)
      | kwWhile => exact hopened (hcall whileStatement Nat.one_pos) (beq_iff_eq.mpr hk)
      | _ => exact hstray
  · rw [construct, if_neg hkind]
    exact takes_expressionStatement

/-- A loop over statements comes back to its start with fewer tokens before it. -/
theorem returns_loop (hcall : ∀ q d, q.Below d p c → (call q).Takes q.opens d) (hp : 1 < p.rank)
    (hc : c.current?.isSome = true) : (call statement >>= fun _ => call p).Returns c := by
  refine (Takes.bind (hcall statement c (.inr ⟨rfl, hp⟩)) fun d _ hless => ?_).returns
  obtain ⟨t, ht⟩ := Option.isSome_iff_exists.mp hc
  exact returns_below hcall (hless (by rw [ht]; rfl)) p

theorem takes_body (hcall : ∀ q d, q.Below d p c → (call q).Takes q.opens d) :
    (p.body call).Takes p.opens c := by
  cases p with
  | statement =>
    refine takes_get ?_
    cases hc : c.current? with
    | some t =>
      exact .recover (takes_construct (fun q hq => hcall q c (.inr ⟨rfl, hq⟩)) hc)
    | none => exact ⟨_, c, rfl, .refl, by simp [hc]⟩
  | program =>
    refine takes_get (takes_of_returns ?_ not_any_false)
    split
    · rename_i hsome
      exact returns_loop hcall (Nat.lt_succ_self 1) hsome
    · exact ⟨_, c, rfl, .refl⟩
  | blockRest =>
    refine takes_get (takes_of_returns ?_ not_any_false)
    split
    · rename_i hany
      exact returns_loop hcall (Nat.lt_succ_self 1) (Checker.isSome_of_any hany)
    · exact ⟨_, c, rfl, .refl⟩
  | functionDeclaration =>
    refine takes_expect fun d hd hless => ?_
    refine .bind (returns_expect _ _) fun _ e he => .bind (returns_expect _ _) fun _ f hf => ?_
    have hless := Nat.lt_of_le_of_lt (he.trans hf).left_le hless
    refine .bind (returns_below hcall hless _) fun _ g hg => ?_
    refine .bind (returns_expect _ _) fun _ h hh => ?_
    exact returns_below hcall (Nat.lt_of_le_of_lt (hg.trans hh).left_le hless) _
  | parameterList =>
    refine takes_get (takes_of_returns ?_ not_any_false)
    split
    · refine (takes_expect fun d _ hless => ?_).returns
      refine .bind (returns_accept _) fun _ e he => ?_
      exact returns_below hcall (Nat.lt_of_le_of_lt he.left_le hless) _
    · exact ⟨_, c, rfl, .refl⟩
  | ifStatement =>
    refine takes_expect fun d _ hless => .bind returns_condition fun _ e he => ?_
    have hless := Nat.lt_of_le_of_lt he.left_le hless
    refine .bind (.recover (returns_below hcall hless _)) fun _ f hf => ?_
    refine .bind (returns_accept _) fun otherwise g hg => ?_
    have hless := Nat.lt_of_le_of_lt (hf.trans hg).left_le hless
    split
    · refine (takes_get (takes_of_returns ?_ not_any_false)).returns
      split <;> exact returns_below hcall hless _
    · exact ⟨_, g, rfl, .refl⟩
  | whileStatement =>
    refine takes_expect fun d _ hless => .bind returns_condition fun _ e he => ?_
    exact returns_below hcall (Nat.lt_of_le_of_lt he.left_le hless) _
  | block =>
    refine takes_of_returns (takes_expect fun d _ hless => ?_).returns not_any_false
    exact .bind (returns_below hcall hless _) fun _ e _ => returns_expect _ _

end Body

/-- There is no endless chain of calls. -/
theorem wellFounded_below :
    WellFounded fun a b : Production × Checker => a.1.Below a.2 b.1 b.2 := by
  have hlex := (Prod.lex (inferInstance : WellFoundedRelation Nat)
    (inferInstance : WellFoundedRelation Nat)).wf
  exact Subrelation.wf Below.lex
    (InvImage.wf (fun a : Production × Checker => (a.2.left, a.1.rank)) hlex)

theorem parse_eq_guarded (p : Production) (c : Checker) :
    p.parse c = p.body (fun q d => if q.Below d p c then q.parse d else none) c := by
  rw [parse, parseFrom]
  rfl

/-- Every production returns from every state. -/
theorem takes_parse (p : Production) (c : Checker) : p.parse.Takes p.opens c := by
  suffices h : ∀ a : Production × Checker, a.1.parse.Takes a.1.opens a.2 from h (p, c)
  intro a
  induction a using wellFounded_below.induction with
  | _ a ih =>
    obtain ⟨r, e, hbody, he⟩ : (a.1.body fun q d =>
        if q.Below d a.1 a.2 then q.parse d else none).Takes a.1.opens a.2 := by
      refine takes_body fun q d hbelow => ?_
      obtain ⟨r, e, hparse, he⟩ := ih (q, d) hbelow
      exact ⟨r, e, (if_pos hbelow).trans hparse, he⟩
    exact ⟨r, e, (parse_eq_guarded a.1 a.2).trans hbody, he⟩

theorem isSome_parse (p : Production) (c : Checker) : (p.parse c).isSome = true := by
  obtain ⟨r, d, hd, -⟩ := p.takes_parse c
  rw [hd]
  rfl

/-- A production never calls one that is not below it, so it is what its code says. -/
theorem parse_eq_body (p : Production) : p.parse = p.body parse := by
  funext c
  have happrox := approximates_body (f := fun q d => if q.Below d p c then q.parse d else none)
    (g := parse) (fun q d => by dsimp only; split <;> simp) p c
  rw [← parse_eq_guarded] at happrox
  rcases happrox with hnone | hsame
  · have hsome := p.isSome_parse c
    rw [hnone] at hsome
    cases hsome
  · exact hsame

theorem parse_statement_of_some {t : Token} (h : c.current? = some t) :
    statement.parse c = recover (construct parse t) c := by
  rw [parse_eq_body, body, get_bind, h]

theorem parse_statement_of_none (h : c.current? = none) :
    statement.parse c = some (.ok (), c) := by
  rw [parse_eq_body, body, get_bind, h]
  rfl

theorem parse_program_of_isSome (h : c.current?.isSome = true) :
    program.parse c = (statement.parse >>= fun _ => program.parse) c := by
  have hbody := congrFun (parse_eq_body program) c
  rw [hbody, body, get_bind, if_pos h]

theorem parse_program_of_none (h : c.current? = none) : program.parse c = some (.ok (), c) := by
  rw [parse_eq_body, body, get_bind, h]
  rfl

theorem parse_blockRest_of_not_any (h : ¬c.current?.any (!·.isMark .rightBrace) = true) :
    blockRest.parse c = some (.ok (), c) := by
  rw [parse_eq_body, body, get_bind, if_neg h]
  rfl

theorem parse_blockRest_of_any (h : c.current?.any (!·.isMark .rightBrace) = true) :
    blockRest.parse c = (statement.parse >>= fun _ => blockRest.parse) c := by
  have hbody := congrFun (parse_eq_body blockRest) c
  rw [hbody, body, get_bind, if_pos h]

theorem parse_parameterList_of_not_any (h : ¬c.current?.any (!·.isMark .rightParen) = true) :
    parameterList.parse c = some (.ok (), c) := by
  rw [parse_eq_body, body, get_bind, if_neg h]
  rfl

theorem parse_parameterList_of_any (h : c.current?.any (!·.isMark .rightParen) = true) :
    parameterList.parse c =
      (expectName .expectedParameterName >>= fun _ =>
        accept (·.isMark .comma) >>= fun _ => parameterList.parse) c := by
  have hbody := congrFun (parse_eq_body parameterList) c
  rw [hbody, body, get_bind, if_pos h]

end Production

end SyntaxAudit
