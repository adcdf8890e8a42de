import SyntaxAudit.Checker.State

/-! The check by recursive descent. Every construct has a production, which takes the tokens of the
construct one by one and gives up at the first that does not fit. What it gives up with is recorded
where a construct around it can go on. -/
namespace SyntaxAudit

/-- An attempt at a construct, which moves a check on and either succeeds or gives up with a
violation that is not yet recorded. There is no result at all if it never returns. -/
abbrev Attempt := ExceptT Detection (StateT Checker Option)

def TerminatorPolicy.ends : TerminatorPolicy → Token → Bool
  | anyPunctuation, t => t.kind == .punctuation
  | semicolonOnly, t => t.isMark .semicolon

namespace Attempt

/-- Takes the current token if it is one of those wanted, and tells whether it was. -/
def accept (wanted : Token → Bool) : Attempt Bool := do
  let c ← get
  if c.current?.any wanted then
    set c.advance
    return true
  else
    return false

def recover (x : Attempt Unit) : Attempt Unit := do
  try x catch d => modify (·.record d)

def giveUp (kind : ViolationKind) : Attempt Unit := do
  throw ((← get).detect kind)

def expect (wanted : Token → Bool) (kind : ViolationKind) : Attempt Unit := do
  if ← accept wanted then return else giveUp kind

def expectKeyword (k : Keyword) (kind : ViolationKind) : Attempt Unit :=
  expect (·.isKeyword k) kind

def expectMark (p : Punctuation) (kind : ViolationKind) : Attempt Unit :=
  expect (·.isMark p) kind

def expectName (kind : ViolationKind) : Attempt Unit :=
  expect (·.kind == .identifier) kind

def terminator : Attempt Unit := do
  expect (← get).policy.ends .expectedSemicolon

/-- An expression is a single token. A token that is none is taken as well. -/
def expression : Attempt Unit := do
  let c ← get
  match c.current? with
  | some t =>
    set c.advance
    unless t.kind.isOperand do throw (c.detect .expectedExpression)
  | none => giveUp .expectedExpression

def expressionStatement : Attempt Unit := do
  recover expression
  terminator

def variableDeclaration : Attempt Unit := do
  expect (·.keyword?.any Keyword.declaresVariable) .expectedDeclarationKeyword
  expectName .expectedVariableName
  if ← accept (·.isOperator .assign) then recover expression
  terminator

def condition : Attempt Unit := do
  expectMark .leftParen .expectedOpenParen
  recover expression
  expectMark .rightParen .expectedCloseParen

end Attempt

inductive Production
  | program
  | statement
  | functionDeclaration
  | parameterList
  | ifStatement
  | whileStatement
  | block
  /-- The statements of a block up to its closing brace. -/
  | blockRest
deriving DecidableEq

namespace Production
open Attempt

def construct (call : Production → Attempt Unit) (t : Token) : Attempt Unit :=
  if t.kind = .keyword then
    match t.keyword? with
    | some .kwFunction => call functionDeclaration
    | some .kwVar | some .kwLet | some .kwConst => variableDeclaration
    | some .kwIf => call ifStatement
    | some .kwWhile => call whileStatement
    | _ => modify fun c => (c.record (c.detect .unexpectedKeyword)).advance
  else expressionStatement

/-- The code of a production, where `call` stands for the productions it calls. -/
def body (call : Production → Attempt Unit) : Production → Attempt Unit
  | program => do
    if (← get).current?.isSome then
      call statement
      call program
  | statement => do
    match (← get).current? with
    | some t => recover (construct call t)
    | none => return
  | functionDeclaration => do
    expectKeyword .kwFunction .expectedFunctionKeyword
    expectName .expectedFunctionName
    expectMark .leftParen .expectedOpenParen
    call parameterList
    expectMark .rightParen .expectedCloseParen
    call block
  | parameterList => do
    if (← get).current?.any (!·.isMark .rightParen) then
      expectName .expectedParameterName
      let _ ← accept (·.isMark .comma)
      call parameterList
  | ifStatement => do
    expectKeyword .kwIf .expectedIfKeyword
    condition
    -- a body that is given up does not keep the check from looking for `else`
    recover (call block)
    if ← accept (·.isKeyword .kwElse) then
      if (← get).current?.any (·.isKeyword .kwIf) then call ifStatement else call block
  | whileStatement => do
    expectKeyword .kwWhile .expectedWhileKeyword
    condition
    call block
  | block => do
    expectMark .leftBrace .expectedOpenBrace
    call blockRest
    expectMark .rightBrace .expectedCloseBrace
  | blockRest => do
    if (← get).current?.any (!·.isMark .rightBrace) then
      call statement
      call blockRest

end Production

section Running
variable {α β : Type} {c d : Checker} {wanted : Token → Bool}

theorem Attempt.bind_run (x : Attempt α) (k : α → Attempt β) (c : Checker) :
    (x >>= k) c = (x c).bind fun r =>
      match r with
      | (.ok a, d) => k a d
      | (.error e, d) => some (.error e, d) := by
  change (x c).bind _ = _
  congr 1
  funext ⟨r, d⟩
  cases r <;> rfl

theorem Attempt.bind_of_ok {x : Attempt α} {k : α → Attempt β} {a : α}
    (h : x c = some (.ok a, d)) : (x >>= k) c = k a d := by
  rw [bind_run, h]
  rfl

theorem Attempt.bind_of_error {x : Attempt α} {k : α → Attempt β} {v : Detection}
    (h : x c = some (.error v, d)) : (x >>= k) c = some (.error v, d) := by
  rw [bind_run, h]
  rfl

theorem Attempt.get_bind {k : Checker → Attempt β} (c : Checker) :
    (get >>= k : Attempt β) c = k c c :=
  bind_of_ok rfl

theorem Attempt.recover_run (x : Attempt Unit) (c : Checker) :
    recover x c = (x c).map fun r =>
      match r with
      | (.ok (), d) => (.ok (), d)
      | (.error v, d) => (.ok (), d.record v) := by
  change (x c).bind _ = _
  rcases x c with _ | ⟨_ | _, d⟩ <;> rfl

theorem Attempt.recover_of_ok {x : Attempt Unit} (h : x c = some (.ok (), d)) :
    recover x c = some (.ok (), d) := by
  rw [recover_run, h]
  rfl

theorem Attempt.recover_of_error {x : Attempt Unit} {v : Detection}
    (h : x c = some (.error v, d)) :
    recover x c = some (.ok (), d.record v) := by
  rw [recover_run, h]
  rfl

theorem Attempt.accept_of_any (h : c.current?.any wanted = true) :
    accept wanted c = some (.ok true, c.advance) := by
  rw [accept, get_bind, if_pos h]
  rfl

theorem Attempt.accept_of_not_any (h : ¬c.current?.any wanted = true) :
    accept wanted c = some (.ok false, c) := by
  rw [accept, get_bind, if_neg h]
  rfl

theorem Attempt.expect_of_any (h : c.current?.any wanted = true) (kind : ViolationKind) :
    expect wanted kind c = some (.ok (), c.advance) :=
  bind_of_ok (accept_of_any h)

theorem Attempt.expect_of_not_any (h : ¬c.current?.any wanted = true) (kind : ViolationKind) :
    expect wanted kind c = some (.error (c.detect kind), c) :=
  bind_of_ok (accept_of_not_any h)

theorem Attempt.expression_of_none (h : c.current? = none) :
    expression c = some (.error (c.detect .expectedExpression), c) := by
  rw [expression, get_bind, h]
  rfl

theorem Attempt.expression_of_some {t : Token} (h : c.current? = some t) :
    expression c =
      some (if t.kind.isOperand then .ok () else .error (c.detect .expectedExpression),
        c.advance) := by
  rw [expression, get_bind, h]
  dsimp only
  cases t.kind.isOperand <;> rfl

end Running

namespace Attempt
variable {α β : Type}

/-- Where the first attempt returns, the second one returns the same. -/
def Approximates (x y : Attempt α) : Prop :=
  ∀ c, x c = none ∨ x c = y c

namespace Approximates

theorem refl (x : Attempt α) : Approximates x x :=
  fun _ => .inr rfl

theorem bind {x y : Attempt α} {k l : α → Attempt β} (h : Approximates x y)
    (hk : ∀ a, Approximates (k a) (l a)) : Approximates (x >>= k) (y >>= l) := by
  intro c
  rw [bind_run, bind_run]
  rcases h c with h | h
  · rw [h]
    exact .inl rfl
  · rw [h]
    rcases y c with _ | ⟨_ | a, d⟩
    · exact .inl rfl
    · exact .inr rfl
    · exact hk a d

theorem recover {x y : Attempt Unit} (h : Approximates x y) :
    Approximates (recover x) (recover y) := by
  intro c
  rw [recover_run, recover_run]
  rcases h c with h | h
  · rw [h]
    exact .inl rfl
  · rw [h]
    exact .inr rfl

end Approximates

end Attempt

namespace Production
open Attempt (Approximates)

theorem approximates_construct {f g : Production → Attempt Unit}
    (h : ∀ p, Approximates (f p) (g p)) (t : Token) :
    Approximates (construct f t) (construct g t) := by
  unfold construct
  split
  · split
    · exact h _
    · exact .refl _
    · exact .refl _
    · exact .refl _
    · exact h _
    · exact h _
    · exact .refl _
  · exact .refl _

/-- The more the callees return, the more a production returns. -/
theorem approximates_body {f g : Production → Attempt Unit} (h : ∀ p, Approximates (f p) (g p))
    (p : Production) : Approximates (p.body f) (p.body g) := by
  cases p with
  | program | blockRest =>
    refine .bind (.refl _) fun c => ?_
    split
    · exact .bind (h _) fun _ => h _
    · exact .refl _
  | statement =>
    refine .bind (.refl _) fun c => ?_
    split
    · exact .recover (approximates_construct h _)
    · exact .refl _
  | functionDeclaration =>
    refine .bind (.refl _) fun _ => .bind (.refl _) fun _ => .bind (.refl _) fun _ => ?_
    exact .bind (h _) fun _ => .bind (.refl _) fun _ => h _
  | parameterList =>
    refine .bind (.refl _) fun c => ?_
    split
    · exact .bind (.refl _) fun _ => .bind (.refl _) fun _ => h _
    · exact .refl _
  | ifStatement =>
    refine .bind (.refl _) fun _ => .bind (.refl _) fun _ => ?_
    refine .bind (.recover (h _)) fun _ => .bind (.refl _) fun otherwise => ?_
    split
    · refine .bind (.refl _) fun c => ?_
      split <;> exact h _
    · exact .refl _
  | whileStatement => exact .bind (.refl _) fun _ => .bind (.refl _) fun _ => h _
  | block => exact .bind (.refl _) fun _ => .bind (h _) fun _ => .refl _

/-- A loop calls its statement, and a statement its construct, before any token is taken. -/
def rank : Production → Nat
  | program | blockRest => 2
  | statement => 1
  | functionDeclaration | parameterList | ifStatement | whileStatement | block => 0

/-- One production may be called by another one: fewer tokens remain, or as many and it ranks
below its caller. -/
def Below (q : Production) (d : Checker) (p : Production) (c : Checker) : Prop :=
  d.left < c.left ∨ d.left = c.left ∧ q.rank < p.rank

instance {q p : Production} {d c : Checker} : Decidable (q.Below d p c) :=
  inferInstanceAs (Decidable (_ ∨ _))

theorem Below.lex {q p : Production} {d c : Checker} (h : q.Below d p c) :
    Prod.Lex (· < ·) (· < ·) (d.left, q.rank) (c.left, p.rank) := by
  rcases h with hless | ⟨hsame, hrank⟩
  · exact .left _ _ hless
  · rw [hsame]
    exact .right _ hrank

/-- A production as it runs. It would not return if it called one that is not below it, which never
happens (`parse_eq_body`). -/
def parseFrom (p : Production) (c : Checker) : Option (Except Detection Unit × Checker) :=
  p.body (fun q d => if q.Below d p c then q.parseFrom d else none) c
termination_by (c.left, p.rank)
decreasing_by exact Below.lex ‹_›

def parse (p : Production) : Attempt Unit :=
  p.parseFrom

end Production

end SyntaxAudit
