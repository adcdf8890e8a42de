import SyntaxAudit.Checker
import SyntaxAudit.Grammar.Goal

/-! The code that goals stand for. A goal stands for what a production has still to run, up to the
place where a violation of it would be recorded, and a stack of goals for such pieces of code one
after the other. With each token the code of a goal does what the goal does. -/
namespace SyntaxAudit
open Attempt

theorem TerminatorPolicy.ends_eq (policy : TerminatorPolicy) (t : Token) :
    policy.ends t = policy.accepts t.terminal := by
  rw [Bool.eq_iff_iff]
  cases policy with
  | anyPunctuation =>
    have hsign := Token.terminal_eq_sign (t := t) (m := t.punctuation?)
    rw [ends, beq_iff_eq]
    constructor
    · intro h
      rw [hsign.mpr ⟨h, rfl⟩]
      rfl
    · intro h
      unfold accepts at h
      split at h <;> simp_all [Token.terminal_eq_sign]
  | semicolonOnly =>
    rw [ends, Token.isMark_iff]
    unfold accepts
    split <;> simp_all

namespace Attempt
variable {c d : Checker}

theorem recover_congr {x y : Attempt Unit} (h : x c = y d) : recover x c = recover y d := by
  rw [recover_run, recover_run, h]

theorem bind_congr_run {α β : Type} {x y : Attempt α} (h : x c = y d) (k : α → Attempt β) :
    (x >>= k) c = (y >>= k) d := by
  rw [bind_run, bind_run, h]

/-- What is recovered inside needs no recovery around it. -/
theorem recover_recover_bind (x k : Attempt Unit) :
    recover (recover x >>= fun _ => k) = (recover x >>= fun _ => recover k) := by
  funext c
  rcases hx : x c with _ | ⟨v | _, d⟩
  · have hnone : recover x c = none := by rw [recover_run, hx]; rfl
    rw [recover_run, bind_run, bind_run, hnone]
    rfl
  · rw [bind_of_ok (recover_of_error hx)]
    exact recover_congr (bind_of_ok (recover_of_error hx))
  · rw [bind_of_ok (recover_of_ok hx)]
    exact recover_congr (bind_of_ok (recover_of_ok hx))

end Attempt

def Checker.recordAll (c : Checker) (kinds : List ViolationKind) : Checker :=
  kinds.foldl (fun c kind => c.record (c.detect kind)) c

namespace Checker

theorem recordAll_append (c : Checker) (kinds more : List ViolationKind) :
    c.recordAll (kinds ++ more) = (c.recordAll kinds).recordAll more :=
  List.foldl_append

/-- Records are kept apart from all else. -/
theorem recordAll_eq (c : Checker) (kinds : List ViolationKind) :
    c.recordAll kinds =
      { c with
        errorCount := c.errorCount + kinds.length
        detections := c.detections ++ kinds.map c.detect } := by
  induction kinds generalizing c with
  | nil => simp [recordAll]
  | cons kind kinds ih =>
    have hcons : c.recordAll (kind :: kinds) = (c.record (c.detect kind)).recordAll kinds := rfl
    have hdetect : (c.record (c.detect kind)).detect = c.detect := rfl
    rw [hcons, ih, hdetect]
    simp [record, Nat.add_assoc, Nat.add_comm 1]

theorem current?_recordAll (c : Checker) (kinds : List ViolationKind) :
    (c.recordAll kinds).current? = c.current? := by
  rw [recordAll_eq]

theorem policy_recordAll (c : Checker) (kinds : List ViolationKind) :
    (c.recordAll kinds).policy = c.policy := by
  rw [recordAll_eq]

section CurrentToken
variable {c : Checker} {t : Token} (hc : c.current? = some t)
include hc

theorem any_current?_iff (wanted : Token → Bool) :
    c.current?.any wanted = true ↔ wanted t = true := by
  rw [hc, Option.any_some]

theorem any_isName : c.current?.any (·.kind == .identifier) = true ↔ t.terminal = .name := by
  rw [any_current?_iff hc, beq_iff_eq, Token.terminal_eq_name]

theorem any_isMark {m : Punctuation} :
    c.current?.any (·.isMark m) = true ↔ t.terminal = .mark m := by
  rw [any_current?_iff hc, Token.isMark_iff]

theorem any_not_isMark {m : Punctuation} :
    c.current?.any (!·.isMark m) = true ↔ t.terminal ≠ .mark m := by
  rw [any_current?_iff hc, Bool.not_eq_true', ← Bool.not_eq_true, Token.isMark_iff]

theorem any_isKeyword {k : Keyword} :
    c.current?.any (·.isKeyword k) = true ↔ t.terminal = .word k := by
  rw [any_current?_iff hc, Token.isKeyword_iff]

theorem any_isAssign :
    c.current?.any (·.isOperator .assign) = true ↔ t.terminal = .assign := by
  rw [any_current?_iff hc, Token.isOperator_assign_iff]

theorem any_ends (policy : TerminatorPolicy) :
    c.current?.any policy.ends = true ↔ policy.accepts t.terminal = true := by
  rw [any_current?_iff hc, TerminatorPolicy.ends_eq]

end CurrentToken

theorem not_any_of_none {c : Checker} {wanted : Token → Bool} (hc : c.current? = none) :
    ¬c.current?.any wanted = true := by
  rw [hc]
  exact Bool.noConfusion

end Checker

namespace Goal
open Production

def parametersCode : Attempt Unit := do
  parameterList.parse
  expectMark .rightParen .expectedCloseParen
  block.parse

def initializerCode : Attempt Unit := do
  if ← accept (·.isOperator .assign) then recover expression
  Attempt.terminator

def elseBodyCode : Attempt Unit := do
  if (← get).current?.any (·.isKeyword .kwIf) then ifStatement.parse else block.parse

def elseCode : Attempt Unit := do
  if ← accept (·.isKeyword .kwElse) then elseBodyCode

def conditionCode (body : Attempt Unit) : Attempt Unit := do
  recover expression
  expectMark .rightParen .expectedCloseParen
  body

def bodyCode : Conditional → Attempt Unit
  | .ifHead => do
    recover block.parse
    elseCode
  | .whileHead => block.parse

/-- The code that a goal stands for. -/
def code : Goal → Attempt Unit
  | functionName => do
    expectName .expectedFunctionName
    expectMark .leftParen .expectedOpenParen
    parametersCode
  | parametersOpen => do
    expectMark .leftParen .expectedOpenParen
    parametersCode
  | parameter => parametersCode
  | parameterComma => do
    let _ ← accept (·.isMark .comma)
    parametersCode
  | blockOpen => block.parse
  | blockRest => do
    Production.blockRest.parse
    expectMark .rightBrace .expectedCloseBrace
  | variableName => do
    expectName .expectedVariableName
    initializerCode
  | initializer => initializerCode
  | initialValue => expressionStatement
  | terminator => Attempt.terminator
  | conditionOpen head => do
    expectMark .leftParen .expectedOpenParen
    conditionCode (bodyCode head)
  | condition head => conditionCode (bodyCode head)
  | conditionClose head => do
    expectMark .rightParen .expectedCloseParen
    bodyCode head
  | elseClause => elseCode
  | elseBody => elseBodyCode

/-- The code of a stack of goals, each with its own recovery. -/
def pursue : List Goal → Attempt Unit
  | [] => return
  | g :: goals => do
    recover g.code
    pursue goals

end Goal

def Move.run (c : Checker) : Move → Option (Except Detection Unit × Checker)
  | .take report next => Goal.pursue next (c.recordAll report.toList).advance
  | .leave report => some (.ok (), c.recordAll report.toList)

namespace Goal
open Production
variable {c d : Checker} {g : Goal} {goals : List Goal}

theorem pursue_singleton (g : Goal) : pursue [g] = recover g.code := by
  simp [pursue]

theorem pursue_append (before after : List Goal) :
    pursue (before ++ after) = (pursue before >>= fun _ => pursue after) := by
  induction before with
  | nil => simp [pursue]
  | cons g before ih => simp [pursue, ih]

theorem parse_block :
    block.parse = (expectMark .leftBrace .expectedOpenBrace >>= fun _ => blockRest.code) := by
  rw [parse_eq_body, body, code]

theorem parse_functionDeclaration :
    functionDeclaration.parse =
      (expectKeyword .kwFunction .expectedFunctionKeyword >>= fun _ => functionName.code) := by
  rw [parse_eq_body, body, code, parametersCode]

theorem parse_ifStatement :
    ifStatement.parse =
      (expectKeyword .kwIf .expectedIfKeyword >>= fun _ => (conditionOpen .ifHead).code) := by
  rw [parse_eq_body, body, code, conditionCode, bodyCode, elseCode, elseBodyCode, Attempt.condition]
  simp only [bind_assoc]

theorem parse_whileStatement :
    whileStatement.parse =
      (expectKeyword .kwWhile .expectedWhileKeyword >>= fun _ =>
        (conditionOpen .whileHead).code) := by
  rw [parse_eq_body, body, code, conditionCode, bodyCode, Attempt.condition]
  simp only [bind_assoc]

theorem recover_bodyCode (head : Conditional) : recover (bodyCode head) = pursue head.body := by
  cases head with
  | ifHead =>
    rw [Conditional.body, pursue, pursue_singleton]
    exact recover_recover_bind block.parse elseCode
  | whileHead => exact (pursue_singleton blockOpen).symm

/-- The code of a goal that awaits a terminal begins with an expectation. -/
theorem code_of_awaits {u : Terminal} {next : List Goal} {kind : ViolationKind}
    (h : Awaits g u next kind) :
    ∃ wanted rest, g.code = (expect wanted kind >>= fun _ => rest) ∧
      (∀ t, wanted t = true ↔ t.terminal = u) ∧ recover rest = pursue next := by
  have hname (t : Token) : (t.kind == .identifier) = true ↔ t.terminal = .name := by
    rw [beq_iff_eq, Token.terminal_eq_name]
  cases h with
  | functionName => exact ⟨_, parametersOpen.code, rfl, hname, (pursue_singleton _).symm⟩
  | parametersOpen =>
    exact ⟨_, parameter.code, rfl, fun _ => Token.isMark_iff, (pursue_singleton _).symm⟩
  | blockOpen => exact ⟨_, _, parse_block, fun _ => Token.isMark_iff, (pursue_singleton _).symm⟩
  | variableName => exact ⟨_, initializer.code, rfl, hname, (pursue_singleton _).symm⟩
  | conditionOpen head =>
    exact ⟨_, (condition head).code, rfl, fun _ => Token.isMark_iff, (pursue_singleton _).symm⟩
  | conditionClose head => exact ⟨_, _, rfl, fun _ => Token.isMark_iff, recover_bodyCode head⟩

/-- A goal that awaits a terminal goes on behind it. -/
theorem recover_awaited {t : Token} {next : List Goal} {kind : ViolationKind}
    (h : Awaits g t.terminal next kind) (hc : c.current? = some t) :
    recover g.code c = pursue next c.advance := by
  obtain ⟨wanted, rest, hcode, hwanted, hrest⟩ := code_of_awaits h
  have hany : c.current?.any wanted = true :=
    (Checker.any_current?_iff hc wanted).mpr ((hwanted t).mpr rfl)
  rw [hcode, ← hrest]
  exact recover_congr (bind_of_ok (expect_of_any hany kind))

/-- Where a terminal that is awaited does not stand, its absence is recorded. -/
theorem recover_missing {u : Terminal} {next : List Goal} {kind : ViolationKind}
    (h : Awaits g u next kind) (hc : ∀ t ∈ c.current?, t.terminal ≠ u) :
    recover g.code c = some (.ok (), c.recordAll [kind]) := by
  obtain ⟨wanted, rest, hcode, hwanted, -⟩ := code_of_awaits h
  have hany : ¬c.current?.any wanted = true := by
    intro hany
    obtain ⟨t, ht, hwant⟩ := (Option.any_eq_true wanted _).mp hany
    exact hc t ht ((hwanted t).mp hwant)
  rw [hcode]
  exact recover_of_error (bind_of_error (expect_of_not_any hany kind))

/-- The code of a goal that awaits an operand begins with an expression. -/
theorem code_of_awaitsOperand {next : List Goal} (h : AwaitsOperand g next) :
    recover g.code = (recover expression >>= fun _ => pursue next) := by
  cases h with
  | initialValue =>
    rw [pursue_singleton]
    exact recover_recover_bind expression Attempt.terminator
  | condition head =>
    rw [pursue_singleton]
    exact recover_recover_bind expression (conditionClose head).code

theorem recover_operand {t : Token} {next : List Goal} (h : AwaitsOperand g next)
    (hc : c.current? = some t) :
    recover g.code c =
      pursue next (c.recordAll
        (if t.terminal.isOperand then [] else [.expectedExpression])).advance := by
  have hexpression := expression_of_some hc
  rw [code_of_awaitsOperand h, Token.isOperand_terminal]
  cases ht : t.kind.isOperand with
  | true =>
    rw [ht] at hexpression
    exact bind_of_ok (recover_of_ok hexpression)
  | false =>
    rw [ht] at hexpression
    rw [bind_of_ok (recover_of_error hexpression), ← Checker.advance_record]
    rfl

theorem recover_operand_none {next : List Goal} (h : AwaitsOperand g next)
    (hc : c.current? = none) :
    recover g.code c = pursue next (c.recordAll [.expectedExpression]) := by
  rw [code_of_awaitsOperand h]
  exact bind_of_ok (recover_of_error (expression_of_none hc))

theorem recover_parametersCode_name {t : Token} (hc : c.current? = some t)
    (ht : t.terminal = .name) : recover parametersCode c = pursue [parameterComma] c.advance := by
  have hany := (Checker.any_not_isMark hc (m := .rightParen)).mpr (by rw [ht]; exact nofun)
  have hname := (Checker.any_isName hc).mpr ht
  rw [pursue_singleton]
  apply recover_congr
  rw [parametersCode, bind_congr_run (parse_parameterList_of_any hany), bind_assoc, expectName,
    bind_of_ok (expect_of_any hname _), bind_assoc]
  rfl

theorem recover_parametersCode_end {t : Token} (hc : c.current? = some t)
    (ht : t.terminal = .mark .rightParen) :
    recover parametersCode c = pursue [blockOpen] c.advance := by
  have hany := mt (Checker.any_not_isMark hc).mp (not_not_intro ht)
  have hclose := (Checker.any_isMark hc).mpr ht
  rw [pursue_singleton]
  apply recover_congr
  rw [parametersCode, bind_of_ok (parse_parameterList_of_not_any hany)]
  exact bind_of_ok (expect_of_any hclose _)

theorem recover_parametersCode_other {t : Token} (hc : c.current? = some t)
    (hname : t.terminal ≠ .name) (hmark : t.terminal ≠ .mark .rightParen) :
    recover parametersCode c = some (.ok (), c.recordAll [.expectedParameterName]) := by
  have hany := (Checker.any_not_isMark hc).mpr hmark
  have hnone := mt (Checker.any_isName hc).mp hname
  apply recover_of_error
  rw [parametersCode, bind_congr_run (parse_parameterList_of_any hany), bind_assoc]
  exact bind_of_error (expect_of_not_any hnone _)

theorem recover_parametersCode_none (hc : c.current? = none) :
    recover parametersCode c = some (.ok (), c.recordAll [.expectedCloseParen]) := by
  apply recover_of_error
  rw [parametersCode, bind_of_ok (parse_parameterList_of_not_any (Checker.not_any_of_none hc))]
  exact bind_of_error (expect_of_not_any (Checker.not_any_of_none hc) _)

theorem code_of_awaitsParameter {t : Token} (h : AwaitsParameter t.terminal g)
    (hc : c.current? = some t) : g.code c = parametersCode c := by
  cases h with
  | parameter => rfl
  | noComma hcomma => exact bind_of_ok (accept_of_not_any (mt (Checker.any_isMark hc).mp hcomma))

theorem code_of_awaitsTerminator {t : Token} (h : AwaitsTerminator t.terminal g)
    (hc : c.current? = some t) : g.code c = expect c.policy.ends .expectedSemicolon c := by
  cases h with
  | noEqualsSign hassign =>
    have hany := mt (Checker.any_isAssign hc).mp hassign
    exact (bind_of_ok (accept_of_not_any hany)).trans (get_bind c)
  | terminator => exact get_bind c

/-- A keyword that begins a construct is the one that the construct asks for first. -/
theorem recover_keyword {t : Token} {k : Keyword} {kind : ViolationKind} {p : Production} {g : Goal}
    (hp : p.parse = (expectKeyword k kind >>= fun _ => g.code)) (hc : c.current? = some t)
    (hk : t.keyword? = some k) : recover p.parse c = pursue [g] c.advance := by
  have hany := (Checker.any_current?_iff hc (·.isKeyword k)).mpr (beq_iff_eq.mpr hk)
  rw [hp, pursue_singleton]
  exact recover_congr (bind_of_ok (expect_of_any hany kind))

theorem recover_variableDeclaration {t : Token} {k : Keyword} (hc : c.current? = some t)
    (hk : t.keyword? = some k) (hdeclares : k.declaresVariable = true) :
    recover variableDeclaration c = pursue [variableName] c.advance := by
  have hany : c.current?.any (·.keyword?.any Keyword.declaresVariable) = true := by
    rw [Checker.any_current?_iff hc, hk]
    exact hdeclares
  rw [pursue_singleton]
  exact recover_congr (bind_of_ok (expect_of_any hany _))

/-- The construct that is chosen for a token is the one that the token opens. -/
theorem recover_construct {t : Token} (hc : c.current? = some t) :
    recover (construct parse t) c =
      pursue (opening t.terminal).2 (c.recordAll (opening t.terminal).1.toList).advance := by
  by_cases hkind : t.kind = .keyword
  · rw [construct, if_pos hkind, Token.terminal_eq_keyword.mpr ⟨hkind, rfl⟩]
    cases hk : t.keyword? with
    | none => rfl
    | some k =>
      cases k with
      | kwFunction => exact recover_keyword parse_functionDeclaration hc hk
      | kwIf => exact recover_keyword parse_ifStatement hc hk
      | kwWhile => exact recover_keyword parse_whileStatement hc hk
      | kwVar | kwLet | kwConst => exact recover_variableDeclaration hc hk rfl
      | _ => rfl
  · have hword (word : Option Keyword) : t.terminal ≠ .keyword word :=
      fun h => hkind (Token.terminal_eq_keyword.mp h).1
    rw [construct, if_neg hkind, opening_of_ne_keyword hword]
    have hstatement := recover_operand .initialValue hc
    rw [code] at hstatement
    rw [hstatement]
    split <;> rfl

theorem parse_statement_eq {t : Token} (hc : c.current? = some t) :
    statement.parse c =
      pursue (opening t.terminal).2 (c.recordAll (opening t.terminal).1.toList).advance := by
  rw [parse_statement_of_some hc, recover_construct hc]

/-- A block goes on with one statement and then with the rest of it. -/
theorem recover_blockStatement {t : Token} (hc : c.current? = some t)
    (ht : t.terminal ≠ .mark .rightBrace) :
    recover blockRest.code c =
      pursue ((opening t.terminal).2 ++ [blockRest])
        (c.recordAll (opening t.terminal).1.toList).advance := by
  have hany := (Checker.any_not_isMark hc).mpr ht
  have hcode : blockRest.code c = (recover (construct parse t) >>= fun _ => blockRest.code) c := by
    rw [code, bind_congr_run (parse_blockRest_of_any hany), bind_assoc]
    exact bind_congr_run (parse_statement_of_some hc) _
  rw [recover_congr hcode, recover_recover_bind, pursue_append, pursue_singleton]
  exact bind_congr_run (recover_construct hc) _

theorem recover_blockEnd {t : Token} (hc : c.current? = some t)
    (ht : t.terminal = .mark .rightBrace) : recover blockRest.code c = pursue [] c.advance := by
  have hany := mt (Checker.any_not_isMark hc).mp (not_not_intro ht)
  have hclose := (Checker.any_isMark hc).mpr ht
  refine recover_of_ok ?_
  rw [code, bind_of_ok (parse_blockRest_of_not_any hany)]
  exact expect_of_any hclose _

theorem code_elseBody_of_if {t : Token} (hc : c.current? = some t)
    (ht : t.terminal = .word .kwIf) : elseBody.code c = ifStatement.parse c := by
  have hany := (Checker.any_isKeyword hc).mpr ht
  change elseBodyCode c = ifStatement.parse c
  rw [elseBodyCode, get_bind, if_pos hany]

theorem code_elseBody_of_not_if (hc : ∀ t ∈ c.current?, t.terminal ≠ .word .kwIf) :
    elseBody.code c = blockOpen.code c := by
  have hany : ¬c.current?.any (·.isKeyword .kwIf) = true := by
    intro hany
    obtain ⟨t, ht, hif⟩ := (Option.any_eq_true _ _).mp hany
    exact hc t ht (Token.isKeyword_iff.mp hif)
  change elseBodyCode c = block.parse c
  rw [elseBodyCode, get_bind, if_neg hany]

/-- A step: the code of a goal does with the current token what the goal does. -/
theorem recover_code_of_moves {t : Token} {m : Move} (h : Moves c.policy g t.terminal m)
    (hc : c.current? = some t) :
    recover g.code c = m.run c := by
  have hcurrent {u : Terminal} (hne : t.terminal ≠ u) : ∀ t' ∈ c.current?, t'.terminal ≠ u := by
    intro t' ht'
    rw [hc] at ht'
    cases ht'
    exact hne
  generalize hu : t.terminal = u at h
  cases h with
  | awaited h =>
    subst hu
    exact recover_awaited h hc
  | missing h hne =>
    subst hu
    exact recover_missing h (hcurrent hne)
  | operand h ht =>
    rw [recover_operand h hc, hu, ht]
    rfl
  | noOperand h ht =>
    rw [recover_operand h hc, hu, ht]
    rfl
  | parameterName h =>
    rw [recover_congr (code_of_awaitsParameter (hu ▸ h) hc)]
    exact recover_parametersCode_name hc hu
  | parametersEnd h =>
    rw [recover_congr (code_of_awaitsParameter (hu ▸ h) hc)]
    exact recover_parametersCode_end hc hu
  | noParameter h hname hmark =>
    subst hu
    rw [recover_congr (code_of_awaitsParameter h hc)]
    exact recover_parametersCode_other hc hname hmark
  | comma =>
    rw [Move.run, pursue_singleton]
    exact recover_congr (bind_of_ok (accept_of_any ((Checker.any_isMark hc).mpr hu)))
  | statementEnd h haccepts =>
    subst hu
    have hany := (Checker.any_ends hc c.policy).mpr haccepts
    refine recover_of_ok ?_
    rw [code_of_awaitsTerminator h hc, expect_of_any hany]
    rfl
  | noStatementEnd h haccepts =>
    subst hu
    have hany := mt (Checker.any_ends hc c.policy).mp (Bool.not_eq_true _ ▸ haccepts)
    refine recover_of_error ?_
    rw [code_of_awaitsTerminator h hc, expect_of_not_any hany]
  | equalsSign =>
    rw [Move.run, pursue_singleton]
    exact recover_congr (bind_of_ok (accept_of_any ((Checker.any_isAssign hc).mpr hu)))
  | blockEnd => exact recover_blockEnd hc hu
  | blockStatement hne hopening =>
    subst hu
    rw [recover_blockStatement hc hne, hopening]
    rfl
  | otherwise =>
    rw [Move.run, pursue_singleton]
    exact recover_congr (bind_of_ok (accept_of_any ((Checker.any_isKeyword hc).mpr hu)))
  | noElse hne =>
    subst hu
    have hany := mt (Checker.any_isKeyword hc).mp hne
    exact recover_of_ok (bind_of_ok (accept_of_not_any hany))
  | elseIf =>
    have hif : t.keyword? = some .kwIf := (Token.terminal_eq_keyword.mp hu).2
    rw [recover_congr (code_elseBody_of_if hc hu)]
    exact recover_keyword parse_ifStatement hc hif
  | elseBlock =>
    have hif : t.terminal ≠ .word .kwIf := by rw [hu]; exact nofun
    rw [recover_congr (code_elseBody_of_not_if (hcurrent hif))]
    have hawaits : Awaits blockOpen t.terminal [blockRest] .expectedOpenBrace := hu ▸ .blockOpen
    exact recover_awaited hawaits hc
  | noElseBody hif hbrace =>
    subst hu
    rw [recover_congr (code_elseBody_of_not_if (hcurrent hif))]
    exact recover_missing .blockOpen (hcurrent hbrace)

/-- A step at the end of the input. -/
theorem recover_code_of_none (g : Goal) (hc : c.current? = none) :
    recover g.code c = some (.ok (), c.recordAll g.atEnd) := by
  have hcurrent {u : Terminal} : ∀ t ∈ c.current?, t.terminal ≠ u := by
    intro t ht
    rw [hc] at ht
    cases ht
  have hnone {wanted : Token → Bool} : ¬c.current?.any wanted = true := Checker.not_any_of_none hc
  cases g with
  | functionName => exact recover_missing .functionName hcurrent
  | parametersOpen => exact recover_missing .parametersOpen hcurrent
  | blockOpen => exact recover_missing .blockOpen hcurrent
  | variableName => exact recover_missing .variableName hcurrent
  | conditionOpen head => exact recover_missing (.conditionOpen head) hcurrent
  | conditionClose head => exact recover_missing (.conditionClose head) hcurrent
  | parameter => exact recover_parametersCode_none hc
  | parameterComma =>
    rw [recover_congr (x := parameterComma.code) (bind_of_ok (accept_of_not_any hnone))]
    exact recover_parametersCode_none hc
  | blockRest =>
    refine recover_of_error ?_
    rw [code, bind_of_ok (parse_blockRest_of_not_any hnone)]
    exact expect_of_not_any hnone _
  | initializer =>
    refine recover_of_error ?_
    rw [code, initializerCode, bind_of_ok (accept_of_not_any hnone)]
    exact (get_bind c).trans (expect_of_not_any hnone _)
  | terminator => exact recover_of_error ((get_bind c).trans (expect_of_not_any hnone _))
  | initialValue =>
    rw [recover_operand_none .initialValue hc, pursue_singleton]
    refine recover_of_error ((get_bind _).trans ?_)
    exact expect_of_not_any (c := c.recordAll [.expectedExpression]) hnone _
  | condition head =>
    rw [recover_operand_none (.condition head) hc, pursue_singleton]
    exact recover_missing (.conditionClose head) hcurrent
  | elseClause => exact recover_of_ok (bind_of_ok (accept_of_not_any hnone))
  | elseBody =>
    rw [recover_congr (code_elseBody_of_not_if hcurrent)]
    exact recover_missing .blockOpen hcurrent

end Goal

end SyntaxAudit
