import SyntaxAudit.Proofs.JsonReading
import SyntaxAudit.Report.Structured

/-! JSON reports lose nothing: the file, the count and the findings of a check can be told from the
text of its report, and the file and the lexical errors of a scan from theirs. -/
namespace SyntaxAudit

theorem Document.finding_inj {position position' : Position} {message message' code code' : String}
    (h : finding position message code = finding position' message' code') :
    position = position' ∧ message = message' := by
  obtain ⟨line, column⟩ := position
  obtain ⟨line', column'⟩ := position'
  simp only [finding, record.injEq, List.cons.injEq, Prod.mk.injEq, text.injEq, number.injEq,
    true_and, and_true] at h
  obtain ⟨-, rfl, rfl, hmessage⟩ := h
  exact ⟨rfl, hmessage⟩

/-- A kind has a message of its own, so that its code is not needed. -/
theorem Violation.finding_injective :
    Function.Injective fun v : Violation =>
      Document.finding v.position v.kind.message v.kind.code := by
  rintro ⟨kind, position⟩ ⟨kind', position'⟩ h
  obtain ⟨rfl, hmessage⟩ := Document.finding_inj h
  obtain rfl := ViolationKind.message_injective hmessage
  rfl

/-- The message of a lexical error repeats its place and names the unexpected character. -/
theorem LexError.finding_injective :
    Function.Injective fun e : LexError =>
      Document.finding e.position e.message e.cause.code := by
  intro e e' h
  have hmessage := (Document.finding_inj h).2
  exact selfDelimiting_message.injective (congrArg String.toList hmessage)

theorem Outcome.document_inj {file file' : String} {o o' : Outcome} :
    o.document file = o'.document file' ↔
      file = file' ∧ o.errorCount = o'.errorCount ∧ o.violations = o'.violations := by
  have hfindings := @List.map_inj_right _ _ o.violations o'.violations _
    fun _ _ h => Violation.finding_injective h
  simp only [document, Document.record.injEq, List.cons.injEq, Prod.mk.injEq,
    Document.number.injEq, Document.list.injEq, Document.text.injEq, true_and, and_true, hfindings]
  exact ⟨fun ⟨hcount, hsame, hfile⟩ => ⟨hfile, hcount, hsame⟩,
    fun ⟨hfile, hcount, hsame⟩ => ⟨hcount, hsame, hfile⟩⟩

theorem LexError.document_inj {file file' : String} {errors errors' : List LexError} :
    document file errors = document file' errors' ↔ file = file' ∧ errors = errors' := by
  have hfindings := @List.map_inj_right _ _ errors errors' _
    fun _ _ h => LexError.finding_injective h
  simp only [document, Document.record.injEq, List.cons.injEq, Prod.mk.injEq,
    Document.list.injEq, Document.text.injEq, true_and, and_true, hfindings]

/-- Two checks have the same JSON report exactly if their files have the same name and they counted
and found the same violations at the same places in the same order. Two scans have the same JSON
report exactly if their files have the same name and they found the same lexical errors. No check
has the report of a scan. -/
theorem json_reports_lossless :
    (∀ (f₁ f₂ : String) (o₁ o₂ : Outcome),
      (o₁.document f₁).render = (o₂.document f₂).render ↔
        f₁ = f₂ ∧ o₁.errorCount = o₂.errorCount ∧ o₁.violations = o₂.violations) ∧
    (∀ (f₁ f₂ : String) (e₁ e₂ : List LexError),
      (LexError.document f₁ e₁).render = (LexError.document f₂ e₂).render ↔ f₁ = f₂ ∧ e₁ = e₂) ∧
    ∀ (f₁ f₂ : String) (o : Outcome) (e : List LexError),
      (o.document f₁).render ≠ (LexError.document f₂ e).render := by
  refine ⟨fun f₁ f₂ o₁ o₂ => ?_, fun f₁ f₂ e₁ e₂ => ?_, fun f₁ f₂ o e h => ?_⟩
  · rw [Json.render_injective.eq_iff, Outcome.document_inj]
  · rw [Json.render_injective.eq_iff, LexError.document_inj]
  · -- the records have different numbers of fields
    have hfields : 3 = 2 :=
      congrArg List.length (Document.record.inj (Json.render_injective h))
    exact absurd hfields (by decide)

end SyntaxAudit
