import SyntaxAudit.Grammar.Derivation
import SyntaxAudit.Proofs.Trace

/-! Programs with damage at the borders of their statements: terminators taken out and keywords
without a construct put in. Each damage is reported once, where it is, and nothing else is. -/
namespace SyntaxAudit

/-- One place of an edited text: a symbol that stays, one that was taken out, or one that was
put in. -/
inductive Edit (α : Type)
  | keep (a : α)
  | drop (a : α)
  | insert (a : α)
deriving DecidableEq

namespace Edit
variable {α β : Type}

def map (f : α → β) : Edit α → Edit β
  | keep a => keep (f a)
  | drop a => drop (f a)
  | insert a => insert (f a)

def original : List (Edit α) → List α
  | [] => []
  | keep a :: es => a :: original es
  | drop a :: es => a :: original es
  | insert _ :: es => original es

def edited : List (Edit α) → List α
  | [] => []
  | keep a :: es => a :: edited es
  | drop _ :: es => edited es
  | insert a :: es => a :: edited es

/-- One report for each edit: a missing semicolon at the symbol behind the one that was taken out,
and an unexpected keyword at the one that was put in. The edited text begins at `index`. -/
def reports (index : Nat) : List (Edit α) → List Report
  | [] => []
  | keep _ :: es => reports (index + 1) es
  | drop _ :: es => ⟨.expectedSemicolon, index⟩ :: reports index es
  | insert _ :: es => ⟨.unexpectedKeyword, index⟩ :: reports (index + 1) es

@[simp] theorem edited_append (es fs : List (Edit α)) :
    edited (es ++ fs) = edited es ++ edited fs := by
  fun_induction edited es <;> simp_all [edited]

@[simp] theorem original_append (es fs : List (Edit α)) :
    original (es ++ fs) = original es ++ original fs := by
  fun_induction original es <;> simp_all [original]

@[simp] theorem edited_map (f : α → β) (es : List (Edit α)) :
    edited (es.map (map f)) = (edited es).map f := by
  fun_induction edited es <;> simp_all [edited, map]

@[simp] theorem original_map (f : α → β) (es : List (Edit α)) :
    original (es.map (map f)) = (original es).map f := by
  fun_induction original es <;> simp_all [original, map]

@[simp] theorem edited_map_keep (text : List α) : edited (text.map keep) = text := by
  induction text with
  | nil => rfl
  | cons a text ih => rw [List.map_cons, edited, ih]

theorem reports_append (index : Nat) (es fs : List (Edit α)) :
    reports index (es ++ fs) = reports index es ++ reports (index + (edited es).length) fs := by
  fun_induction reports index es <;>
    simp_all [reports, edited, Nat.add_assoc, Nat.add_comm]

@[simp] theorem reports_map (f : α → β) (index : Nat) (es : List (Edit α)) :
    reports index (es.map (map f)) = reports index es := by
  fun_induction reports index es <;> simp_all [reports, map]

@[simp] theorem reports_map_keep (index : Nat) (text : List α) :
    reports index (text.map keep) = [] := by
  induction text generalizing index with
  | nil => rfl
  | cons a text ih => rw [List.map_cons, reports, ih]

def isTerminator (policy : TerminatorPolicy) : Edit Terminal → Bool
  | keep t => policy.accepts t
  | drop t => policy.accepts t
  | insert _ => false

/-- Whether no symbol was taken out right before a closing brace of the edited text, which goes on
with `rest`. -/
def noneBeforeBrace (rest : List Terminal) : List (Edit Terminal) → Bool
  | [] => true
  | keep _ :: es => noneBeforeBrace rest es
  | drop _ :: es => (edited es ++ rest).head? != some (.mark .rightBrace) && noneBeforeBrace rest es
  | insert _ :: es => noneBeforeBrace rest es

theorem noneBeforeBrace_append (rest : List Terminal) (es fs : List (Edit Terminal)) :
    noneBeforeBrace rest (es ++ fs) =
      (noneBeforeBrace (edited fs ++ rest) es && noneBeforeBrace rest fs) := by
  fun_induction noneBeforeBrace (edited fs ++ rest) es <;>
    simp_all [noneBeforeBrace, Bool.and_assoc]

theorem noneBeforeBrace_map_keep (rest text : List Terminal) :
    noneBeforeBrace rest (text.map keep) = true := by
  induction text with
  | nil => rfl
  | cons t text ih => exact ih

def Clear (policy : TerminatorPolicy) (rest : List Terminal) (es : List (Edit Terminal)) : Prop :=
  policy = .anyPunctuation → noneBeforeBrace rest es = true

namespace Clear
variable {policy : TerminatorPolicy} {rest : List Terminal} {es fs : List (Edit Terminal)}

theorem left (h : Clear policy rest (es ++ fs)) : Clear policy (edited fs ++ rest) es := by
  intro hp
  have hall := h hp
  rw [noneBeforeBrace_append, Bool.and_eq_true] at hall
  exact hall.1

theorem right (h : Clear policy rest (es ++ fs)) : Clear policy rest fs := by
  intro hp
  have hall := h hp
  rw [noneBeforeBrace_append, Bool.and_eq_true] at hall
  exact hall.2

end Clear

end Edit

def Terminal.isStray : Terminal → Bool
  | .keyword none => true
  | .word k => k.usage == .unsupported
  | _ => false

/-- The constructs of the grammar with damage: any terminator may be taken out, and stray keywords
may stand before, between and behind the statements of a program or block. -/
inductive Damaged (policy : TerminatorPolicy) : Phrase → List (Edit Terminal) → Prop
  | noStatements : Damaged policy .statements []
  | moreStatements {first rest : List (Edit Terminal)} :
      Damaged policy .statement first → Damaged policy .statements rest →
      Damaged policy .statements (first ++ rest)
  | strayKeyword {t : Terminal} {rest : List (Edit Terminal)} :
      t.isStray = true → Damaged policy .statements rest →
      Damaged policy .statements (.insert t :: rest)
  | expression {value : Terminal} {last : Edit Terminal} :
      value.isOperand = true → last.isTerminator policy = true →
      Damaged policy .statement [.keep value, last]
  | declaration {opener : Keyword} {last : Edit Terminal} :
      opener.declaresVariable = true → last.isTerminator policy = true →
      Damaged policy .statement [.keep (.word opener), .keep .name, last]
  | initialization {opener : Keyword} {value : Terminal} {last : Edit Terminal} :
      opener.declaresVariable = true → value.isOperand = true → last.isTerminator policy = true →
      Damaged policy .statement
        [.keep (.word opener), .keep .name, .keep .assign, .keep value, last]
  | function {names body : List (Edit Terminal)} :
      Damaged policy .parameters names → Damaged policy .block body →
      Damaged policy .statement
        (.keep (.word .kwFunction) :: .keep .name :: .keep (.mark .leftParen) ::
          (names ++ .keep (.mark .rightParen) :: body))
  | loop {value : Terminal} {body : List (Edit Terminal)} :
      value.isOperand = true → Damaged policy .block body →
      Damaged policy .statement
        (.keep (.word .kwWhile) :: .keep (.mark .leftParen) :: .keep value ::
          .keep (.mark .rightParen) :: body)
  | choice {text : List (Edit Terminal)} :
      Damaged policy .conditional text → Damaged policy .statement text
  | ifOnly {value : Terminal} {body : List (Edit Terminal)} :
      value.isOperand = true → Damaged policy .block body →
      Damaged policy .conditional
        (.keep (.word .kwIf) :: .keep (.mark .leftParen) :: .keep value ::
          .keep (.mark .rightParen) :: body)
  | ifElse {value : Terminal} {body other : List (Edit Terminal)} :
      value.isOperand = true → Damaged policy .block body → Damaged policy .block other →
      Damaged policy .conditional
        (.keep (.word .kwIf) :: .keep (.mark .leftParen) :: .keep value ::
          .keep (.mark .rightParen) :: (body ++ .keep (.word .kwElse) :: other))
  | ifElseIf {value : Terminal} {body other : List (Edit Terminal)} :
      value.isOperand = true → Damaged policy .block body → Damaged policy .conditional other →
      Damaged policy .conditional
        (.keep (.word .kwIf) :: .keep (.mark .leftParen) :: .keep value ::
          .keep (.mark .rightParen) :: (body ++ .keep (.word .kwElse) :: other))
  | braces {body : List (Edit Terminal)} :
      Damaged policy .statements body →
      Damaged policy .block
        (.keep (.mark .leftBrace) :: (body ++ [.keep (.mark .rightBrace)]))
  | noParameters : Damaged policy .parameters []
  | parameter {rest : List (Edit Terminal)} :
      Damaged policy .parameters rest → Damaged policy .parameters (.keep .name :: rest)
  | parameterComma {rest : List (Edit Terminal)} :
      Damaged policy .parameters rest →
      Damaged policy .parameters (.keep .name :: .keep (.mark .comma) :: rest)

namespace Damaged
open Edit
variable {policy : TerminatorPolicy} {phrase : Phrase} {es : List (Edit Terminal)}

private theorem original_last {last : Edit Terminal} (h : last.isTerminator policy = true) :
    ∃ t, policy.accepts t = true ∧ original [last] = [t] := by
  cases last with
  | keep t => exact ⟨t, h, rfl⟩
  | drop t => exact ⟨t, h, rfl⟩
  | insert t => simp [isTerminator] at h

/-- Without its damage a construct is one of the grammar. -/
theorem derives_original (h : Damaged policy phrase es) : Derives policy phrase (original es) := by
  induction h with
  | noStatements => exact .noStatements
  | moreStatements _ _ ihf ihr =>
    rw [original_append]
    exact .moreStatements ihf ihr
  | strayKeyword _ _ ih => exact ih
  | expression hv hl =>
    obtain ⟨t, ht, he⟩ := original_last hl
    rw [original, he]
    exact .expression hv ht
  | declaration ho hl =>
    obtain ⟨t, ht, he⟩ := original_last hl
    rw [original, original, he]
    exact .declaration ho ht
  | initialization ho hv hl =>
    obtain ⟨t, ht, he⟩ := original_last hl
    rw [original, original, original, original, he]
    exact .initialization ho hv ht
  | function _ _ ihn ihb =>
    simpa only [original, original_append] using Derives.function ihn ihb
  | loop hv _ ihb => exact .loop hv ihb
  | choice _ ih => exact .choice ih
  | ifOnly hv _ ihb => exact .ifOnly hv ihb
  | ifElse hv _ _ ihb iho =>
    simpa only [original, original_append] using Derives.ifElse hv ihb iho
  | ifElseIf hv _ _ ihb iho =>
    simpa only [original, original_append] using Derives.ifElseIf hv ihb iho
  | braces _ ih => simpa only [original, original_append] using Derives.braces ih
  | noParameters => exact .noParameters
  | parameter _ ih => exact .parameter ih
  | parameterComma _ ih => exact .parameterComma ih

private theorem ne_operand {t : Terminal} (h : t.isOperand = true) : Terminal.other ≠ t := by
  rintro rfl
  simp [Terminal.isOperand] at h

private theorem notMem_last {last : Edit Terminal} (h : last.isTerminator policy = true) :
    Terminal.other ∉ edited [last] := by
  have ho : policy.accepts .other = false := by cases policy <;> rfl
  cases last with
  | keep t =>
    rintro hm
    rw [edited, edited, List.mem_singleton] at hm
    rw [isTerminator, ← hm, ho] at h
    contradiction
  | drop t => simp [edited]
  | insert t => simp [isTerminator] at h

/-- What is left of a damaged construct consists of terminals that the grammar names. -/
theorem other_notMem (h : Damaged policy phrase es) : Terminal.other ∉ edited es := by
  induction h with
  | strayKeyword ht _ ih =>
    rintro hm
    rcases List.mem_cons.mp hm with rfl | hm
    · simp [Terminal.isStray] at ht
    · exact ih hm
  | expression hv hl => simpa [edited, ne_operand hv] using notMem_last hl
  | declaration _ hl => simpa [edited] using notMem_last hl
  | initialization _ hv hl => simpa [edited, ne_operand hv] using notMem_last hl
  | loop hv _ ihb => simp [edited, ne_operand hv, ihb]
  | ifOnly hv _ ihb => simp [edited, ne_operand hv, ihb]
  | ifElse hv _ _ ihb iho => simp [edited, ne_operand hv, ihb, iho]
  | ifElseIf hv _ _ ihb iho => simp [edited, ne_operand hv, ihb, iho]
  | _ => simp_all [edited]

end Damaged

/-- Edits of a text that put nothing in and take only semicolons out, and these only under the
policy for which each semicolon ends a statement. -/
inductive Edit.Drops (policy : TerminatorPolicy) : List Terminal → List (Edit Terminal) → Prop
  | nil : Drops policy [] []
  | keep {t : Terminal} {text : List Terminal} {es : List (Edit Terminal)} :
      Drops policy text es → Drops policy (t :: text) (.keep t :: es)
  | drop {text : List Terminal} {es : List (Edit Terminal)} :
      policy = .semicolonOnly → Drops policy text es →
      Drops policy (.mark .semicolon :: text) (.drop (.mark .semicolon) :: es)

namespace Edit.Drops
variable {policy : TerminatorPolicy} {text text' : List Terminal} {es : List (Edit Terminal)}
  {t : Terminal}

theorem none (policy : TerminatorPolicy) (text : List Terminal) :
    Drops policy text (text.map .keep) := by
  induction text with
  | nil => exact .nil
  | cons t text ih => exact .keep ih

theorem append_inv (h : Drops policy (text ++ text') es) :
    ∃ fs gs, es = fs ++ gs ∧ Drops policy text fs ∧ Drops policy text' gs := by
  induction text generalizing es with
  | nil => exact ⟨[], es, rfl, .nil, h⟩
  | cons t text ih =>
    cases h with
    | keep h =>
      obtain ⟨fs, gs, rfl, hf, hg⟩ := ih h
      exact ⟨_, gs, rfl, .keep hf, hg⟩
    | drop hp h =>
      obtain ⟨fs, gs, rfl, hf, hg⟩ := ih h
      exact ⟨_, gs, rfl, .drop hp hf, hg⟩

theorem cons_inv (h : Drops policy (t :: text) es) (ht : t ≠ .mark .semicolon) :
    ∃ fs, es = .keep t :: fs ∧ Drops policy text fs := by
  cases h with
  | keep h => exact ⟨_, rfl, h⟩
  | drop => exact absurd rfl ht

theorem operand_inv (h : Drops policy (t :: text) es) (ht : t.isOperand = true) :
    ∃ fs, es = .keep t :: fs ∧ Drops policy text fs := by
  apply h.cons_inv
  rintro rfl
  simp [Terminal.isOperand] at ht

theorem header_inv {k : Keyword} (ht : t.isOperand = true) (h : Drops policy
    (.word k :: .mark .leftParen :: t :: .mark .rightParen :: text) es) :
    ∃ fs, es = .keep (.word k) :: .keep (.mark .leftParen) :: .keep t ::
      .keep (.mark .rightParen) :: fs ∧ Drops policy text fs := by
  obtain ⟨_, rfl, h₁⟩ := h.cons_inv (by simp)
  obtain ⟨_, rfl, h₂⟩ := h₁.cons_inv (by simp)
  obtain ⟨_, rfl, h₃⟩ := h₂.operand_inv ht
  obtain ⟨fs, rfl, h₄⟩ := h₃.cons_inv (by simp)
  exact ⟨fs, rfl, h₄⟩

theorem last_inv (h : Drops policy [t] es) (ht : policy.accepts t = true) :
    ∃ last, es = [last] ∧ last.isTerminator policy = true := by
  cases h with
  | keep h =>
    cases h
    exact ⟨_, rfl, ht⟩
  | drop _ h =>
    cases h
    exact ⟨_, rfl, ht⟩

end Edit.Drops

/-- In a construct of the grammar any of the semicolons may be taken out. -/
theorem Derives.damaged {policy : TerminatorPolicy} {phrase : Phrase} {text : List Terminal}
    {es : List (Edit Terminal)} (h : Derives policy phrase text) (hd : Edit.Drops policy text es) :
    Damaged policy phrase es := by
  induction h generalizing es with
  | noStatements =>
    cases hd
    exact .noStatements
  | moreStatements _ _ ihf ihr =>
    obtain ⟨first, rest, rfl, hf, hr⟩ := hd.append_inv
    exact .moreStatements (ihf hf) (ihr hr)
  | expression hv hl =>
    obtain ⟨_, rfl, hlast⟩ := hd.operand_inv hv
    obtain ⟨last, rfl, hl⟩ := hlast.last_inv hl
    exact .expression hv hl
  | declaration ho hl =>
    obtain ⟨_, rfl, hname⟩ := hd.cons_inv (by simp)
    obtain ⟨_, rfl, hlast⟩ := hname.cons_inv (by simp)
    obtain ⟨last, rfl, hl⟩ := hlast.last_inv hl
    exact .declaration ho hl
  | initialization ho hv hl =>
    obtain ⟨_, rfl, hname⟩ := hd.cons_inv (by simp)
    obtain ⟨_, rfl, hassign⟩ := hname.cons_inv (by simp)
    obtain ⟨_, rfl, hvalue⟩ := hassign.cons_inv (by simp)
    obtain ⟨_, rfl, hlast⟩ := hvalue.operand_inv hv
    obtain ⟨last, rfl, hl⟩ := hlast.last_inv hl
    exact .initialization ho hv hl
  | function _ _ ihn ihb =>
    obtain ⟨_, rfl, hname⟩ := hd.cons_inv (by simp)
    obtain ⟨_, rfl, hopen⟩ := hname.cons_inv (by simp)
    obtain ⟨_, rfl, hrest⟩ := hopen.cons_inv (by simp)
    obtain ⟨names, _, rfl, hn, hclose⟩ := hrest.append_inv
    obtain ⟨_, rfl, hb⟩ := hclose.cons_inv (by simp)
    exact .function (ihn hn) (ihb hb)
  | loop hv _ ihb =>
    obtain ⟨_, rfl, hb⟩ := hd.header_inv hv
    exact .loop hv (ihb hb)
  | choice _ ih => exact .choice (ih hd)
  | ifOnly hv _ ihb =>
    obtain ⟨_, rfl, hb⟩ := hd.header_inv hv
    exact .ifOnly hv (ihb hb)
  | ifElse hv _ _ ihb iho =>
    obtain ⟨_, rfl, hrest⟩ := hd.header_inv hv
    obtain ⟨body, _, rfl, hb, helse⟩ := hrest.append_inv
    obtain ⟨_, rfl, ho⟩ := helse.cons_inv (by simp)
    exact .ifElse hv (ihb hb) (iho ho)
  | ifElseIf hv _ _ ihb iho =>
    obtain ⟨_, rfl, hrest⟩ := hd.header_inv hv
    obtain ⟨body, _, rfl, hb, helse⟩ := hrest.append_inv
    obtain ⟨_, rfl, ho⟩ := helse.cons_inv (by simp)
    exact .ifElseIf hv (ihb hb) (iho ho)
  | braces _ ih =>
    obtain ⟨_, rfl, hrest⟩ := hd.cons_inv (by simp)
    obtain ⟨body, _, rfl, hb, hclose⟩ := hrest.append_inv
    obtain ⟨_, rfl, hnil⟩ := hclose.cons_inv (by simp)
    cases hnil
    exact .braces (ih hb)
  | noParameters =>
    cases hd
    exact .noParameters
  | parameter _ ih =>
    obtain ⟨_, rfl, hrest⟩ := hd.cons_inv (by simp)
    exact .parameter (ih hrest)
  | parameterComma _ ih =>
    obtain ⟨_, rfl, hcomma⟩ := hd.cons_inv (by simp)
    obtain ⟨_, rfl, hrest⟩ := hcomma.cons_inv (by simp)
    exact .parameterComma (ih hrest)

end SyntaxAudit
