import SyntaxAudit.Proofs.Endings
import SyntaxAudit.Proofs.SelfDelimiting

/-! Plain reports lose nothing: the violations of a check can be told from its report, one from each
line, and the lexical errors of a scan from theirs, whatever the file is called. -/
namespace SyntaxAudit

namespace Text

def lines : List Char → List (List Char)
  | [] => []
  | c :: cs =>
    if c = '\n' then [] :: lines cs
    else match lines cs with
      | [] => [[c]]
      | line :: others => (c :: line) :: others

theorem lines_append {line : List Char} (h : '\n' ∉ line) (rest : List Char) :
    lines (line ++ '\n' :: rest) = line :: lines rest := by
  induction line with
  | nil => simp [lines]
  | cons c line ih =>
    obtain ⟨hc, hline⟩ : '\n' ≠ c ∧ '\n' ∉ line := by simpa using h
    rw [List.cons_append, lines, if_neg hc.symm, ih hline]

/-- Texts without line feeds that are each ended by one are the lines. -/
theorem lines_flatMap {α : Type} {write : α → List Char} {xs : List α}
    (h : ∀ x ∈ xs, '\n' ∉ write x) :
    lines (xs.flatMap fun x => write x ++ ['\n']) = xs.map write := by
  induction xs with
  | nil => rfl
  | cons x xs ih =>
    obtain ⟨hx, hxs⟩ := List.forall_mem_cons.mp h
    rw [List.flatMap_cons, List.append_assoc, List.singleton_append, lines_append hx, ih hxs,
      List.map_cons]

end Text

theorem Violation.lineFeed_notMem_message (v : Violation) : '\n' ∉ v.message.toList := by
  have hdigits (n : Nat) : '\n' ∉ Nat.toDigits 10 n := fun h =>
    absurd (Nat.isDigit_of_mem_toDigits (by decide) (by decide) h) (by decide)
  have hkind : '\n' ∉ v.kind.message.toList := fun h =>
    absurd (v.kind.lineFeed_notMem_message _ h) (by decide)
  rw [Violation.toList_message, Position.clause]
  simp [hdigits, hkind]

namespace Outcome

theorem toList_plainText (o : Outcome) :
    o.plainText.toList = o.violations.flatMap fun v => v.message.toList ++ ['\n'] := by
  simp [plainText, String.toList_join, List.flatMap_map]

theorem lines_plainText (o : Outcome) :
    Text.lines o.plainText.toList = o.violations.map fun v => v.message.toList := by
  rw [toList_plainText, Text.lines_flatMap fun v _ => v.lineFeed_notMem_message]

theorem plainText_inj {o₁ o₂ : Outcome} :
    o₁.plainText = o₂.plainText ↔ o₁.violations = o₂.violations := by
  constructor
  · intro h
    have hchars := String.toList_inj.mpr h
    rw [toList_plainText, toList_plainText] at hchars
    exact Violation.selfDelimiting_line.flatMap_injective (by simp) hchars
  · intro h
    rw [plainText, plainText, h]

end Outcome

namespace LexError

theorem lines_injective (file : String) : Function.Injective (lines file) := by
  have hline : SelfDelimiting fun e : LexError => (file ++ ": " ++ e.message ++ "\n").toList := by
    have hparts := (selfDelimiting_message.close "\n".toList).prepend (file ++ ": ").toList
    simpa only [String.toList_append, List.append_assoc] using hparts
  exact hline.join_injective (by simp)

theorem plainText_eq_empty_iff {file : String} {errors : List LexError} :
    plainText file errors = "" ↔ errors = [] := by
  constructor
  · intro h
    apply Decidable.byContradiction
    intro hne
    exact (trimmed_plainText file hne).ne_empty h
  · rintro rfl
    exact String.intercalate_nil

/-- The file may be called anything, for its name is the same in both reports. -/
theorem plainText_inj {file : String} {e₁ e₂ : List LexError} :
    plainText file e₁ = plainText file e₂ ↔ e₁ = e₂ := by
  constructor
  · intro h
    by_cases h₁ : e₁ = []
    · rw [h₁, plainText_eq_empty_iff.mpr rfl] at h
      rw [h₁, plainText_eq_empty_iff.mp h.symm]
    · have h₂ : e₂ ≠ [] := fun hnil =>
        h₁ (plainText_eq_empty_iff.mp (h.trans (plainText_eq_empty_iff.mpr hnil)))
      apply lines_injective file
      rw [← plainText_lineFeed file h₁, ← plainText_lineFeed file h₂, h]
  · rintro rfl
    rfl

end LexError

/-- Two checks have the same plain report exactly if they found the same violations at the same
places in the same order, and the report has one line for each of them. Two scans of files of the
same name have the same plain report exactly if they found the same lexical errors. -/
theorem plain_reports_lossless :
    (∀ o₁ o₂ : Outcome, o₁.plainText = o₂.plainText ↔ o₁.violations = o₂.violations) ∧
    (∀ o : Outcome, Text.lines o.plainText.toList = o.violations.map fun v => v.message.toList) ∧
    ∀ (file : String) (e₁ e₂ : List LexError),
      LexError.plainText file e₁ = LexError.plainText file e₂ ↔ e₁ = e₂ :=
  ⟨fun _ _ => Outcome.plainText_inj, Outcome.lines_plainText, fun _ _ _ => LexError.plainText_inj⟩

end SyntaxAudit
