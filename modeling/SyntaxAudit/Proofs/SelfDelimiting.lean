import SyntaxAudit.LexError
import SyntaxAudit.Proofs.Spelling
import SyntaxAudit.Violation

/-! Writings that end themselves: whatever stands behind them, one can tell what is written and
where it ends. So are escaped characters, places, and the messages of lexical errors and of
violations, the latter with the line feed that ends them. -/
namespace SyntaxAudit

/-- Two texts that begin with a writing begin with the same one and go on alike behind it. -/
def SelfDelimiting {α : Type} (write : α → List Char) : Prop :=
  ∀ a b r s, write a ++ r = write b ++ s → a = b ∧ r = s

namespace SelfDelimiting
variable {α β : Type} {f : α → List Char} {g : β → List Char}

theorem injective (h : SelfDelimiting f) : Function.Injective f := by
  intro a b he
  exact (h a b [] [] (congrArg (· ++ []) he)).1

theorem prepend (h : SelfDelimiting f) (before : List Char) :
    SelfDelimiting fun a => before ++ f a := by
  intro a b r s he
  rw [List.append_assoc, List.append_assoc] at he
  exact h a b r s (List.append_cancel_left he)

theorem close (h : SelfDelimiting f) (behind : List Char) :
    SelfDelimiting fun a => f a ++ behind := by
  intro a b r s he
  rw [List.append_assoc, List.append_assoc] at he
  obtain ⟨rfl, hrest⟩ := h _ _ _ _ he
  exact ⟨rfl, List.append_cancel_left hrest⟩

theorem append (hf : SelfDelimiting f) (hg : SelfDelimiting g) :
    SelfDelimiting fun x : α × β => f x.1 ++ g x.2 := by
  rintro ⟨a, b⟩ ⟨a', b'⟩ r s he
  rw [List.append_assoc, List.append_assoc] at he
  obtain ⟨rfl, hbehind⟩ := hf _ _ _ _ he
  obtain ⟨rfl, hrest⟩ := hg _ _ _ _ hbehind
  exact ⟨rfl, hrest⟩

theorem comap (h : SelfDelimiting f) {e : β → α} (he : Function.Injective e) :
    SelfDelimiting fun b => f (e b) := by
  intro a b r s heq
  obtain ⟨hab, hrest⟩ := h _ _ _ _ heq
  exact ⟨he hab, hrest⟩

/-- Writings one behind the other can be taken apart again, from the first one on. -/
theorem flatMap_injective (h : SelfDelimiting f) (hne : ∀ a, f a ≠ []) :
    Function.Injective fun xs : List α => xs.flatMap f := by
  intro xs ys he
  induction xs generalizing ys with
  | nil =>
    cases ys with
    | nil => rfl
    | cons y ys => exact absurd (List.append_eq_nil_iff.mp he.symm).1 (hne y)
  | cons x xs ih =>
    cases ys with
    | nil => exact absurd (List.append_eq_nil_iff.mp he).1 (hne x)
    | cons y ys =>
      obtain ⟨rfl, hrest⟩ := h _ _ _ _ he
      rw [ih hrest]

theorem join_injective {write : α → String} (h : SelfDelimiting fun a => (write a).toList)
    (hne : ∀ a, write a ≠ "") :
    Function.Injective fun xs : List α => String.join (xs.map write) := by
  intro xs ys he
  have hchars := String.toList_inj.mpr he
  rw [String.toList_join, String.toList_join, List.flatMap_map, List.flatMap_map] at hchars
  exact h.flatMap_injective (fun a => mt String.toList_eq_nil_iff.mp (hne a)) hchars

end SelfDelimiting

/-- A stretch of characters of a class and what goes on with another one can be told apart. -/
theorem append_inj_of_stops {p : Char → Bool} {t t' r s : List Char} (h : t ++ r = t' ++ s)
    (ht : ∀ c ∈ t, p c = true) (ht' : ∀ c ∈ t', p c = true)
    (hr : ∀ b ∈ r.head?, p b = false) (hs : ∀ b ∈ s.head?, p b = false) : t = t' ∧ r = s := by
  obtain ⟨htake, hdrop⟩ := Lexeme.span_append ht hr
  obtain ⟨htake', hdrop'⟩ := Lexeme.span_append ht' hs
  rw [h] at htake hdrop
  exact ⟨htake.symm.trans htake', hdrop.symm.trans hdrop'⟩

/-- Texts of their own end themselves if a character that none of them has stands behind each. -/
theorem SelfDelimiting.of_stops {α : Type} {write : α → List Char} {p : Char → Bool}
    (hinj : Function.Injective write) (hwrite : ∀ a, ∀ c ∈ write a, p c = true) {stop : Char}
    (hstop : p stop = false) (behind : List Char) :
    SelfDelimiting fun a => write a ++ stop :: behind := by
  intro a b r s h
  simp only [List.append_assoc, List.cons_append] at h
  have hhead (rest : List Char) : ∀ c ∈ (stop :: rest).head?, p c = false := by
    rintro c ⟨⟩
    exact hstop
  obtain ⟨hab, hrest⟩ := append_inj_of_stops h (hwrite a) (hwrite b) (hhead _) (hhead _)
  exact ⟨hinj hab, List.append_cancel_left (List.cons.inj hrest).2⟩

/-- Values that can be looked up by their names have names of their own. -/
theorem injective_of_find? {α : Type} {name : α → String} (all : List α)
    (h : ∀ a, all.find? (name · == name a) = some a) : Function.Injective name := by
  intro a b he
  have ha := h a
  rw [he, h b] at ha
  exact (Option.some.inj ha).symm

/-- In a table of escapes in which no letter stands twice, a letter is that of one character, and
none is the sign of a code point. -/
theorem letter_of_escapes {table : List (Char × Char)}
    (hall : (table.all fun e =>
      e.2 != 'u' && table.all fun e' => e.2 != e'.2 || e.1 == e'.1) = true)
    {c letter : Char} (h : (c, letter) ∈ table) :
    letter ≠ 'u' ∧ ∀ d, (d, letter) ∈ table → c = d := by
  have hc := List.all_eq_true.mp hall _ h
  simp only [Bool.and_eq_true, bne_iff_ne, List.all_eq_true, Bool.or_eq_true, beq_iff_eq] at hc
  exact ⟨hc.1, fun d hd => (hc.2 _ hd).resolve_left fun hne => hne rfl⟩

section Digits

theorem digitChar_injective {n m : Nat} (hn : n < 16) (hm : m < 16)
    (h : n.digitChar = m.digitChar) : n = m := by
  have hall : ∀ i < 16, ∀ j < 16, Nat.digitChar i = Nat.digitChar j → i = j := by decide
  exact hall n hn m hm h

/-- No two numbers have the same digits, in any base that has digits enough. -/
theorem toDigits_injective {b : Nat} (hb : 1 < b) (hb' : b ≤ 16) :
    Function.Injective (Nat.toDigits b) := by
  intro n m h
  induction n using Nat.strongRecOn generalizing m with
  | ind n ih =>
    rw [Nat.toDigits_eq_if hb, @Nat.toDigits_eq_if b m hb] at h
    split at h <;> split at h
    · exact digitChar_injective (by omega) (by omega) (List.singleton_inj.mp h)
    · exact absurd (List.append_eq_singleton_iff.mp h.symm) (by simp)
    · exact absurd (List.append_eq_singleton_iff.mp h) (by simp)
    · rename_i hn hm
      obtain ⟨hfirst, hlast⟩ := List.append_inj' h rfl
      have hmod : n % b < b ∧ m % b < b := ⟨Nat.mod_lt _ (by omega), Nat.mod_lt _ (by omega)⟩
      have hdigit := digitChar_injective (by omega) (by omega) (List.singleton_inj.mp hlast)
      have hrest := ih (n / b) (Nat.div_lt_self (by omega) hb) hfirst
      rw [← Nat.div_add_mod n b, ← Nat.div_add_mod m b, hrest, hdigit]

theorem exists_digit_of_mem {b n : Nat} (hb : 1 < b) {c : Char} (h : c ∈ Nat.toDigits b n) :
    ∃ d : Nat, c = d.digitChar := by
  induction n using Nat.strongRecOn with
  | ind n ih =>
    rw [Nat.toDigits_eq_if hb] at h
    split at h
    · exact ⟨n, List.mem_singleton.mp h⟩
    · rcases List.mem_append.mp h with h | h
      · exact ih (n / b) (Nat.div_lt_self (by omega) hb) h
      · exact ⟨n % b, List.mem_singleton.mp h⟩

/-- A number in front of what is no digit. -/
theorem repr_append_inj {n m : Nat} {r s : List Char}
    (h : n.repr.toList ++ r = m.repr.toList ++ s) (hr : ∀ b ∈ r.head?, b.isDigit = false)
    (hs : ∀ b ∈ s.head?, b.isDigit = false) : n = m ∧ r = s := by
  have hdigits (k : Nat) : ∀ c ∈ k.repr.toList, c.isDigit = true := by
    intro c hc
    rw [Nat.toList_repr] at hc
    exact Nat.isDigit_of_mem_toDigits (by decide) (by decide) hc
  obtain ⟨hnm, hrest⟩ := append_inj_of_stops h (hdigits n) (hdigits m) hr hs
  rw [Nat.toList_repr, Nat.toList_repr] at hnm
  exact ⟨toDigits_injective (by decide) (by decide) hnm, hrest⟩

end Digits

namespace Text

/-- How a character is shown: by a letter of its own, by its code point, or as it is. -/
theorem escaped_cases (c : Char) :
    (∃ letter, (c, letter) ∈ shortEscapes ∧ escaped c = ['\\', letter]) ∨
    escaped c = '\\' :: 'u' :: '\x7b' :: (hexDigits c ++ ['\x7d']) ∨
    c ≠ '\\' ∧ escaped c = [c] := by
  unfold escaped
  split
  · rename_i letter h
    obtain ⟨before, behind, hsplit, -⟩ := List.lookup_eq_some_iff.mp h
    exact .inl ⟨letter, by simp [hsplit], rfl⟩
  · rename_i h
    split
    · exact .inr (.inl rfl)
    · refine .inr (.inr ⟨?_, rfl⟩)
      rintro rfl
      cases h

/-- A code point goes up to the closing brace. -/
theorem selfDelimiting_hexDigits : SelfDelimiting fun c => hexDigits c ++ ['\x7d'] := by
  have hbrace (c : Char) : ∀ x ∈ hexDigits c, (x != '\x7d') = true := by
    intro x hx
    obtain ⟨n, rfl⟩ := exists_digit_of_mem (by decide) hx
    exact bne_iff_ne.mpr (Nat.digitChar_ne '\x7d' (by decide))
  have hinj : Function.Injective hexDigits := by
    intro c d h
    exact Char.toNat_inj.mp (toDigits_injective (by decide) (by decide) h)
  exact .of_stops hinj hbrace rfl []

theorem selfDelimiting_escaped : SelfDelimiting escaped := by
  have hletter {c letter : Char} (h : (c, letter) ∈ shortEscapes) := letter_of_escapes (by decide) h
  intro c d r s h
  rcases escaped_cases c with ⟨letter, hl, he⟩ | he | ⟨hc, he⟩ <;>
    rcases escaped_cases d with ⟨letter', hl', he'⟩ | he' | ⟨hd, he'⟩ <;>
    rw [he, he'] at h
  · obtain ⟨rfl, hrest⟩ := List.cons.inj (List.cons.inj h).2
    exact ⟨(hletter hl).2 d hl', hrest⟩
  · exact absurd (List.cons.inj (List.cons.inj h).2).1 (hletter hl).1
  · exact absurd (List.cons.inj h).1.symm hd
  · exact absurd (List.cons.inj (List.cons.inj h).2).1.symm (hletter hl').1
  · simp only [List.cons_append, List.cons.injEq, true_and] at h
    exact selfDelimiting_hexDigits c d r s h
  · exact absurd (List.cons.inj h).1.symm hd
  · exact absurd (List.cons.inj h).1 hc
  · exact absurd (List.cons.inj h).1 hc
  · exact List.cons.inj h

theorem selfDelimiting_quoted : SelfDelimiting fun c => (quoted c).toList := by
  intro c d r s h
  simp only [quoted, String.toList_ofList, List.cons_append, List.cons.injEq, true_and,
    List.append_assoc] at h
  obtain ⟨rfl, hrest⟩ := selfDelimiting_escaped c d _ _ h
  exact ⟨rfl, (List.cons.inj hrest).2⟩

end Text

def Position.clause (p : Position) : List Char :=
  p.line.repr.toList ++ (", column ".toList ++ (p.column.repr.toList ++ ": ".toList))

theorem Position.selfDelimiting_clause : SelfDelimiting Position.clause := by
  rintro ⟨line, column⟩ ⟨line', column'⟩ r s h
  simp only [clause, List.append_assoc] at h
  have hcomma (rest : List Char) : ∀ b ∈ (", column ".toList ++ rest).head?, b.isDigit = false := by
    rintro b ⟨⟩
    rfl
  have hcolon (rest : List Char) : ∀ b ∈ (": ".toList ++ rest).head?, b.isDigit = false := by
    rintro b ⟨⟩
    rfl
  obtain ⟨rfl, hbehind⟩ := repr_append_inj h (hcomma _) (hcomma _)
  obtain ⟨rfl, hrest⟩ :=
    repr_append_inj (List.append_cancel_left hbehind) (hcolon _) (hcolon _)
  exact ⟨rfl, List.append_cancel_left hrest⟩

namespace LexError

theorem Cause.selfDelimiting_description :
    SelfDelimiting fun c : Cause => c.description.toList := by
  have hnamed (c : Char) : (unexpectedCharacter c).description.toList =
      "unexpected character ".toList ++ (Text.quoted c).toList := String.toList_append
  have hstring : unterminatedString.description.toList = "unterminated string literal".toList := rfl
  have hcomment :
      unterminatedComment.description.toList = "unterminated block comment".toList := rfl
  intro a b r s h
  cases a with
  | unexpectedCharacter c =>
    cases b with
    | unexpectedCharacter d =>
      simp only [hnamed, List.append_assoc] at h
      obtain ⟨rfl, hrest⟩ := Text.selfDelimiting_quoted _ _ _ _ (List.append_cancel_left h)
      exact ⟨rfl, hrest⟩
    | unterminatedString => simp [hnamed, hstring] at h
    | unterminatedComment => simp [hnamed, hcomment] at h
  | unterminatedString =>
    cases b with
    | unexpectedCharacter d => simp [hnamed, hstring] at h
    | unterminatedString => exact ⟨rfl, List.append_cancel_left h⟩
    | unterminatedComment => simp [hstring, hcomment] at h
  | unterminatedComment =>
    cases b with
    | unexpectedCharacter d => simp [hnamed, hcomment] at h
    | unterminatedString => simp [hstring, hcomment] at h
    | unterminatedComment => exact ⟨rfl, List.append_cancel_left h⟩

/-- The message of an error is the place and then the cause. -/
theorem toList_message (e : LexError) :
    e.message.toList =
      "Lexical Error at line ".toList ++ (e.position.clause ++ e.cause.description.toList) := by
  have hmessage : e.message = "Lexical Error at line " ++ e.position.line.repr ++ ", column "
      ++ e.position.column.repr ++ ": " ++ e.cause.description := rfl
  simp only [hmessage, Position.clause, String.toList_append, List.append_assoc]

theorem selfDelimiting_message : SelfDelimiting fun e : LexError => e.message.toList := by
  have hparts := (Position.selfDelimiting_clause.append Cause.selfDelimiting_description).prepend
    "Lexical Error at line ".toList
  have hfields : Function.Injective fun e : LexError => (e.position, e.cause) := by
    rintro ⟨cause, p⟩ ⟨cause', p'⟩ h
    obtain ⟨rfl, rfl⟩ := Prod.mk.inj h
    rfl
  simpa only [toList_message] using hparts.comap hfields

end LexError

namespace ViolationKind

def all : List ViolationKind :=
  [unexpectedKeyword, expectedSemicolon, expectedOpenBrace, expectedCloseBrace,
    expectedExpression, expectedFunctionKeyword, expectedFunctionName, expectedOpenParen,
    expectedParameterName, expectedCloseParen, expectedDeclarationKeyword, expectedVariableName,
    expectedIfKeyword, expectedWhileKeyword]

theorem message_injective : Function.Injective message := by
  apply injective_of_find? all
  intro k
  cases k <;> decide

theorem lineFeed_notMem_message (k : ViolationKind) :
    ∀ c ∈ k.message.toList, (c != '\n') = true := by
  have hall : k.message.toList.all (· != '\n') = true := by
    cases k <;> decide
  exact List.all_eq_true.mp hall

/-- No message runs over the end of its line. -/
theorem selfDelimiting_line :
    SelfDelimiting fun k : ViolationKind => k.message.toList ++ ['\n'] := by
  have hinj : Function.Injective fun k : ViolationKind => k.message.toList := by
    intro a b h
    exact message_injective (String.toList_inj.mp h)
  exact .of_stops hinj lineFeed_notMem_message rfl []

end ViolationKind

namespace Violation

theorem toList_message (v : Violation) :
    v.message.toList =
      "Syntax Error at line ".toList ++ (v.position.clause ++ v.kind.message.toList) := by
  have hmessage : v.message = "Syntax Error at line " ++ v.position.line.repr ++ ", column "
      ++ v.position.column.repr ++ ": " ++ v.kind.message := rfl
  simp only [hmessage, Position.clause, String.toList_append, List.append_assoc]

theorem selfDelimiting_line : SelfDelimiting fun v : Violation => v.message.toList ++ ['\n'] := by
  have hparts := (Position.selfDelimiting_clause.append ViolationKind.selfDelimiting_line).prepend
    "Syntax Error at line ".toList
  have hfields : Function.Injective fun v : Violation => (v.position, v.kind) := by
    rintro ⟨kind, p⟩ ⟨kind', p'⟩ h
    obtain ⟨rfl, rfl⟩ := Prod.mk.inj h
    rfl
  simpa only [toList_message, List.append_assoc] using hparts.comap hfields

end Violation

end SyntaxAudit
