import SyntaxAudit.Lexeme

/-! Spellings: which texts are a name, a number, a string or a truth value, said without a scan.
Such a text is read as one token wherever white space or nothing follows, and no other text is. -/
namespace SyntaxAudit

namespace Text

/-- No visible character of the ASCII range is white space. -/
theorem isBlank_of_visible {c : Char} (hlow : 33 ≤ c.toNat) (hhigh : c.toNat ≤ 126) :
    isBlank c = false := by
  simp [isBlank, CodeRanges.contains, blankRanges]
  omega

end Text

def Literal.kind (w : Literal) : TokenKind :=
  match w.valueClass with
  | .boolean => .boolean
  | .null => .null
  | .undefined => .undefined

namespace Lexeme

def isWord : List Char → Bool
  | [] => false
  | c :: cs => isWordStart c && cs.all isWordPart

/-- A digit or more, and behind them perhaps a point with or without digits of its own. -/
def IsNumeral (text : List Char) : Prop :=
  ∃ whole, whole ≠ [] ∧ (∀ d ∈ whole, d.isDigit = true) ∧
    (text = whole ∨ ∃ fraction, (∀ d ∈ fraction, d.isDigit = true) ∧
      text = whole ++ '.' :: fraction)

/-- What may stand between two quotes: a character that is neither the quote nor a backslash, or any
character behind a backslash. -/
inductive IsQuoted (quote : Char) : List Char → Prop
  | nil : IsQuoted quote []
  | plain {c : Char} {body : List Char} :
      c ≠ quote → c ≠ '\\' → IsQuoted quote body → IsQuoted quote (c :: body)
  | hidden {c : Char} {body : List Char} :
      IsQuoted quote body → IsQuoted quote ('\\' :: c :: body)

def IsQuotation (text : List Char) : Prop :=
  ∃ quote body, (quote = '\x22' ∨ quote = '\x27') ∧ IsQuoted quote body ∧
    text = quote :: (body ++ [quote])

def Spells : TokenKind → List Char → Prop
  | .identifier, text => isWord text = true ∧
      (∀ k : Keyword, text ≠ k.spelling.toList) ∧ ∀ w : Literal, text ≠ w.spelling.toList
  | .number, text => IsNumeral text
  | .string, text => IsQuotation text
  | .boolean, text => ∃ w : Literal, w.valueClass = .boolean ∧ text = w.spelling.toList
  | _, _ => False

def IsApart (rest : List Char) : Prop :=
  ∀ b ∈ rest.head?, Text.isBlank b = true

/-- The text is read as one token in front of whatever stands apart from it. -/
def Stands (kind : TokenKind) (text : List Char) : Prop :=
  ∀ rest : List Char, IsApart rest → lexemes (text ++ rest) = ⟨.token kind, text⟩ :: lexemes rest

section Characters
variable {c : Char}

theorem isDigit_iff : c.isDigit = true ↔ 48 ≤ c.toNat ∧ c.toNat ≤ 57 := by
  simp [Char.isDigit, UInt32.le_iff_toNat_le]

theorem isUpper_iff : c.isUpper = true ↔ 65 ≤ c.toNat ∧ c.toNat ≤ 90 :=
  decide_eq_true_iff

theorem isLower_iff : c.isLower = true ↔ 97 ≤ c.toNat ∧ c.toNat ≤ 122 := by
  have hlower : c.isLower = (decide (97 ≤ c.toNat) && decide (c.toNat ≤ 122)) := rfl
  simp [hlower]

theorem isWordStart_iff : isWordStart c = true ↔
    65 ≤ c.toNat ∧ c.toNat ≤ 90 ∨ 97 ≤ c.toNat ∧ c.toNat ≤ 122 ∨ c.toNat = 95 := by
  have halpha : c.isAlpha = (c.isUpper || c.isLower) := rfl
  rw [isWordStart, halpha, Bool.or_eq_true, Bool.or_eq_true, isUpper_iff, isLower_iff, or_assoc,
    beq_iff_eq, ← Char.toNat_inj]
  rfl

theorem isWordPart_iff : isWordPart c = true ↔ isWordStart c = true ∨ c.isDigit = true := by
  simp only [isWordStart, isWordPart, Char.isAlphanum, Bool.or_eq_true]
  exact or_right_comm

theorem isBlank_of_isWordPart (h : isWordPart c = true) : Text.isBlank c = false := by
  rw [isWordPart_iff, isWordStart_iff, isDigit_iff] at h
  apply Text.isBlank_of_visible <;> omega

theorem isWordPart_of_isBlank (h : Text.isBlank c = true) : isWordPart c = false := by
  rw [Bool.eq_false_iff]
  intro hpart
  rw [isBlank_of_isWordPart hpart] at h
  cases h

theorem isDigit_of_isBlank (h : Text.isBlank c = true) : c.isDigit = false := by
  rw [Bool.eq_false_iff]
  intro hdigit
  rw [isBlank_of_isWordPart (isWordPart_iff.mpr (.inr hdigit))] at h
  cases h

theorem ne_point_of_isBlank (h : Text.isBlank c = true) : c ≠ '.' := by
  rintro rfl
  exact absurd h (by decide)

/-- Which piece begins with a letter, an underscore or a digit. -/
theorem first_of_isWordPart (h : isWordPart c = true) (cs : List Char) :
    first c cs = if c.isDigit then number c cs else word c cs := by
  have hblank := isBlank_of_isWordPart h
  have hslash : c ≠ '/' := by
    rintro rfl
    revert h
    decide
  have hquote : ¬(c = '\x22' ∨ c = '\x27') := by
    rintro (rfl | rfl) <;> revert h <;> decide
  by_cases hdigit : c.isDigit = true
  · simp [first, hblank, hslash, hquote, hdigit]
  · have hstart : isWordStart c = true := (isWordPart_iff.mp h).resolve_right hdigit
    simp [first, hblank, hslash, hquote, hdigit, hstart]

theorem first_of_isWordStart (h : isWordStart c = true) (cs : List Char) :
    first c cs = word c cs := by
  have hdigit : ¬c.isDigit = true := by
    rw [isWordStart_iff] at h
    rw [isDigit_iff]
    omega
  rw [first_of_isWordPart (isWordPart_iff.mpr (.inl h)), if_neg hdigit]

end Characters

/-- A stretch of characters of a class ends where the text goes on with another one. -/
theorem span_append {p : Char → Bool} {text rest : List Char} (htext : ∀ c ∈ text, p c = true)
    (hrest : ∀ b ∈ rest.head?, p b = false) :
    (text ++ rest).takeWhile p = text ∧ (text ++ rest).dropWhile p = rest := by
  rw [List.takeWhile_append_of_pos htext, List.dropWhile_append_of_pos htext]
  cases rest with
  | nil => simp
  | cons b rest =>
    have hb : p b = false := hrest b rfl
    simp [hb]

/-- Behind a stretch of characters of a class the text goes on with another one, or ends. -/
theorem stops_dropWhile (p : Char → Bool) (cs : List Char) :
    ∀ b ∈ (cs.dropWhile p).head?, p b = false := by
  intro b hb
  have hstop := List.head?_dropWhile_not p cs
  rw [Option.mem_def.mp hb] at hstop
  exact hstop

theorem stands_of_first {kind : TokenKind} {c : Char} {cs : List Char}
    (h : ∀ rest, IsApart rest → first c (cs ++ rest) = (⟨.token kind, c :: cs⟩, rest)) :
    Stands kind (c :: cs) := by
  intro rest hrest
  rw [List.cons_append, lexemes_cons, h rest hrest]

section Words

theorem isWord_keyword (k : Keyword) : isWord k.spelling.toList = true := by
  cases k <;> decide

theorem isWord_literal (w : Literal) : isWord w.spelling.toList = true := by
  cases w <;> decide

theorem wordKind_keyword (k : Keyword) : wordKind k.spelling.toList = .keyword := by
  cases k <;> decide

theorem wordKind_literal (w : Literal) : wordKind w.spelling.toList = w.kind := by
  cases w <;> decide

theorem wordKind_name {text : List Char} (hk : ∀ k : Keyword, text ≠ k.spelling.toList)
    (hw : ∀ w : Literal, text ≠ w.spelling.toList) : wordKind text = .identifier := by
  have hkeyword : Keyword.ofSpelling? (String.ofList text) = none := by
    rw [Option.eq_none_iff_forall_ne_some]
    intro k h
    exact hk k (by rw [Keyword.ofSpelling?_eq_some_iff.mp h, String.toList_ofList])
  have hliteral : Literal.ofSpelling? (String.ofList text) = none := by
    rw [Option.eq_none_iff_forall_ne_some]
    intro w h
    exact hw w (by rw [Literal.ofSpelling?_eq_some_iff.mp h, String.toList_ofList])
  simp [wordKind, hkeyword, hliteral]

/-- The class of a word is that of an expression for names and truth values only. -/
theorem spells_wordKind {text : List Char} (h : isWord text = true)
    (hoperand : (wordKind text).isOperand = true) : Spells (wordKind text) text := by
  by_cases hk : ∃ k : Keyword, text = k.spelling.toList
  · obtain ⟨k, rfl⟩ := hk
    rw [wordKind_keyword] at hoperand
    cases hoperand
  by_cases hw : ∃ w : Literal, text = w.spelling.toList
  · obtain ⟨w, rfl⟩ := hw
    rw [wordKind_literal] at hoperand ⊢
    cases w with
    | trueWord => exact ⟨.trueWord, rfl, rfl⟩
    | falseWord => exact ⟨.falseWord, rfl, rfl⟩
    | nullWord | undefinedWord => cases hoperand
  rw [not_exists] at hk hw
  rw [wordKind_name hk hw]
  exact ⟨h, hk, hw⟩

theorem stands_word {text : List Char} (h : isWord text = true) :
    Stands (wordKind text) text := by
  cases text with
  | nil => cases h
  | cons c cs =>
    rw [isWord, Bool.and_eq_true, List.all_eq_true] at h
    obtain ⟨hc, hcs⟩ := h
    apply stands_of_first
    intro rest hrest
    obtain ⟨htake, hdrop⟩ := span_append hcs fun b hb => isWordPart_of_isBlank (hrest b hb)
    rw [first_of_isWordStart hc, word, htake, hdrop]

/-- What is taken behind the start of a word makes a word with it. -/
theorem isWord_takeWhile {c : Char} (h : isWordStart c = true) (cs : List Char) :
    isWord (c :: cs.takeWhile isWordPart) = true := by
  rw [isWord, h, List.all_takeWhile]
  rfl

theorem stands_keyword (k : Keyword) : Stands .keyword k.spelling.toList := by
  have h := stands_word (isWord_keyword k)
  rwa [wordKind_keyword] at h

end Words

section Numbers

/-- Digits with neither a digit nor a point behind them are cut off as they are. -/
theorem cutNumber_whole {whole rest : List Char} (hwhole : ∀ d ∈ whole, d.isDigit = true)
    (hrest : ∀ b ∈ rest.head?, b.isDigit = false ∧ b ≠ '.') :
    cutNumber (whole ++ rest) = (whole, rest) := by
  obtain ⟨htake, hdrop⟩ := span_append hwhole fun b hb => (hrest b hb).1
  simp only [cutNumber, htake, hdrop]
  split
  · exact absurd rfl (hrest '.' rfl).2
  · rfl

/-- Digits, a point and the digits behind it are cut off together. -/
theorem cutNumber_fraction {whole fraction rest : List Char}
    (hwhole : ∀ d ∈ whole, d.isDigit = true) (hfraction : ∀ d ∈ fraction, d.isDigit = true)
    (hrest : ∀ b ∈ rest.head?, b.isDigit = false) :
    cutNumber (whole ++ '.' :: (fraction ++ rest)) = (whole ++ '.' :: fraction, rest) := by
  have hpoint : ∀ b ∈ ('.' :: (fraction ++ rest)).head?, b.isDigit = false := by
    intro b hb
    obtain rfl : '.' = b := Option.some.inj hb
    decide
  obtain ⟨htake, hdrop⟩ := span_append hwhole hpoint
  obtain ⟨htake', hdrop'⟩ := span_append hfraction hrest
  simp only [cutNumber, htake, hdrop, htake', hdrop']

theorem stands_numeral {text : List Char} (h : IsNumeral text) : Stands .number text := by
  obtain ⟨whole, hne, hdigits, htext⟩ := h
  obtain ⟨c, cs, rfl⟩ := List.exists_cons_of_ne_nil hne
  obtain ⟨hc, hcs⟩ := List.forall_mem_cons.mp hdigits
  have hfirst (rest : List Char) : first c rest = number c rest := by
    rw [first_of_isWordPart (isWordPart_iff.mpr (.inr hc)), if_pos hc]
  rcases htext with rfl | ⟨fraction, hfraction, rfl⟩
  · apply stands_of_first
    intro rest hrest
    have hstop : ∀ b ∈ rest.head?, b.isDigit = false ∧ b ≠ '.' := fun b hb =>
      ⟨isDigit_of_isBlank (hrest b hb), ne_point_of_isBlank (hrest b hb)⟩
    rw [hfirst, number, cutNumber_whole hcs hstop]
  · rw [List.cons_append]
    apply stands_of_first
    intro rest hrest
    have hstop : ∀ b ∈ rest.head?, b.isDigit = false := fun b hb => isDigit_of_isBlank (hrest b hb)
    rw [hfirst, number, List.append_assoc, List.cons_append, cutNumber_fraction hcs hfraction hstop]

/-- What is cut off behind a digit makes a numeral with it. -/
theorem isNumeral_cutNumber {c : Char} (hc : c.isDigit = true) (cs : List Char) :
    IsNumeral (c :: (cutNumber cs).1) := by
  have hdigits (text : List Char) : ∀ d ∈ text.takeWhile Char.isDigit, d.isDigit = true :=
    List.all_eq_true.mp List.all_takeWhile
  refine ⟨c :: cs.takeWhile Char.isDigit, by simp, ?_, ?_⟩
  · exact List.forall_mem_cons.mpr ⟨hc, hdigits cs⟩
  · unfold cutNumber
    split
    · right
      exact ⟨_, hdigits _, rfl⟩
    · left
      rfl

end Numbers

section Quotations
variable {quote : Char}

/-- What stands between two quotes is cut off with the second one. -/
theorem cutString?_quoted {body : List Char} (hquote : quote ≠ '\\') (h : IsQuoted quote body)
    (rest : List Char) :
    cutString? quote (body ++ quote :: rest) = some (body ++ [quote], rest) := by
  induction h with
  | nil => simp [cutString?, hquote]
  | plain hc hbackslash _ ih => simp [cutString?, hc, hbackslash, ih]
  | hidden _ ih => simp [cutString?, ih]

theorem isQuoted_of_cutString? {cs text rest : List Char}
    (h : cutString? quote cs = some (text, rest)) :
    ∃ body, IsQuoted quote body ∧ text = body ++ [quote] := by
  fun_induction cutString? quote cs generalizing text with
  | case1 => cases h
  | case2 c cs ih =>
    obtain ⟨⟨inner, behind⟩, hinner, he⟩ := Option.map_eq_some_iff.mp h
    obtain ⟨rfl, rfl⟩ := Prod.mk.inj he
    obtain ⟨body, hbody, rfl⟩ := ih hinner
    exact ⟨_, .hidden hbody, rfl⟩
  | case3 cs _ =>
    obtain ⟨rfl, rfl⟩ := Prod.mk.inj (Option.some.inj h)
    exact ⟨[], .nil, rfl⟩
  | case4 c cs hopen hc ih =>
    obtain ⟨⟨inner, behind⟩, hinner, he⟩ := Option.map_eq_some_iff.mp h
    obtain ⟨rfl, rfl⟩ := Prod.mk.inj he
    obtain ⟨body, hbody, rfl⟩ := ih hinner
    -- a backslash at the very end of the text has no quote behind it
    have hbackslash : c ≠ '\\' := by
      rintro rfl
      cases cs with
      | nil => cases hinner
      | cons d ds => exact hopen d ds rfl rfl
    exact ⟨_, .plain hc hbackslash hbody, rfl⟩

theorem ne_backslash (h : quote = '\x22' ∨ quote = '\x27') : quote ≠ '\\' := by
  rcases h with rfl | rfl <;> decide

theorem first_quote (h : quote = '\x22' ∨ quote = '\x27') (cs : List Char) :
    first quote cs = quotation quote cs := by
  rcases h with rfl | rfl <;> rfl

theorem stands_quotation {text : List Char} (h : IsQuotation text) : Stands .string text := by
  obtain ⟨quote, body, hquote, hbody, rfl⟩ := h
  apply stands_of_first
  intro rest _
  rw [first_quote hquote, quotation, List.append_assoc, List.singleton_append,
    cutString?_quoted (ne_backslash hquote) hbody rest]

end Quotations

section Signs

theorem first_mark (p : Punctuation) (rest : List Char) :
    first p.char rest = (⟨.token .punctuation, [p.char]⟩, rest) := by
  cases p <;> rfl

theorem stands_mark (p : Punctuation) : Stands .punctuation [p.char] := by
  apply stands_of_first
  intro rest _
  exact first_mark p rest

/-- No operator holds white space. -/
theorem isBlank_operator (o : Operator) : o.spelling.toList.any Text.isBlank = false := by
  cases o <;> decide

/-- In front of what stands apart an operator is one character. -/
theorem operator_apart (c : Char) {rest : List Char} (hrest : IsApart rest) :
    operator c rest = (⟨.token .operator, [c]⟩, rest) := by
  cases rest with
  | nil => rfl
  | cons b rest =>
    have hb : Text.isBlank b = true := hrest b rfl
    have hnone : Operator.ofSpelling? (String.ofList [c, b]) = none := by
      rw [Option.eq_none_iff_forall_ne_some]
      intro o ho
      have hmem : b ∈ o.spelling.toList := by
        simp [Operator.ofSpelling?_eq_some_iff.mp ho]
      exact absurd hb (List.any_eq_false.mp (isBlank_operator o) b hmem)
    rw [operator, hnone]
    rfl

theorem stands_assign : Stands .operator ['='] := by
  apply stands_of_first
  intro rest hrest
  have hfirst : first '=' rest = operator '=' rest := rfl
  rw [List.nil_append, hfirst, operator_apart '=' hrest]

end Signs

/-- The text of an expression is read as one token of its class. -/
theorem stands_of_spells {kind : TokenKind} {text : List Char} (h : Spells kind text) :
    Stands kind text := by
  cases kind with
  | identifier =>
    obtain ⟨hword, hk, hw⟩ := h
    have hstands := stands_word hword
    rwa [wordKind_name hk hw] at hstands
  | number => exact stands_numeral h
  | string => exact stands_quotation h
  | boolean =>
    obtain ⟨w, hw, rfl⟩ := h
    have hstands := stands_word (isWord_literal w)
    have hkind : w.kind = .boolean := by
      simp [Literal.kind, hw]
    rwa [wordKind_literal, hkind] at hstands
  | _ => exact h.elim

theorem token_eq_iff {kind kind' : TokenKind} {text text' rest rest' : List Char} :
    (Lexeme.mk (.token kind) text, rest) = (⟨.token kind', text'⟩, rest') ↔
      kind = kind' ∧ text = text' ∧ rest = rest' := by
  simp [and_assoc]

/-- A piece that takes up a whole text and is an expression has the spelling of its class. -/
theorem spells_of_first {kind : TokenKind} {c : Char} {cs : List Char}
    (hkind : kind.isOperand = true) (h : first c cs = (⟨.token kind, c :: cs⟩, [])) :
    Spells kind (c :: cs) := by
  revert h
  refine first_cases c cs ?blank ?lineComment ?blockComment ?quotation ?number ?word ?mark
    ?operator ?unexpected
  case blank => simp
  case lineComment =>
    intro ds _ _ _ h
    obtain ⟨rfl, -⟩ := token_eq_iff.mp h
    cases hkind
  case blockComment =>
    intro ds _ _ _ h
    unfold blockComment at h
    split at h
    · obtain ⟨rfl, -⟩ := token_eq_iff.mp h
      cases hkind
    · simp at h
  case quotation =>
    intro _ hquote h
    unfold quotation at h
    split at h
    · rename_i text rest hcut
      obtain ⟨rfl, htext, -⟩ := token_eq_iff.mp h
      obtain ⟨body, hbody, rfl⟩ := isQuoted_of_cutString? hcut
      exact ⟨c, body, hquote, hbody, htext.symm⟩
    · simp at h
  case number =>
    intro _ hdigit h
    obtain ⟨rfl, htext, -⟩ := token_eq_iff.mp h
    rw [← htext]
    exact isNumeral_cutNumber hdigit cs
  case word =>
    intro _ hstart h
    obtain ⟨rfl, htext, -⟩ := token_eq_iff.mp h
    have hword := isWord_takeWhile hstart cs
    rw [htext] at hword hkind ⊢
    exact spells_wordKind hword hkind
  case mark =>
    intro p _ _ h
    obtain ⟨rfl, -⟩ := token_eq_iff.mp h
    cases hkind
  case operator =>
    intro _ _ _ h
    unfold operator at h
    repeat' split at h
    all_goals
      obtain ⟨rfl, -⟩ := token_eq_iff.mp h
      cases hkind
  case unexpected => simp

/-- A text is one token of a class of expressions exactly if it has the spelling of the class. -/
theorem lexemes_eq_singleton_iff {kind : TokenKind} (hkind : kind.isOperand = true)
    (text : List Char) : lexemes text = [⟨.token kind, text⟩] ↔ Spells kind text := by
  constructor
  · intro h
    cases text with
    | nil => simp at h
    | cons c cs =>
      rw [lexemes_cons, List.cons.injEq] at h
      have happend := first_append c cs
      rw [h.1, List.append_right_eq_self] at happend
      exact spells_of_first hkind (Prod.ext h.1 happend)
  · intro h
    have hstands := stands_of_spells h [] (by simp [IsApart])
    rwa [List.append_nil, lexemes_nil] at hstands

end Lexeme

end SyntaxAudit
