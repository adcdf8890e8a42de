import SyntaxAudit.Proofs.ScannedTokens

/-! Where the items of a scan are read from: each is handed out for one piece of the source, tells
what stands there, and begins with a character that is not white space. -/
namespace SyntaxAudit

/-- A scan reads the item from the stretch `span` of the source, with `before` in front of it: the
source is cut into pieces, and this one hands the item out. The end mark is read from nothing,
behind the whole source. -/
inductive ReadFrom (options : ScanOptions) (source : String) : List Char → List Char → Item → Prop
  | piece {pieces others : List Lexeme} {l : Lexeme} {item : Item} :
      lexemes source.toList = pieces ++ l :: others →
      l.item? options (.behind (pieces.flatMap Lexeme.text)) = some item →
      ReadFrom options source (pieces.flatMap Lexeme.text) l.text item
  | endMark {item : Item} : item ∈ options.endItems (.behind source.toList) →
      ReadFrom options source source.toList [] item

/-- What an item tells of the stretch of text it is read from, in front of `rest`: a token has it as
its text, and only the end mark has none; an unexpected character is all of it; a string or a
comment that never ends begins with its opening and takes all that is left. -/
def Item.Tells (span rest : List Char) : Item → Prop
  | .token t => t.text.toList = span ∧ (span = [] ↔ t.kind = .endOfInput) ∧ (span = [] → rest = [])
  | .error ⟨.unexpectedCharacter c, _⟩ => span = [c]
  | .error ⟨.unterminatedString, _⟩ =>
      (span.head? = some '\x22' ∨ span.head? = some '\x27') ∧ rest = []
  | .error ⟨.unterminatedComment, _⟩ => ['/', '*'] <+: span ∧ rest = []

theorem Item.Tells.head?_error {e : LexError} {span rest : List Char}
    (h : (Item.error e).Tells span rest) : ∃ c, span.head? = some c := by
  obtain ⟨cause, p⟩ := e
  cases cause with
  | unexpectedCharacter c =>
    obtain rfl : span = [c] := h
    exact ⟨c, rfl⟩
  | unterminatedString =>
    rcases h.1 with hquote | hquote
    · exact ⟨_, hquote⟩
    · exact ⟨_, hquote⟩
  | unterminatedComment =>
    obtain ⟨body, rfl⟩ := h.1
    exact ⟨'/', rfl⟩

structure Item.LiesIn (options : ScanOptions) (source : String) (before span rest : List Char)
    (item : Item) : Prop where
  readFrom : ReadFrom options source before span item
  source_eq : source.toList = before ++ (span ++ rest)
  tells : item.Tells span rest

namespace Lexeme
variable {c : Char} {cs : List Char}

/-- With what a piece begins that is not white space. -/
theorem begins_first (c : Char) (cs : List Char) :
    ((first c cs).1.kind ≠ .blank → Text.isBlank c = false) ∧
    ((first c cs).1.kind = .openString → c = '\x22' ∨ c = '\x27') ∧
    ((first c cs).1.kind = .openComment → c = '/' ∧ cs.head? = some '*') := by
  refine first_cases c cs ?blank ?lineComment ?blockComment ?quotation ?number ?word ?mark
    ?operator ?unexpected
  case blank => simp
  case lineComment =>
    intro ds hvisible _ _
    simp [lineComment, hvisible]
  case blockComment =>
    rintro ds hvisible rfl rfl
    unfold blockComment
    split <;> exact ⟨fun _ => hvisible, by simp, fun _ => ⟨rfl, rfl⟩⟩
  case quotation =>
    intro hvisible hquote
    unfold quotation
    split <;> exact ⟨fun _ => hvisible, fun _ => hquote, by simp⟩
  case number =>
    intro hvisible _
    simp [number, hvisible]
  case word =>
    intro hvisible _
    simp [word, hvisible]
  case mark =>
    intro p hvisible _
    simp [hvisible]
  case operator =>
    intro hvisible _ _
    unfold operator
    repeat' split
    all_goals simp [hvisible]
  case unexpected =>
    intro hvisible
    simp [hvisible]

/-- A piece in the middle of a text is the first one of what is left there. -/
theorem first_of_lexemes {text : List Char} {pieces others : List Lexeme} {l : Lexeme}
    (h : lexemes text = pieces ++ l :: others) :
    ∃ c cs, text = pieces.flatMap Lexeme.text ++ c :: cs ∧ l = (first c cs).1 ∧
      others = lexemes (first c cs).2 := by
  induction pieces generalizing text with
  | nil =>
    cases text with
    | nil => simp at h
    | cons c cs =>
      rw [lexemes_cons, List.nil_append, List.cons.injEq] at h
      exact ⟨c, cs, rfl, h.1.symm, h.2.symm⟩
  | cons piece pieces ih =>
    cases text with
    | nil => simp at h
    | cons d ds =>
      rw [lexemes_cons, List.cons_append, List.cons.injEq] at h
      obtain ⟨c, cs, hrest, hl, hothers⟩ := ih h.2
      refine ⟨c, cs, ?_, hl, hothers⟩
      rw [List.flatMap_cons, List.append_assoc, ← hrest, ← h.1, first_append]

/-- What a piece hands out tells of the piece. -/
theorem tells_first {options : ScanOptions} {p : Position} {item : Item}
    (h : (first c cs).1.item? options p = some item) :
    item.Tells (first c cs).1.text (first c cs).2 ∧ item.position = p ∧ Text.isBlank c = false := by
  obtain ⟨hvisible, hstring, hcomment⟩ := begins_first c cs
  have hfits := fits_first c cs
  have hne := first_text_ne_nil c cs
  have happend := first_append c cs
  refine ⟨?_, (item?_first h).1, ?_⟩
  · rcases hl : first c cs with ⟨⟨kind, text⟩, rest⟩
    rw [hl] at h hstring hcomment hfits hne happend
    cases kind with
    | blank => cases h
    | token kind =>
      obtain ⟨-, rfl⟩ := item?_token.mp h
      have hkind : kind ≠ .endOfInput := hfits
      exact ⟨String.toList_ofList, iff_of_false hne hkind, fun hnil => absurd hnil hne⟩
    | unexpected d =>
      obtain rfl := Option.some.inj h
      exact hfits
    | openString =>
      obtain rfl := Option.some.inj h
      obtain rfl : rest = [] := hfits
      rw [List.append_nil] at happend
      obtain rfl : text = c :: cs := happend
      exact ⟨by simpa using hstring rfl, rfl⟩
    | openComment =>
      obtain rfl := Option.some.inj h
      obtain rfl : rest = [] := hfits
      rw [List.append_nil] at happend
      obtain rfl : text = c :: cs := happend
      obtain ⟨rfl, hstar⟩ := hcomment rfl
      obtain ⟨cs, rfl⟩ := List.head?_eq_some_iff.mp hstar
      exact ⟨⟨cs, rfl⟩, rfl⟩
  · apply hvisible
    intro hblank
    rw [item?, hblank] at h
    cases h

theorem head?_text_first (c : Char) (cs : List Char) : (first c cs).1.text.head? = some c := by
  obtain ⟨d, ds, hd⟩ := List.exists_cons_of_ne_nil (first_text_ne_nil c cs)
  have happend := first_append c cs
  rw [hd, List.cons_append, List.cons.injEq] at happend
  rw [hd, happend.1]
  rfl

end Lexeme

section Reading
variable {options : ScanOptions} {source : String} {before span : List Char} {item : Item}

/-- An item is handed out for one of the pieces, at the place behind those before it, or at the
end. -/
theorem piece_of_mem_itemsFrom {ls : List Lexeme}
    (h : item ∈ itemsFrom options (.behind before) ls) :
    (∃ pieces l others, ls = pieces ++ l :: others ∧
      l.item? options (.behind (before ++ pieces.flatMap Lexeme.text)) = some item) ∨
    item ∈ options.endItems (.behind (before ++ ls.flatMap Lexeme.text)) := by
  induction ls generalizing before with
  | nil =>
    right
    rw [List.flatMap_nil, List.append_nil]
    exact h
  | cons l ls ih =>
    rw [itemsFrom, ← Position.behind_append] at h
    rcases List.mem_append.mp h with h | h
    · left
      refine ⟨[], l, ls, rfl, ?_⟩
      rw [List.flatMap_nil, List.append_nil]
      exact Option.mem_toList.mp h
    · rcases ih h with ⟨pieces, piece, others, rfl, hpiece⟩ | hend
      · left
        refine ⟨l :: pieces, piece, others, rfl, ?_⟩
        rw [List.flatMap_cons, ← List.append_assoc]
        exact hpiece
      · right
        rw [List.flatMap_cons, ← List.append_assoc]
        exact hend

theorem exists_readFrom (h : item ∈ items options source) :
    ∃ before span, ReadFrom options source before span item := by
  rcases @piece_of_mem_itemsFrom options [] item _ h with ⟨pieces, l, others, hpieces, hitem⟩ | hend
  · exact ⟨_, _, .piece hpieces hitem⟩
  · rw [flatMap_text_lexemes] at hend
    exact ⟨_, _, .endMark hend⟩

theorem mem_items_of_pull {n : Nat}
    (h : some item ∈ ((Scanner.ofSource options source).pull n).1) :
    item ∈ items options source := by
  rw [Scanner.pull_eq] at h
  obtain ⟨k, -, hk⟩ := List.mem_map.mp h
  exact List.mem_of_getElem? hk

theorem mem_items_of_token {tokens : List Token} {t : Token} (h : scan options source = .ok tokens)
    (ht : t ∈ tokens) : .token t ∈ items options source := by
  rw [tokens_of_collect h] at ht
  obtain ⟨item, hitem, htoken⟩ := List.mem_filterMap.mp ht
  cases item <;> cases htoken
  exact hitem

theorem mem_items_of_error {errors : List LexError} {e : LexError}
    (h : scan options source = .error errors) (he : e ∈ errors) :
    .error e ∈ items options source := by
  rw [errors_of_collect h] at he
  exact mem_filterMap_error?.mp he

end Reading

end SyntaxAudit
