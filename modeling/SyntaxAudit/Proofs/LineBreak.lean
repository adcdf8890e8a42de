import SyntaxAudit.Proofs.Rescan

/-! A scan goes on behind a line break as if it began there: two texts with a line feed between
them have the items of the first and then those of the second, further down. -/
namespace SyntaxAudit

def Position.below (lines : Nat) (p : Position) : Position :=
  ⟨p.line + lines, p.column⟩

def Item.below (lines : Nat) : Item → Item
  | .token t => .token { t with position := t.position.below lines }
  | .error e => .error { e with position := e.position.below lines }

def Item.isEnd : Item → Bool
  | .token t => t.isEnd
  | .error _ => false

/-- The items of two texts that are scanned on their own, as they stand if the second text begins on
the line below the first. -/
def stackedItems (options : ScanOptions) (upper lower : String) : List Item :=
  (items options upper).filter (!·.isEnd) ++
    (items options lower).map (Item.below (1 + upper.toList.count '\n'))

namespace Lexeme

def Ends (l : Lexeme) : Prop :=
  l.kind ≠ .openString ∧ l.kind ≠ .openComment

section LineFeed
variable {c : Char} {cs : List Char} (more : List Char)

/-- A stretch of characters goes no further than to a line feed that is not of their class. -/
theorem span_lineFeed {p : Char → Bool} (hp : p '\n' = false) (cs : List Char) :
    (cs ++ '\n' :: more).takeWhile p = cs.takeWhile p ∧
      (cs ++ '\n' :: more).dropWhile p = cs.dropWhile p ++ '\n' :: more := by
  induction cs with
  | nil => simp [hp]
  | cons d cs ih =>
    by_cases hd : p d = true
    · simp [hd, ih]
    · simp [hd]

/-- The character behind the first one is the same, or it is the line feed now. -/
theorem head?_lineFeed {d : Char} (hd : d ≠ '\n') :
    (cs ++ '\n' :: more).head? = some d ↔ cs.head? = some d := by
  cases cs with
  | nil => simpa using hd.symm
  | cons e cs => simp

theorem tail_lineFeed {d : Char} (h : cs.head? = some d) :
    (cs ++ '\n' :: more).tail = cs.tail ++ '\n' :: more := by
  cases cs with
  | nil => cases h
  | cons e cs => rfl

theorem cutNumber_lineFeed (cs : List Char) :
    cutNumber (cs ++ '\n' :: more) = ((cutNumber cs).1, (cutNumber cs).2 ++ '\n' :: more) := by
  have hdigit : Char.isDigit '\n' = false := rfl
  have hspan := span_lineFeed more hdigit
  simp only [cutNumber, hspan cs]
  cases hrest : cs.dropWhile Char.isDigit with
  | nil => rfl
  | cons d rest =>
    by_cases hd : d = '.'
    · subst hd
      simp only [List.cons_append, hspan rest]
    · simp [hd]

theorem lineComment_lineFeed (cs : List Char) :
    lineComment (cs ++ '\n' :: more) =
      ((lineComment cs).1, (lineComment cs).2 ++ '\n' :: more) := by
  obtain ⟨htake, hdrop⟩ := @span_lineFeed more (· != '\n') rfl cs
  rw [lineComment, htake, hdrop, lineComment]

theorem blockComment_lineFeed (h : (blockComment cs).1.Ends) :
    blockComment (cs ++ '\n' :: more) =
      ((blockComment cs).1, (blockComment cs).2 ++ '\n' :: more) := by
  cases hcut : cutComment? cs with
  | none =>
    rw [blockComment, hcut] at h
    exact absurd rfl h.2
  | some cut =>
    obtain ⟨body, rest⟩ := cut
    have hlonger : cutComment? (cs ++ '\n' :: more) = some (body, rest ++ '\n' :: more) := by
      rw [← cutComment?_append hcut, List.append_assoc]
      exact cutComment?_behind hcut _
    rw [blockComment, hlonger, blockComment, hcut]

theorem quotation_lineFeed (hc : c = '\x22' ∨ c = '\x27') (h : (quotation c cs).1.Ends) :
    quotation c (cs ++ '\n' :: more) =
      ((quotation c cs).1, (quotation c cs).2 ++ '\n' :: more) := by
  cases hcut : cutString? c cs with
  | none =>
    rw [quotation, hcut] at h
    exact absurd rfl h.1
  | some cut =>
    obtain ⟨text, rest⟩ := cut
    obtain ⟨body, hbody, rfl⟩ := isQuoted_of_cutString? hcut
    have hlonger : cutString? c (cs ++ '\n' :: more) =
        some (body ++ [c], rest ++ '\n' :: more) := by
      rw [← cutString?_append hcut, List.append_assoc, List.append_assoc, List.singleton_append]
      exact cutString?_quoted (ne_backslash hc) hbody _
    rw [quotation, hlonger, quotation, hcut]

theorem operator_lineFeed (c : Char) (cs : List Char) :
    operator c (cs ++ '\n' :: more) =
      ((operator c cs).1, (operator c cs).2 ++ '\n' :: more) := by
  cases cs with
  | nil =>
    have hbreak : IsApart ('\n' :: more) := by
      intro b hb
      obtain rfl : '\n' = b := Option.some.inj hb
      exact Text.isBlank_lineFeed
    exact operator_apart c hbreak
  | cons d cs =>
    simp only [List.cons_append, operator]
    split <;> rfl

/-- A piece that ends is the same one if a line feed stands behind the text. -/
theorem first_lineFeed (h : (first c cs).1.Ends) :
    first c (cs ++ '\n' :: more) = ((first c cs).1, (first c cs).2 ++ '\n' :: more) := by
  revert h
  have hslash := @head?_lineFeed cs more '/' (by decide)
  have hstar := @head?_lineFeed cs more '*' (by decide)
  -- both texts lead to the same case, since the case depends on two characters at most
  simp only [first, hslash, hstar]
  split
  · intro _
    rfl
  split
  · rename_i hopen
    intro _
    rw [tail_lineFeed more hopen.2]
    exact lineComment_lineFeed more _
  split
  · rename_i hopen
    rw [tail_lineFeed more hopen.2]
    exact blockComment_lineFeed more
  split
  · rename_i hquote
    exact quotation_lineFeed more hquote
  split
  · intro _
    simp only [number, cutNumber_lineFeed]
  split
  · intro _
    obtain ⟨htake, hdrop⟩ := @span_lineFeed more isWordPart (by decide) cs
    simp only [word, htake, hdrop]
  split
  · intro _
    rfl
  split
  · intro _
    exact operator_lineFeed more c cs
  · intro _
    rfl

end LineFeed

end Lexeme

/-- A text whose pieces all end keeps them if a line feed stands behind it. -/
theorem lexemes_lineFeed {text : List Char} (h : ∀ l ∈ lexemes text, l.Ends) (more : List Char) :
    lexemes (text ++ '\n' :: more) = lexemes text ++ ⟨.blank, ['\n']⟩ :: lexemes more := by
  fun_induction lexemes text with
  | case1 =>
    have hfirst : Lexeme.first '\n' more = (⟨.blank, ['\n']⟩, more) := rfl
    rw [List.nil_append, lexemes_cons, hfirst]
    rfl
  | case2 c cs ih =>
    obtain ⟨hfirst, hothers⟩ := List.forall_mem_cons.mp h
    rw [List.cons_append, lexemes_cons, Lexeme.first_lineFeed more hfirst, ih hothers]
    rfl

section Items
variable {options : ScanOptions}

/-- The items of a text with further pieces behind it: the end mark of the text gives way to the
items of these. -/
theorem itemsFrom_append (p : Position) (text : List Char) (others : List Lexeme) :
    itemsFrom options p (lexemes text ++ others) =
      (itemsFrom options p (lexemes text)).filter (!·.isEnd) ++
        itemsFrom options (p.after text) others := by
  fun_induction lexemes text generalizing p with
  | case1 =>
    have hend : (options.endItems p).filter (!·.isEnd) = [] := by
      simp [ScanOptions.endItems, Item.isEnd, Token.endAt, Token.isEnd]
    rw [List.nil_append, itemsFrom, hend]
    rfl
  | case2 c cs ih =>
    have hpiece : ((Lexeme.first c cs).1.item? options p).toList.filter (!·.isEnd) =
        ((Lexeme.first c cs).1.item? options p).toList := by
      rw [List.filter_eq_self]
      intro item hitem
      have hunmarked := (item?_first (Option.mem_toList.mp hitem)).2
      cases item with
      | token t => simp [Item.isEnd, hunmarked t rfl]
      | error e => rfl
    rw [List.cons_append, itemsFrom, itemsFrom, List.filter_append, hpiece, ih, List.append_assoc,
      ← Position.after_append, Lexeme.first_append]

theorem next_below (lines : Nat) (p : Position) (c : Char) :
    (p.below lines).next c = (p.next c).below lines := by
  unfold Position.next Position.below
  split
  · rw [Nat.add_right_comm]
  · rfl

theorem after_below (lines : Nat) (p : Position) (text : List Char) :
    (p.below lines).after text = (p.after text).below lines := by
  induction text generalizing p with
  | nil => rfl
  | cons c text ih => rw [Position.after_cons, next_below, ih, Position.after_cons]

theorem item?_below (lines : Nat) (p : Position) (l : Lexeme) :
    l.item? options (p.below lines) = (l.item? options p).map (Item.below lines) := by
  unfold Lexeme.item?
  split
  · rfl
  · split <;> rfl
  · rfl
  · rfl
  · rfl

/-- Pieces that begin further down have their items further down. -/
theorem itemsFrom_below (lines : Nat) (p : Position) (ls : List Lexeme) :
    itemsFrom options (p.below lines) ls = (itemsFrom options p ls).map (Item.below lines) := by
  induction ls generalizing p with
  | nil =>
    unfold itemsFrom ScanOptions.endItems
    split <;> rfl
  | cons l ls ih =>
    have hhead : (l.item? options (p.below lines)).toList =
        (l.item? options p).toList.map (Item.below lines) := by
      rw [item?_below]
      cases l.item? options p <;> rfl
    rw [itemsFrom, itemsFrom, List.map_append, after_below, ih, hhead]

/-- A piece that never ends is handed out under all settings. -/
theorem ends_of_items {source : String}
    (h : ∀ e, .error e ∈ items options source →
      e.cause ≠ .unterminatedString ∧ e.cause ≠ .unterminatedComment) :
    ∀ l ∈ lexemes source.toList, l.Ends := by
  intro l hl
  obtain ⟨pieces, others, hpieces⟩ := List.append_of_mem hl
  have hmem : ∀ item, l.item? options (.after .start (pieces.flatMap Lexeme.text)) = some item →
      item ∈ items options source := by
    intro item hitem
    rw [items, hpieces]
    exact mem_itemsFrom hitem
  constructor
  · intro hkind
    exact (h _ (hmem _ (by rw [Lexeme.item?, hkind]))).1 rfl
  · intro hkind
    exact (h _ (hmem _ (by rw [Lexeme.item?, hkind]))).2 rfl

end Items

/-- The place behind a text and a line feed is the start of a text, further down. -/
theorem after_lineFeed (text : List Char) :
    (Position.after .start text).next '\n' = Position.start.below (1 + text.count '\n') := by
  have hbehind : Position.after .start text = .behind text :=
    (Position.behind_append [] text).symm
  rw [hbehind, Position.next, if_pos rfl]
  simp only [Position.behind, Position.below, Position.start, Position.mk.injEq, and_true]
  omega

/-- If no string and no comment of the upper text stays open, the items of both texts with a line
feed between them are those of the upper one without its end mark, and then those of the lower one
as many lines further down as the upper text and the line feed have. They come in this order when
they are asked for one at a time. -/
theorem scan_continues_below {options : ScanOptions} {upper lower : String}
    (hclosed : ∀ e, .error e ∈ items options upper →
      e.cause ≠ .unterminatedString ∧ e.cause ≠ .unterminatedComment) :
    items options (upper ++ "\n" ++ lower) = stackedItems options upper lower ∧
    ∀ n, ((Scanner.ofSource options (upper ++ "\n" ++ lower)).pull n).1 =
      (List.range n).map ((stackedItems options upper lower)[·]?) := by
  have htext : (upper ++ "\n" ++ lower).toList = upper.toList ++ '\n' :: lower.toList := by
    simp
  have hitems : items options (upper ++ "\n" ++ lower) = stackedItems options upper lower := by
    rw [items, htext, lexemes_lineFeed (ends_of_items hclosed), itemsFrom_append, itemsFrom,
      Position.after_cons, Position.after_nil, after_lineFeed, itemsFrom_below]
    rfl
  refine ⟨hitems, ?_⟩
  intro n
  have hpending : (Scanner.ofSource options (upper ++ "\n" ++ lower)).pending =
      stackedItems options upper lower := hitems
  rw [Scanner.pull_eq, hpending]

def marked : String := "a #\n//'"

def markedItems : List Item :=
  [.token ⟨.identifier, "a", ⟨1, 1⟩⟩, .error ⟨.unexpectedCharacter '#', ⟨1, 3⟩⟩,
    .token ⟨.comment, "//'", ⟨2, 1⟩⟩, .token ⟨.endOfInput, "", ⟨2, 4⟩⟩]

def wrapped : String := "'b\n' @"

def wrappedItems : List Item :=
  [.token ⟨.string, "'b\n'", ⟨1, 1⟩⟩, .error ⟨.unexpectedCharacter '@', ⟨2, 3⟩⟩,
    .token ⟨.endOfInput, "", ⟨2, 4⟩⟩]

theorem scan_continues_below_marked :
    (∀ e, .error e ∈ items { keepComments := true } marked →
      e.cause ≠ .unterminatedString ∧ e.cause ≠ .unterminatedComment) ∧
    items { keepComments := true } (marked ++ "\n" ++ wrapped) =
      [.token ⟨.identifier, "a", ⟨1, 1⟩⟩, .error ⟨.unexpectedCharacter '#', ⟨1, 3⟩⟩,
        .token ⟨.comment, "//'", ⟨2, 1⟩⟩, .token ⟨.string, "'b\n'", ⟨3, 1⟩⟩,
        .error ⟨.unexpectedCharacter '@', ⟨4, 3⟩⟩, .token ⟨.endOfInput, "", ⟨4, 4⟩⟩] := by
  have hmarked : items { keepComments := true } marked = markedItems := by decide +kernel
  have hwrapped : items { keepComments := true } wrapped = wrappedItems := by decide +kernel
  have hclosed : ∀ e, .error e ∈ items { keepComments := true } marked →
      e.cause ≠ .unterminatedString ∧ e.cause ≠ .unterminatedComment := by
    intro e he
    rw [hmarked] at he
    obtain rfl : e = ⟨.unexpectedCharacter '#', ⟨1, 3⟩⟩ := by simpa [markedItems] using he
    simp
  refine ⟨hclosed, ?_⟩
  rw [(scan_continues_below hclosed).1, stackedItems, hmarked, hwrapped]
  decide

end SyntaxAudit
