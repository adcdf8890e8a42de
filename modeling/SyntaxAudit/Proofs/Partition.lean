import SyntaxAudit.Scan

/-! A scan that keeps comments leaves nothing of the source out: its items lie one behind the other
with only white space between them, and each carries the place where it begins. -/
namespace SyntaxAudit

namespace Position

/-- The place behind a text, counted: one line for each line feed, and one column for each
character since the last of them. -/
def behind (text : List Char) : Position :=
  ⟨1 + text.count '\n', 1 + (text.reverse.takeWhile (· != '\n')).length⟩

private theorem behind_concat (text : List Char) (c : Char) :
    behind (text ++ [c]) = (behind text).next c := by
  by_cases h : c = '\n'
  · subst h
    simp [behind, next, Nat.add_assoc]
  · have hc : (c != '\n') = true := by simpa using h
    simp [behind, next, h, hc, Nat.add_comm]

/-- Walking through a text counts its lines and columns. -/
theorem behind_append (before text : List Char) :
    behind (before ++ text) = (behind before).after text := by
  induction text generalizing before with
  | nil => rw [List.append_nil, after_nil]
  | cons c text ih => rw [List.append_cons, ih, behind_concat, after_cons]

end Position

def Item.position : Item → Position
  | .token t => t.position
  | .error e => e.position

/-- The stretch of source text an item stands for, with the text behind it: a token its own text,
an unexpected character this character, and a string or comment that never ends all that is left. -/
def Item.Spans (span rest : List Char) : Item → Prop
  | .token t => t.kind ≠ .endOfInput ∧ t.text.toList = span
  | .error ⟨.unexpectedCharacter c, _⟩ => span = [c]
  | .error ⟨.unterminatedString, _⟩ => rest = []
  | .error ⟨.unterminatedComment, _⟩ => rest = []

/-- The items lie in a text one behind the other and each at its place, with nothing but white
space before, between and behind them. What stands before the text decides about the places. -/
def Tiles (before text : List Char) : List Item → Prop
  | [] => ∀ c ∈ text, Text.isBlank c = true
  | item :: items => ∃ gap span rest, text = gap ++ (span ++ rest) ∧
      (∀ c ∈ gap, Text.isBlank c = true) ∧ span ≠ [] ∧ item.Spans span rest ∧
      item.position = .behind (before ++ gap) ∧ Tiles (before ++ (gap ++ span)) rest items

namespace Tiles

/-- White space in front makes the first gap longer. -/
theorem blank {before text : List Char} {items : List Item} {c : Char}
    (hc : Text.isBlank c = true) (h : Tiles (before ++ [c]) text items) :
    Tiles before (c :: text) items := by
  cases items with
  | nil =>
    intro d hd
    rcases List.mem_cons.mp hd with rfl | hd
    · exact hc
    · exact h d hd
  | cons item items =>
    obtain ⟨gap, span, rest, rfl, hgap, hspan, hitem, hposition, h⟩ := h
    refine ⟨c :: gap, span, rest, rfl, ?_, hspan, hitem, ?_, ?_⟩
    · intro d hd
      rcases List.mem_cons.mp hd with rfl | hd
      · exact hc
      · exact hgap d hd
    · rw [hposition, List.append_assoc]
      rfl
    · rw [List.append_assoc] at h
      exact h

/-- An item that begins at once has no gap before it. -/
theorem item {before span rest : List Char} {items : List Item} {item : Item}
    (hspan : span ≠ []) (hitem : item.Spans span rest) (hposition : item.position = .behind before)
    (h : Tiles (before ++ span) rest items) : Tiles before (span ++ rest) (item :: items) := by
  refine ⟨[], span, rest, rfl, ?_, hspan, hitem, ?_, h⟩
  · simp
  · rw [List.append_nil]
    exact hposition

/-- A string or comment that never ends is the last item. -/
theorem eq_nil_of_open {before text : List Char} {first others : List Item} {e : LexError}
    (h : Tiles before text (first ++ .error e :: others))
    (he : e.cause = .unterminatedString ∨ e.cause = .unterminatedComment) : others = [] := by
  induction first generalizing before text with
  | nil =>
    obtain ⟨gap, span, rest, -, -, -, hitem, -, h⟩ := h
    obtain rfl : rest = [] := by
      rcases e with ⟨cause, p⟩
      rcases he with rfl | rfl <;> exact hitem
    cases others with
    | nil => rfl
    | cons next others =>
      obtain ⟨gap, span, rest, hnil, -, hspan, -⟩ := h
      simp only [List.nil_eq, List.append_eq_nil_iff] at hnil
      exact absurd hnil.2.1 hspan
  | cons item first ih =>
    obtain ⟨gap, span, rest, -, -, -, -, -, h⟩ := h
    exact ih h

end Tiles

namespace Lexeme

def Fits (c : Char) (rest : List Char) (l : Lexeme) : Prop :=
  match l.kind with
  | .blank => l.text = [c] ∧ Text.isBlank c = true
  | .token kind => kind ≠ .endOfInput
  | .unexpected d => l.text = [d]
  | .openString => rest = []
  | .openComment => rest = []

private theorem wordKind_ne_endOfInput (word : List Char) : wordKind word ≠ .endOfInput := by
  unfold wordKind
  repeat' split
  all_goals simp

theorem fits_first (c : Char) (cs : List Char) : (first c cs).1.Fits c (first c cs).2 := by
  refine first_cases c cs ?blank ?lineComment ?blockComment ?quotation ?number ?word ?mark
    ?operator ?unexpected
  case blank => exact fun hblank => ⟨rfl, hblank⟩
  case lineComment => simp [lineComment, Fits]
  case blockComment =>
    intro ds _ _ _
    unfold blockComment
    split <;> simp [Fits]
  case quotation =>
    intro _ _
    unfold quotation
    split <;> simp [Fits]
  case number => simp [number, Fits]
  case word => exact fun _ _ => wordKind_ne_endOfInput _
  case mark => simp [Fits]
  case operator =>
    intro _ _ _
    unfold operator
    repeat' split
    all_goals simp [Fits]
  case unexpected => exact fun _ => rfl

end Lexeme

/-- With comments kept, a piece of text that fits is an item that spans it, or white space. -/
theorem tiles_item {options : ScanOptions} (hkeep : options.keepComments = true) {l : Lexeme}
    {c : Char} {before rest : List Char} {items : List Item} (hl : l.Fits c rest)
    (hne : l.text ≠ []) (h : Tiles (before ++ l.text) rest items) :
    Tiles before (l.text ++ rest) ((l.item? options (.behind before)).toList ++ items) := by
  rcases l with ⟨kind, text⟩
  cases kind with
  | blank =>
    obtain ⟨rfl, hc⟩ := hl
    exact h.blank hc
  | token kind =>
    have hi : (Lexeme.mk (.token kind) text).item? options (.behind before) =
        some (.token ⟨kind, String.ofList text, .behind before⟩) := by
      simp [Lexeme.item?, hkeep]
    rw [hi]
    exact .item hne ⟨hl, String.toList_ofList⟩ rfl h
  | unexpected d => exact .item hne hl rfl h
  | openString => exact .item hne hl rfl h
  | openComment => exact .item hne hl rfl h

/-- The items of a text are those of its pieces, and the end mark behind them. -/
theorem itemsFrom_tiles {options : ScanOptions} (hkeep : options.keepComments = true)
    (before text : List Char) :
    ∃ body, itemsFrom options (.behind before) (lexemes text) =
      body ++ options.endItems (.behind (before ++ text)) ∧ Tiles before text body := by
  fun_induction lexemes text generalizing before with
  | case1 =>
    refine ⟨[], ?_, ?_⟩
    · rw [List.append_nil]
      rfl
    · simp [Tiles]
  | case2 c cs ih =>
    obtain ⟨body, he, h⟩ := ih (before ++ (Lexeme.first c cs).1.text)
    refine ⟨((Lexeme.first c cs).1.item? options (.behind before)).toList ++ body, ?_, ?_⟩
    · rw [itemsFrom, ← Position.behind_append, he, List.append_assoc, List.append_assoc,
        Lexeme.first_append]
    · have ht := tiles_item hkeep (Lexeme.fits_first c cs) (Lexeme.first_text_ne_nil c cs) h
      rwa [Lexeme.first_append] at ht

/-- Requests for items are answered by the items to come, one after the other, and then by
nothing. -/
theorem Scanner.pull_eq (s : Scanner) (n : Nat) :
    (s.pull n).1 = (List.range n).map (s.pending[·]?) := by
  induction n generalizing s with
  | zero => rfl
  | succ n ih =>
    have hpull : (s.pull (n + 1)).1 = s.next.1 :: (s.next.2.pull n).1 := rfl
    rw [hpull, ih, (pending_next s).1, (pending_next s).2, List.range_succ_eq_map, List.map_cons,
      List.map_map, List.head?_eq_getElem?]
    simp

/-- The items of a scan that keeps comments, without the end mark, tile the source; a string or
comment that never ends is the last of them; and the end mark stands behind the last character. -/
theorem scan_tiles_source (markEnd : Bool) (source : String) :
    ∃ body : List Item,
      (∀ n, ((Scanner.ofSource ⟨true, markEnd⟩ source).pull n).1 =
        (List.range n).map ((body ++ if markEnd then
          [.token ⟨.endOfInput, "", .behind source.toList⟩] else [])[·]?)) ∧
      Tiles [] source.toList body ∧
      ∀ first e others, body = first ++ .error e :: others →
        e.cause = .unterminatedString ∨ e.cause = .unterminatedComment → others = [] := by
  obtain ⟨body, he, h⟩ := @itemsFrom_tiles ⟨true, markEnd⟩ rfl [] source.toList
  refine ⟨body, ?_, h, ?_⟩
  · intro n
    have hpending : (Scanner.ofSource ⟨true, markEnd⟩ source).pending =
        body ++ ScanOptions.endItems ⟨true, markEnd⟩ (.behind source.toList) := he
    rw [Scanner.pull_eq, hpending]
    rfl
  · rintro first e others rfl
    exact h.eq_nil_of_open

end SyntaxAudit
