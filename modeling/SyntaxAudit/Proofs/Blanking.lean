import SyntaxAudit.Proofs.Rescan

/-! Comments and characters that are no token only separate: with spaces in their place a source has
the same other items, with the same texts and at the same places. -/
namespace SyntaxAudit

def Item.isVoid : Item → Bool
  | .token t => t.kind == .comment
  | .error ⟨.unexpectedCharacter _, _⟩ => true
  | .error _ => false

namespace Position

def along (p : Position) : List Char → List Position
  | [] => []
  | c :: cs => p :: (p.next c).along cs

theorem not_precedes_along {p q : Position} {text : List Char} (h : q ∈ p.along text) :
    ¬q.Precedes p := by
  induction text generalizing p with
  | nil => cases h
  | cons c text ih =>
    intro hq
    rcases List.mem_cons.mp h with rfl | h
    · exact hq.ne rfl
    · exact ih h (hq.trans (p.precedes_next c))

theorem along_precedes {p q : Position} {text : List Char} (h : q ∈ p.along text) :
    q.Precedes (p.after text) := by
  induction text generalizing p with
  | nil => cases h
  | cons c text ih =>
    rcases List.mem_cons.mp h with rfl | h
    · exact q.precedes_after (List.cons_ne_nil c text)
    · exact ih h

end Position

/-- The places of the characters an item is handed out for. An error is handed out for one. -/
def Item.places : Item → List Position
  | .token t => t.position.along t.text.toList
  | .error e => [e.position]

def voidPlaces (items : List Item) : List Position :=
  (items.filter Item.isVoid).flatMap Item.places

/-- The text from `p` on with spaces at the given places, where it has no line feeds. -/
def veil (places : List Position) (p : Position) : List Char → List Char
  | [] => []
  | c :: cs => (if c ≠ '\n' ∧ p ∈ places then ' ' else c) :: veil places (p.next c) cs

/-- The source with spaces for its comments and for its characters that are no token. -/
def blanked (source : String) : String :=
  String.ofList (veil (voidPlaces (items { keepComments := true } source)) .start source.toList)

example : blanked "a#/*\n*/'#'//b\n#/*" = "a   \n  '#'   \n /*" := by decide +kernel

section Veil
variable {places : List Position} {p : Position} {text : List Char}

theorem veil_append (places : List Position) (p : Position) (s t : List Char) :
    veil places p (s ++ t) = veil places p s ++ veil places (p.after s) t := by
  induction s generalizing p with
  | nil => rfl
  | cons c s ih => rw [List.cons_append, veil, ih, veil, List.cons_append, Position.after_cons]

def veilChar (c : Char) : Char :=
  if c = '\n' then c else ' '

theorem veil_of_mem (h : ∀ q ∈ p.along text, q ∈ places) :
    veil places p text = text.map veilChar := by
  induction text generalizing p with
  | nil => rfl
  | cons c text ih =>
    obtain ⟨hp, hothers⟩ := List.forall_mem_cons.mp h
    rw [veil, ih hothers, List.map_cons]
    by_cases hc : c = '\n' <;> simp [veilChar, hc, hp]

theorem veil_of_notMem (h : ∀ q ∈ p.along text, q ∉ places) : veil places p text = text := by
  induction text generalizing p with
  | nil => rfl
  | cons c text ih =>
    obtain ⟨hp, hothers⟩ := List.forall_mem_cons.mp h
    simp [veil, hp, ih hothers]

theorem next_veilChar (p : Position) (c : Char) : p.next (veilChar c) = p.next c := by
  by_cases hc : c = '\n'
  · rw [veilChar, if_pos hc]
  · simp [veilChar, Position.next, hc]

theorem after_veilChar (p : Position) (text : List Char) :
    p.after (text.map veilChar) = p.after text := by
  induction text generalizing p with
  | nil => rfl
  | cons c text ih =>
    rw [List.map_cons, Position.after_cons, next_veilChar, ih, Position.after_cons]

theorem isBlank_veilChar (c : Char) : Text.isBlank (veilChar c) = true := by
  unfold veilChar
  split
  · rename_i hc
    rw [hc]
    exact Text.isBlank_lineFeed
  · exact Text.isBlank_space

end Veil

namespace Lexeme

def isVoid (l : Lexeme) : Bool :=
  match l.kind with
  | .token kind => kind == .comment
  | .unexpected _ => true
  | _ => false

def veiled (l : Lexeme) : List Char :=
  if l.isVoid then l.text.map veilChar else l.text

theorem after_veiled (l : Lexeme) (p : Position) : p.after l.veiled = p.after l.text := by
  unfold veiled
  split
  · exact after_veilChar p l.text
  · rfl

end Lexeme

/-- The void places of pieces: those of each void one. -/
theorem voidPlaces_cons (markEnd : Bool) (p : Position) (c : Char) (cs : List Char)
    (ls : List Lexeme) :
    voidPlaces (itemsFrom ⟨true, markEnd⟩ p ((Lexeme.first c cs).1 :: ls)) =
      (if (Lexeme.first c cs).1.isVoid then p.along (Lexeme.first c cs).1.text else []) ++
        voidPlaces (itemsFrom ⟨true, markEnd⟩ (p.after (Lexeme.first c cs).1.text) ls) := by
  have hfits := Lexeme.fits_first c cs
  rw [voidPlaces, itemsFrom, List.filter_append, List.flatMap_append]
  congr 1
  rcases hl : (Lexeme.first c cs).1 with ⟨kind, text⟩
  rw [hl] at hfits
  cases kind with
  | blank | openString | openComment => rfl
  | unexpected d =>
    obtain rfl : text = [d] := hfits
    rfl
  | token kind =>
    by_cases hkind : kind = .comment
    · simp [Lexeme.item?, Item.isVoid, Item.places, Lexeme.isVoid, hkind]
    · simp [Lexeme.item?, Item.isVoid, Lexeme.isVoid, hkind]

/-- No void place stands before the text. -/
theorem not_precedes_voidPlaces {markEnd : Bool} {p q : Position} {text : List Char}
    (h : q ∈ voidPlaces (itemsFrom ⟨true, markEnd⟩ p (lexemes text))) : ¬q.Precedes p := by
  fun_induction lexemes text generalizing p with
  | case1 => cases markEnd <;> cases h
  | case2 c cs ih =>
    rw [voidPlaces_cons] at h
    rcases List.mem_append.mp h with h | h
    · split at h
      · exact Position.not_precedes_along h
      · cases h
    · intro hq
      exact ih h (hq.trans (p.precedes_after (Lexeme.first_text_ne_nil c cs)))

/-- At the places of a piece only its own count, neither those before nor those behind it. -/
theorem veil_piece {l : Lexeme} {p : Position} {earlier later : List Position}
    (hearlier : ∀ q ∈ earlier, q.Precedes p)
    (hlater : ∀ q ∈ later, ¬q.Precedes (p.after l.text)) :
    veil (earlier ++ ((if l.isVoid then p.along l.text else []) ++ later)) p l.text =
      l.veiled := by
  unfold Lexeme.veiled
  split
  · apply veil_of_mem
    intro q hq
    exact List.mem_append_right _ (List.mem_append_left _ hq)
  · apply veil_of_notMem
    intro q hq hmem
    rcases List.mem_append.mp hmem with hmem | hmem
    · exact Position.not_precedes_along hq (hearlier q hmem)
    · exact hlater q hmem (Position.along_precedes hq)

/-- Spaces at the void places of a text are spaces for its void pieces. Whatever is void before the
text does not matter. -/
theorem veil_lexemes {markEnd : Bool} {p : Position} {earlier : List Position} (text : List Char)
    (hearlier : ∀ q ∈ earlier, q.Precedes p) :
    veil (earlier ++ voidPlaces (itemsFrom ⟨true, markEnd⟩ p (lexemes text))) p text =
      (lexemes text).flatMap Lexeme.veiled := by
  fun_induction lexemes text generalizing p earlier with
  | case1 => rfl
  | case2 c cs ih =>
    have hpiece := @veil_piece (Lexeme.first c cs).1 p earlier _ hearlier
      fun q => @not_precedes_voidPlaces markEnd _ q (Lexeme.first c cs).2
    have hbehind := p.precedes_after (Lexeme.first_text_ne_nil c cs)
    have hpassed : ∀ q ∈ earlier ++
        (if (Lexeme.first c cs).1.isVoid then p.along (Lexeme.first c cs).1.text else []),
        q.Precedes (p.after (Lexeme.first c cs).1.text) := by
      intro q hq
      rcases List.mem_append.mp hq with hq | hq
      · exact (hearlier q hq).trans hbehind
      · split at hq
        · exact Position.along_precedes hq
        · cases hq
    have hrest := ih hpassed
    rw [List.append_assoc] at hrest
    rw [voidPlaces_cons, List.flatMap_cons, ← hpiece, ← hrest, ← veil_append, Lexeme.first_append]

/-- A blanked source is made of the pieces of the source, the void ones with spaces for them. -/
theorem toList_blanked (source : String) :
    (blanked source).toList = (lexemes source.toList).flatMap Lexeme.veiled := by
  have hveil := @veil_lexemes true .start [] source.toList (by simp)
  rw [blanked, String.toList_ofList]
  exact hveil

section Rereading
variable {c : Char} {cs : List Char}

/-- Behind each piece the veiled text goes on as the text did, or with white space. -/
theorem resumes_veiled (text : List Char) :
    Lexeme.Resumes text ((lexemes text).flatMap Lexeme.veiled) := by
  cases text with
  | nil => simp [Lexeme.Resumes]
  | cons c cs =>
    intro b hb
    rw [lexemes_cons, List.flatMap_cons] at hb
    obtain ⟨tail, htail⟩ := List.head?_eq_some_iff.mp (Lexeme.head?_text_first c cs)
    unfold Lexeme.veiled at hb
    split at hb
    · left
      rw [htail] at hb
      obtain rfl : veilChar c = b := Option.some.inj hb
      exact isBlank_veilChar c
    · right
      rw [htail] at hb
      exact hb

/-- Only a comment begins with two slashes. -/
theorem kind_of_slashes {kind : TokenKind} {text rest : List Char}
    (h : Lexeme.first c cs = (⟨.token kind, text⟩, rest)) (hslashes : ['/', '/'] <+: text) :
    kind = .comment := by
  have happend := Lexeme.first_append c cs
  obtain ⟨body, rfl⟩ := hslashes
  rw [h] at happend
  obtain ⟨rfl, rfl⟩ := List.cons.inj happend
  exact (Lexeme.token_eq_iff.mp h).1.symm

/-- A piece that is neither white space nor void is read again in front of the veiled rest. -/
theorem lexemes_veiled (hblank : (Lexeme.first c cs).1.kind ≠ .blank)
    (hvoid : (Lexeme.first c cs).1.isVoid = false) :
    lexemes ((Lexeme.first c cs).1.text ++
        (lexemes (Lexeme.first c cs).2).flatMap Lexeme.veiled) =
      (Lexeme.first c cs).1 :: lexemes ((lexemes (Lexeme.first c cs).2).flatMap Lexeme.veiled) := by
  have hfits := Lexeme.fits_first c cs
  have happend := Lexeme.first_append c cs
  rcases hl : Lexeme.first c cs with ⟨⟨kind, text⟩, rest⟩
  rw [hl] at hblank hvoid hfits happend
  cases kind with
  | blank => exact absurd rfl hblank
  | unexpected d => cases hvoid
  | token kind =>
    refine Lexeme.reread_first hl (resumes_veiled rest) ?_
    intro hslashes
    rw [kind_of_slashes hl hslashes] at hvoid
    cases hvoid
  | openString | openComment =>
    -- nothing is left behind a piece that never ends
    obtain rfl : rest = [] := hfits
    rw [List.append_nil] at happend
    rw [lexemes_nil, List.flatMap_nil, List.append_nil, happend, lexemes_cons, hl]

end Rereading

/-- Of a piece that is not void, a scan hands out the same whether or not it keeps comments, and
nothing void. -/
theorem item?_of_not_void {l : Lexeme} (h : l.isVoid = false) (keep keep' markEnd : Bool)
    (p : Position) :
    l.item? ⟨keep, markEnd⟩ p = l.item? ⟨keep', markEnd⟩ p ∧
      (l.item? ⟨keep', markEnd⟩ p).toList.filter (!·.isVoid) =
        (l.item? ⟨keep', markEnd⟩ p).toList := by
  obtain ⟨kind, text⟩ := l
  cases kind with
  | blank | openString | openComment => exact ⟨rfl, rfl⟩
  | unexpected d => cases h
  | token kind =>
    have hkind : kind ≠ .comment := by simpa [Lexeme.isVoid] using h
    simp [Lexeme.item?, Item.isVoid, hkind]

/-- Of a void piece, a scan hands out nothing that is not void. -/
theorem item?_of_void {l : Lexeme} (h : l.isVoid = true) (options : ScanOptions) (p : Position) :
    (l.item? options p).toList.filter (!·.isVoid) = [] := by
  obtain ⟨kind, text⟩ := l
  cases kind with
  | blank | openString | openComment => cases h
  | unexpected d => rfl
  | token kind =>
    obtain rfl : kind = .comment := by simpa [Lexeme.isVoid] using h
    cases hkeep : options.keepComments <;> simp [Lexeme.item?, Item.isVoid, hkeep]

/-- The items of a veiled text are those of the text that are not void. -/
theorem itemsFrom_veiled (keep keep' markEnd : Bool) (p : Position) (text : List Char) :
    itemsFrom ⟨keep, markEnd⟩ p (lexemes ((lexemes text).flatMap Lexeme.veiled)) =
      (itemsFrom ⟨keep', markEnd⟩ p (lexemes text)).filter (!·.isVoid) := by
  fun_induction lexemes text generalizing p with
  | case1 =>
    rw [List.flatMap_nil, lexemes_nil]
    cases markEnd <;> rfl
  | case2 c cs ih =>
    rw [itemsFrom, List.filter_append, ← ih, List.flatMap_cons]
    cases hvoid : (Lexeme.first c cs).1.isVoid with
    | true =>
      have hspaces : ∀ b ∈ (Lexeme.first c cs).1.veiled, Text.isBlank b = true := by
        rw [Lexeme.veiled, if_pos hvoid]
        exact List.forall_mem_map.mpr fun b _ => isBlank_veilChar b
      rw [itemsFrom_blank hspaces, Lexeme.after_veiled, item?_of_void hvoid, List.nil_append]
    | false =>
      obtain ⟨hsame, hkept⟩ := item?_of_not_void hvoid keep keep' markEnd p
      have htext : (Lexeme.first c cs).1.veiled = (Lexeme.first c cs).1.text := by
        rw [Lexeme.veiled, hvoid]
        rfl
      rw [hkept, ← hsame, htext]
      by_cases hblank : (Lexeme.first c cs).1.kind = .blank
      · have hspace : ∀ b ∈ (Lexeme.first c cs).1.text, Text.isBlank b = true := by
          have hfits := Lexeme.fits_first c cs
          rw [Lexeme.Fits, hblank] at hfits
          rw [hfits.1]
          exact List.forall_mem_singleton.mpr hfits.2
        rw [itemsFrom_blank hspace, Lexeme.item?, hblank]
        rfl
      · rw [lexemes_veiled hblank hvoid, itemsFrom]

/-- A source and the same source with spaces for its comments and for its characters that are no
token have the same other items, whether comments are kept or not: the same tokens with the same
texts at the same places, the same string or comment that never ends, and the same end mark. They
come in this order when they are asked for one at a time. -/
theorem blanking_keeps_others (keep keep' markEnd : Bool) (source : String) :
    items ⟨keep, markEnd⟩ (blanked source) =
      (items ⟨keep', markEnd⟩ source).filter (!·.isVoid) ∧
    ∀ n, ((Scanner.ofSource ⟨keep, markEnd⟩ (blanked source)).pull n).1 =
      (List.range n).map (((items ⟨keep', markEnd⟩ source).filter (!·.isVoid))[·]?) := by
  have hitems : items ⟨keep, markEnd⟩ (blanked source) =
      (items ⟨keep', markEnd⟩ source).filter (!·.isVoid) := by
    rw [items, toList_blanked, itemsFrom_veiled keep keep']
    rfl
  refine ⟨hitems, ?_⟩
  intro n
  have hpending : (Scanner.ofSource ⟨keep, markEnd⟩ (blanked source)).pending =
      (items ⟨keep', markEnd⟩ source).filter (!·.isVoid) := hitems
  rw [Scanner.pull_eq, hpending]

end SyntaxAudit
