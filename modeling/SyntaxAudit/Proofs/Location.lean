import SyntaxAudit.Proofs.Reading
import SyntaxAudit.Proofs.SourceOrder
import SyntaxAudit.Span

/-! Places and offsets agree: the line and the column that a scan counts for an item lead back to
the byte at which the item begins, and the span drawn there covers its first character. -/
namespace SyntaxAudit

/-- The length of a text in bytes is that of its UTF-8 form. -/
theorem byteLength_eq_utf8ByteSize (text : List Char) :
    byteLength text = (String.ofList text).utf8ByteSize := by
  induction text with
  | nil => rfl
  | cons c text ih =>
    rw [byteLength_cons, String.ofList_cons, String.utf8ByteSize_append,
      String.utf8ByteSize_singleton, ih]

/-- The walk to the place behind a beginning of the text stops there: it passes no place twice. -/
theorem seek_after (p : Position) (offset : Nat) (before rest : List Char) :
    seek (p.after before) p offset (before ++ rest) = (offset + byteLength before, rest) := by
  induction before generalizing p offset with
  | nil =>
    cases rest with
    | nil => rfl
    | cons c rest => simp [seek]
  | cons c before ih =>
    have hne : p ≠ p.after (c :: before) := (p.precedes_after (List.cons_ne_nil c before)).ne
    rw [List.cons_append, seek, if_neg hne, Position.after_cons, ih, byteLength_cons,
      Nat.add_assoc]

section Places
variable {source : String} {before rest : List Char}

theorem seek_behind (h : source.toList = before ++ rest) :
    seek (.behind before) .start 0 source.toList =
      ((String.ofList before).utf8ByteSize, rest) := by
  have hplace : Position.behind before = .after .start before := Position.behind_append [] before
  rw [h, hplace, seek_after, Nat.zero_add, byteLength_eq_utf8ByteSize]

theorem byteOffset_behind (h : source.toList = before ++ rest) :
    byteOffset source (.behind before) = (String.ofList before).utf8ByteSize := by
  rw [byteOffset, seek_behind h]

/-- The span at a place covers the character there, if one stands there that ends no line. -/
theorem atPosition_behind (h : source.toList = before ++ rest) (hline : rest.head? ≠ some '\n') :
    Span.atPosition source (.behind before) =
      ⟨(String.ofList before).utf8ByteSize, (rest.head?.map Char.utf8Size).getD 0⟩ := by
  rw [Span.atPosition, seek_behind h]
  cases rest with
  | nil => rfl
  | cons c rest =>
    have hc : c ≠ '\n' := by simpa using hline
    simp [hc]

end Places

section Reading
variable {options : ScanOptions} {source : String} {before span : List Char} {item : Item}

/-- The place of an item leads to the stretch of text it is read from and to its first character. -/
theorem ReadFrom.location (h : ReadFrom options source before span item) :
    ∃ rest, item.LiesIn options source before span rest ∧
      byteOffset source item.position = (String.ofList before).utf8ByteSize ∧
      Span.atPosition source item.position =
        ⟨(String.ofList before).utf8ByteSize, (span.head?.map Char.utf8Size).getD 0⟩ := by
  cases h with
  | piece hpieces hitem =>
    obtain ⟨c, cs, hsource, rfl, -⟩ := Lexeme.first_of_lexemes hpieces
    obtain ⟨htells, hplace, hvisible⟩ := Lexeme.tells_first hitem
    have hline : (c :: cs).head? ≠ some '\n' := by
      rintro ⟨⟩
      rw [Text.isBlank_lineFeed] at hvisible
      cases hvisible
    refine ⟨(Lexeme.first c cs).2, ⟨.piece hpieces hitem, ?_, htells⟩, ?_, ?_⟩
    · rw [hsource, Lexeme.first_append]
    · rw [hplace, byteOffset_behind hsource]
    · rw [hplace, atPosition_behind hsource hline, Lexeme.head?_text_first]
      rfl
  | endMark hend =>
    have hsource : source.toList = source.toList ++ [] := (List.append_nil _).symm
    obtain ⟨-, rfl⟩ := mem_endItems.mp hend
    refine ⟨[], ⟨.endMark hend, hsource, rfl, by simp [Token.endAt], fun _ => rfl⟩, ?_, ?_⟩
    · exact byteOffset_behind hsource
    · exact atPosition_behind hsource (by simp)

/-- Every item has its place in the text. -/
theorem location_of_item (h : item ∈ items options source) :
    ∃ before span rest, item.LiesIn options source before span rest ∧
      byteOffset source item.position = (String.ofList before).utf8ByteSize ∧
      Span.atPosition source item.position =
        ⟨(String.ofList before).utf8ByteSize, (span.head?.map Char.utf8Size).getD 0⟩ := by
  obtain ⟨before, span, hread⟩ := exists_readFrom h
  exact ⟨before, span, hread.location⟩

/-- The end mark lies behind the whole text. -/
theorem Item.LiesIn.before_eq {rest : List Char} {t : Token}
    (h : (Item.token t).LiesIn options source before span rest) (ht : t.kind = .endOfInput) :
    String.ofList before = source := by
  obtain ⟨-, hnone, hlast⟩ := h.tells
  obtain rfl := hnone.mpr ht
  have hsource := h.source_eq
  rw [hlast rfl, List.append_nil, List.append_nil] at hsource
  rw [← hsource, String.ofList_toList]

end Reading

/-- The place of every item of a scan has the offset at which the item begins in the source, which
is its length for the end mark. So the span of a violation covers the first character of a token,
and nothing if the token is the end mark; and the span of a lexical error covers the first character
of what is wrong. -/
theorem locations_resolve :
    (∀ (options : ScanOptions) (source : String) (n : Nat) (item : Item),
      some item ∈ ((Scanner.ofSource options source).pull n).1 →
      ∃ before span rest, item.LiesIn options source before span rest ∧
        byteOffset source item.position = (String.ofList before).utf8ByteSize ∧
        ∀ t, item = .token t → t.kind = .endOfInput →
          byteOffset source item.position = source.utf8ByteSize) ∧
    (∀ (options : CheckOptions) (source : String) (outcome : Outcome),
      checkSource options source = .ok outcome →
      ∃ tokens, scan options.scan source = .ok tokens ∧ ∀ v ∈ outcome.violations,
        ∃ t ∈ tokens, ∃ before span rest,
          (Item.token t).LiesIn options.scan source before span rest ∧ v.position = t.position ∧
          (t.kind = .endOfInput ∧ Span.atPosition source v.position = ⟨source.utf8ByteSize, 0⟩ ∨
            ∃ c ∈ span.head?, Span.atPosition source v.position =
              ⟨(String.ofList before).utf8ByteSize, c.utf8Size⟩)) ∧
    ∀ (options : CheckOptions) (source : String) (errors : List LexError),
      checkSource options source = .error errors → ∀ e ∈ errors,
        ∃ before span rest, (Item.error e).LiesIn options.scan source before span rest ∧
          ∃ c ∈ span.head?, Span.atPosition source e.position =
            ⟨(String.ofList before).utf8ByteSize, c.utf8Size⟩ := by
  refine ⟨?_, ?_, ?_⟩
  · intro options source n item h
    obtain ⟨before, span, rest, hlies, hoffset, -⟩ := location_of_item (mem_items_of_pull h)
    refine ⟨before, span, rest, hlies, hoffset, ?_⟩
    rintro t rfl ht
    rw [hoffset, hlies.before_eq ht]
  · intro options source outcome h
    obtain ⟨tokens, hscan, rfl⟩ := scan_of_checkSource h
    refine ⟨tokens, hscan, ?_⟩
    intro v hv
    obtain ⟨t, ht, hplace⟩ := token_of_violation hv
    obtain ⟨before, span, rest, hlies, -, hspan⟩ := location_of_item (mem_items_of_token hscan ht)
    refine ⟨t, ht, before, span, rest, hlies, hplace, ?_⟩
    rw [hplace]
    obtain ⟨-, hnone, -⟩ := hlies.tells
    cases span with
    | nil =>
      left
      have hend := hnone.mp rfl
      rw [hlies.before_eq hend] at hspan
      exact ⟨hend, hspan⟩
    | cons c cs =>
      right
      exact ⟨c, rfl, hspan⟩
  · intro options source errors h e he
    obtain ⟨before, span, rest, hlies, -, hspan⟩ :=
      location_of_item (mem_items_of_error (scan_of_checkSource_error h) he)
    refine ⟨before, span, rest, hlies, ?_⟩
    obtain ⟨c, hc⟩ := hlies.tells.head?_error
    rw [hc] at hspan
    exact ⟨c, hc, hspan⟩

def accented : String := "'\u00e9\n' x"

def accentedTokens : List Token :=
  [⟨.string, "'\u00e9\n'", ⟨1, 1⟩⟩, ⟨.identifier, "x", ⟨2, 3⟩⟩, ⟨.endOfInput, "", ⟨2, 4⟩⟩]

theorem locations_resolve_accented :
    (∃ before span rest,
      (Item.token ⟨.identifier, "x", ⟨2, 3⟩⟩).LiesIn {} accented before span rest ∧
      byteOffset accented ⟨2, 3⟩ = (String.ofList before).utf8ByteSize) ∧
    (∃ t before span rest, (Item.token t).LiesIn {} accented before span rest ∧
      (⟨2, 4⟩ : Position) = t.position ∧
      (t.kind = .endOfInput ∧ Span.atPosition accented ⟨2, 4⟩ = ⟨accented.utf8ByteSize, 0⟩ ∨
        ∃ c ∈ span.head?, Span.atPosition accented ⟨2, 4⟩ =
          ⟨(String.ofList before).utf8ByteSize, c.utf8Size⟩)) ∧
    ∃ before span rest,
      (Item.error ⟨.unexpectedCharacter '\u00e9', ⟨1, 3⟩⟩).LiesIn {} "x \u00e9" before span rest ∧
      ∃ c ∈ span.head?, Span.atPosition "x \u00e9" ⟨1, 3⟩ =
        ⟨(String.ofList before).utf8ByteSize, c.utf8Size⟩ := by
  obtain ⟨hitem, hviolation, herror⟩ := locations_resolve
  have hitems : items {} accented = accentedTokens.map .token := by decide +kernel
  have hpull : some (.token ⟨.identifier, "x", ⟨2, 3⟩⟩) ∈
      ((Scanner.ofSource {} accented).pull 2).1 := by
    have hpending : (Scanner.ofSource {} accented).pending = accentedTokens.map .token := hitems
    rw [Scanner.pull_eq, hpending]
    decide
  have hcheck : checkSource {} accented = .ok (checkTokens .anyPunctuation accentedTokens) := by
    rw [checkSource, scan, hitems]
    rfl
  have hfound : items {} "x \u00e9" = [.token ⟨.identifier, "x", ⟨1, 1⟩⟩,
      .error ⟨.unexpectedCharacter '\u00e9', ⟨1, 3⟩⟩, .token ⟨.endOfInput, "", ⟨1, 4⟩⟩] := by
    decide +kernel
  have hfail : checkSource {} "x \u00e9" = .error [⟨.unexpectedCharacter '\u00e9', ⟨1, 3⟩⟩] := by
    rw [checkSource, scan, hfound]
    rfl
  refine ⟨?_, ?_, ?_⟩
  · obtain ⟨before, span, rest, hlies, hoffset, -⟩ := hitem {} accented 2 _ hpull
    exact ⟨before, span, rest, hlies, hoffset⟩
  · obtain ⟨tokens, -, hall⟩ := hviolation {} accented _ hcheck
    have hmem : ⟨.expectedSemicolon, ⟨2, 4⟩⟩ ∈
        (checkTokens .anyPunctuation accentedTokens).violations := by
      rw [violations_checkTokens]
      decide
    obtain ⟨t, -, hspan⟩ := hall _ hmem
    exact ⟨t, hspan⟩
  · exact herror {} _ _ hfail _ (List.mem_singleton_self _)

example : Span.atPosition accented ⟨2, 3⟩ = ⟨6, 1⟩ ∧ Span.atPosition accented ⟨2, 4⟩ = ⟨7, 0⟩ ∧
    Span.atPosition "x \u00e9" ⟨1, 3⟩ = ⟨2, 2⟩ := by
  decide

end SyntaxAudit
