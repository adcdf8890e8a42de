import SyntaxAudit.Proofs.Location

/-! Offsets undo places: whatever line and column are asked for, the walk through the text stops at
the one character that stands there, or at the end if there is none, and so never inside a
character. -/
namespace SyntaxAudit

/-- The character `c` of a source stands at the place `p`, behind `before`. -/
structure Position.Shows (p : Position) (source : String) (before : List Char) (c : Char)
    (rest : List Char) : Prop where
  source_eq : source.toList = before ++ c :: rest
  place_eq : Position.behind before = p

/-- A walk to a place at which no character stands goes through the whole text. -/
theorem seek_nowhere {target p : Position} {text : List Char}
    (h : ∀ before c rest, text = before ++ c :: rest → p.after before ≠ target) (offset : Nat) :
    seek target p offset text = (offset + byteLength text, []) := by
  induction text generalizing p offset with
  | nil => rfl
  | cons c text ih =>
    have hne : p ≠ target := h [] c text rfl
    have hlater : ∀ before d rest, text = before ++ d :: rest → (p.next c).after before ≠ target :=
      fun before d rest htext => h (c :: before) d rest (congrArg (List.cons c) htext)
    rw [seek, if_neg hne, ih hlater, byteLength_cons, Nat.add_assoc]

section Places
variable {source : String} {p : Position} {before rest : List Char} {c : Char}

theorem Position.Shows.seek_eq (h : p.Shows source before c rest) :
    seek p .start 0 source.toList = ((String.ofList before).utf8ByteSize, c :: rest) := by
  rw [← h.place_eq, seek_behind h.source_eq]

/-- At most one character stands at a place, for the walk to the place stops at each of them. -/
theorem Position.Shows.unique (h : p.Shows source before c rest) {before' rest' : List Char}
    {c' : Char} (h' : p.Shows source before' c' rest') :
    before' = before ∧ c' = c ∧ rest' = rest := by
  have hstop : c' :: rest' = c :: rest :=
    congrArg Prod.snd (h'.seek_eq.symm.trans h.seek_eq)
  have hsource : before' ++ c' :: rest' = before ++ c :: rest :=
    h'.source_eq.symm.trans h.source_eq
  rw [hstop] at hsource
  exact ⟨List.append_cancel_right hsource, List.cons.inj hstop⟩

theorem seek_of_not_shows (h : ∀ before c rest, ¬p.Shows source before c rest) :
    seek p .start 0 source.toList = (source.utf8ByteSize, []) := by
  have hnowhere : ∀ before c rest, source.toList = before ++ c :: rest →
      Position.start.after before ≠ p := by
    intro before c rest hsource hplace
    refine h before c rest ⟨hsource, ?_⟩
    rw [← hplace]
    exact Position.behind_append [] before
  rw [seek_nowhere hnowhere, byteLength_eq_utf8ByteSize, String.ofList_toList, Nat.zero_add]

/-- Whether or not a character stands at the place, the walk cuts the source in two. -/
theorem seek_splits (source : String) (p : Position) :
    ∃ before rest, source.toList = before ++ rest ∧
      seek p .start 0 source.toList = ((String.ofList before).utf8ByteSize, rest) := by
  by_cases h : ∃ before c rest, p.Shows source before c rest
  · obtain ⟨before, c, rest, hshows⟩ := h
    exact ⟨before, c :: rest, hshows.source_eq, hshows.seek_eq⟩
  · refine ⟨source.toList, [], (List.append_nil _).symm, ?_⟩
    rw [String.ofList_toList]
    exact seek_of_not_shows fun before c rest hshows => h ⟨before, c, rest, hshows⟩

end Places

/-- How many bytes are marked where a source goes on with the given text: those of the next
character, unless it ends the line. -/
def markedLength : List Char → Nat
  | [] => 0
  | c :: _ => if c = '\n' then 0 else c.utf8Size

theorem atPosition_of_seek {source : String} {p : Position} {offset : Nat} {rest : List Char}
    (h : seek p .start 0 source.toList = (offset, rest)) :
    byteOffset source p = offset ∧ Span.atPosition source p = ⟨offset, markedLength rest⟩ := by
  rw [byteOffset, Span.atPosition, h]
  cases rest <;> exact ⟨rfl, rfl⟩

/-- The mark covers nothing or the next character, so it ends where the text can be cut. -/
theorem exists_marked (rest : List Char) :
    ∃ marked others, rest = marked ++ others ∧
      markedLength rest = (String.ofList marked).utf8ByteSize := by
  cases rest with
  | nil => exact ⟨[], [], rfl, rfl⟩
  | cons c rest =>
    rw [markedLength]
    split
    · exact ⟨[], c :: rest, rfl, rfl⟩
    · refine ⟨[c], rest, rfl, ?_⟩
      rw [← String.singleton_eq_ofList, String.utf8ByteSize_singleton]

/-- A source can be sliced wherever it can be cut between two characters. -/
theorem exists_pos {source : String} {before rest : List Char}
    (h : source.toList = before ++ rest) :
    ∃ cut : source.Pos, source.pos? ⟨(String.ofList before).utf8ByteSize⟩ = some cut ∧
      (source.sliceFrom cut).copy.toList = rest := by
  have happend : source = String.ofList before ++ String.ofList rest := by
    rw [← String.ofList_append, ← h, String.ofList_toList]
  have hsplits := String.Pos.splits_ofEqAppend happend
  refine ⟨.ofEqAppend happend, ?_, ?_⟩
  · have hvalid : String.Pos.Raw.isValidForSlice source.toSlice
        ⟨(String.ofList before).utf8ByteSize⟩ = true := by
      rw [String.Pos.Raw.isValidForSlice_eq_true_iff, String.Pos.Raw.isValidForSlice_toSlice_iff,
        String.Pos.Raw.isValid_iff_exists_append]
      exact ⟨_, _, happend, rfl⟩
    rw [String.pos?, String.Slice.pos?, dif_pos hvalid]
    rfl
  · rw [hsplits.copy_sliceFrom_eq, String.toList_ofList]

/-- The offset of a place is that of the one character whose line and column it is, and the length
of the source if there is none. So it is always an offset at which the source can be sliced, and the
span at the place covers the character that the slice begins with, if it does not end the line, and
ends where the source can be sliced again. -/
theorem offsets_undo_places (source : String) (p : Position) :
    (∀ before c rest, p.Shows source before c rest →
      byteOffset source p = (String.ofList before).utf8ByteSize ∧
      (Span.atPosition source p).length = (if c = '\n' then 0 else c.utf8Size) ∧
      ∀ before' c' rest', p.Shows source before' c' rest' →
        before' = before ∧ c' = c ∧ rest' = rest) ∧
    ((∀ before c rest, ¬p.Shows source before c rest) →
      byteOffset source p = source.utf8ByteSize ∧ (Span.atPosition source p).length = 0) ∧
    byteOffset source p ≤ source.utf8ByteSize ∧
    ∃ start stop : source.Pos,
      source.pos? ⟨byteOffset source p⟩ = some start ∧
      Span.atPosition source p =
        ⟨byteOffset source p, markedLength (source.sliceFrom start).copy.toList⟩ ∧
      source.pos? ⟨(Span.atPosition source p).offset + (Span.atPosition source p).length⟩ =
        some stop := by
  refine ⟨?_, ?_, ?_⟩
  · intro before c rest hshows
    obtain ⟨hoffset, hspan⟩ := atPosition_of_seek hshows.seek_eq
    refine ⟨hoffset, ?_, fun _ _ _ hother => hshows.unique hother⟩
    rw [hspan]
    rfl
  · intro hnone
    obtain ⟨hoffset, hspan⟩ := atPosition_of_seek (seek_of_not_shows hnone)
    refine ⟨hoffset, ?_⟩
    rw [hspan]
    rfl
  · obtain ⟨before, rest, hsource, hseek⟩ := seek_splits source p
    obtain ⟨hoffset, hspan⟩ := atPosition_of_seek hseek
    obtain ⟨marked, others, rfl, hlength⟩ := exists_marked rest
    obtain ⟨start, hstart, hslice⟩ := exists_pos hsource
    obtain ⟨stop, hstop, -⟩ := exists_pos (hsource.trans (List.append_assoc ..).symm)
    rw [String.ofList_append, String.utf8ByteSize_append] at hstop
    refine ⟨?_, start, stop, ?_, ?_, ?_⟩
    · rw [hoffset, ← @String.ofList_toList source, hsource, String.ofList_append,
        String.utf8ByteSize_append]
      exact Nat.le_add_right _ _
    · rw [hoffset, hstart]
    · rw [hspan, hoffset, hslice]
    · rw [hspan, hlength, hstop]

def raised : String := "\u00e9\nx"

/-- The line feed stands at column two, behind two bytes, and no character at column zero. -/
theorem offsets_undo_places_raised :
    (⟨1, 2⟩ : Position).Shows raised ['\u00e9'] '\n' ['x'] ∧
    byteOffset raised ⟨1, 2⟩ = 2 ∧ (Span.atPosition raised ⟨1, 2⟩).length = 0 ∧
    (∀ before c rest, ¬(⟨2, 0⟩ : Position).Shows raised before c rest) ∧
    byteOffset raised ⟨2, 0⟩ = 4 := by
  have hshows : (⟨1, 2⟩ : Position).Shows raised ['\u00e9'] '\n' ['x'] := ⟨rfl, rfl⟩
  have hnone : ∀ before c rest, ¬(⟨2, 0⟩ : Position).Shows raised before c rest := by
    rintro before c rest ⟨-, hplace⟩
    have hcolumn := congrArg Position.column hplace
    simp only [Position.behind] at hcolumn
    omega
  obtain ⟨hoffset, hlength, -⟩ := (offsets_undo_places raised ⟨1, 2⟩).1 _ _ _ hshows
  exact ⟨hshows, hoffset, hlength, hnone, ((offsets_undo_places raised ⟨2, 0⟩).2.1 hnone).1⟩

end SyntaxAudit
