import SyntaxAudit.Proofs.JsonText
import SyntaxAudit.Proofs.SelfDelimiting

/-! The JSON grammar is unambiguous: however it is spaced and escaped, a text stands for at most one
document. -/
namespace SyntaxAudit.Json

/-- Space in front of what does not begin with space can be told apart from it. -/
theorem gap_append_inj {gap gap' r s : List Char} (hgap : IsSpace gap) (hgap' : IsSpace gap')
    (hr : ∀ c ∈ r.head?, ¬IsSpace [c]) (hs : ∀ c ∈ s.head?, ¬IsSpace [c])
    (h : gap ++ r = gap' ++ s) : r = s := by
  have hone (c : Char) : IsSpace [c] ↔ c = ' ' ∨ c = '\t' ∨ c = '\n' ∨ c = '\r' :=
    List.forall_mem_singleton
  simp only [hone] at hr hs
  refine (@append_inj_of_stops (fun c => decide (c = ' ' ∨ c = '\t' ∨ c = '\n' ∨ c = '\r'))
    gap gap' r s h ?_ ?_ ?_ ?_).2
  · exact fun c hc => decide_eq_true (hgap c hc)
  · exact fun c hc => decide_eq_true (hgap' c hc)
  · exact fun c hc => decide_eq_false (hr c hc)
  · exact fun c hc => decide_eq_false (hs c hc)

section Strings

theorem letter_inj {c d : Char} {w v r s : List Char} (hc : Letter c w) (hd : Letter d v)
    (h : w ++ r = v ++ s) : c = d ∧ r = s := by
  have hletter {c letter : Char} (hmem : (letter, c) ∈ escapes) :=
    @letter_of_escapes (escapes.map Prod.swap) (by decide) c letter (List.mem_map_of_mem hmem)
  cases hc with
  | plain _ _ hbackslash =>
    cases hd with
    | plain => exact List.cons.inj h
    | short => exact absurd (List.cons.inj h).1 hbackslash
    | code => exact absurd (List.cons.inj h).1 hbackslash
  | short hmem =>
    cases hd with
    | plain _ _ hbackslash => exact absurd (List.cons.inj h).1.symm hbackslash
    | short hmem' =>
      obtain ⟨rfl, hrest⟩ := List.cons.inj (List.cons.inj h).2
      exact ⟨(hletter hmem).2 d (List.mem_map_of_mem hmem'), hrest⟩
    | code => exact absurd (List.cons.inj (List.cons.inj h).2).1 (hletter hmem).1
  | code h₁ h₂ h₃ h₄ hcode =>
    cases hd with
    | plain _ _ hbackslash => exact absurd (List.cons.inj h).1.symm hbackslash
    | short hmem' => exact absurd (List.cons.inj (List.cons.inj h).2).1.symm (hletter hmem').1
    | code h₁' h₂' h₃' h₄' hcode' =>
      simp only [List.cons_append, List.cons.injEq, true_and, List.nil_append] at h
      obtain ⟨hd₁, hd₂, hd₃, hd₄, hrest⟩ := h
      rw [digitChar_injective h₁ h₁' hd₁, digitChar_injective h₂ h₂' hd₂,
        digitChar_injective h₃ h₃' hd₃, digitChar_injective h₄ h₄' hd₄, ← hcode'] at hcode
      exact ⟨Char.toNat_inj.mp hcode, hrest⟩

theorem letter_ne_quote {c : Char} {w : List Char} (h : Letter c w) (r s : List Char) :
    w ++ r ≠ '\x22' :: s := by
  cases h with
  | plain _ hquote _ => exact fun he => hquote (List.cons.inj he).1
  | short | code => exact fun he => absurd (List.cons.inj he).1 (by decide)

/-- A string goes up to the first quote that is not escaped. -/
theorem letters_inj {cs ds w v r s : List Char} (h : Letters cs w) (h' : Letters ds v)
    (he : w ++ '\x22' :: r = v ++ '\x22' :: s) : cs = ds ∧ r = s := by
  induction h generalizing ds v with
  | nil =>
    cases h' with
    | nil => exact ⟨rfl, (List.cons.inj he).2⟩
    | cons hletter _ =>
      rw [List.append_assoc] at he
      exact absurd he.symm (letter_ne_quote hletter _ _)
  | cons hletter _ ih =>
    rw [List.append_assoc] at he
    cases h' with
    | nil => exact absurd he (letter_ne_quote hletter _ _)
    | cons hletter' hletters' =>
      rw [List.append_assoc] at he
      obtain ⟨rfl, hbehind⟩ := letter_inj hletter hletter' he
      obtain ⟨rfl, hrest⟩ := ih hletters' hbehind
      exact ⟨rfl, hrest⟩

theorem quoted_inj {a b : String} {w v r s : List Char} (h : Quoted a w) (h' : Quoted b v)
    (he : w ++ r = v ++ s) : a = b ∧ r = s := by
  obtain ⟨w, hw, rfl⟩ := h
  obtain ⟨v, hv, rfl⟩ := h'
  simp only [List.cons_append, List.append_assoc, List.nil_append, List.cons.injEq, true_and] at he
  obtain ⟨hab, hrest⟩ := letters_inj hw hv he
  exact ⟨String.toList_inj.mp hab, hrest⟩

end Strings

/-- A number has one numeral. -/
theorem eq_repr_of_numeral {n : Nat} {w : List Char} (h : Numeral n w) : w = n.repr.toList := by
  induction h with
  | digit hd => rw [Nat.toList_repr, Nat.toDigits_of_lt_base hd]
  | more hn hd _ ih =>
    rw [ih, Nat.toList_repr, Nat.toList_repr, ← Nat.toDigits_of_lt_base hd,
      Nat.toDigits_append_toDigits (by decide) hn hd]

def Closes (rest : List Char) : Prop :=
  ∃ behind, rest = ']' :: behind ∨ rest = '\x7d' :: behind

/-- What may stand behind a value or a field: space, and then a comma, a closing bracket or the end
of the text. -/
def Follows (rest : List Char) : Prop :=
  ∃ gap behind, IsSpace gap ∧ rest = gap ++ behind ∧
    (behind = [] ∨ Closes behind ∨ ∃ more, behind = ',' :: more)

section Following
variable {gap r s : List Char}

theorem follows_nil : Follows [] :=
  ⟨[], [], isSpace_nil, rfl, .inl rfl⟩

theorem Closes.follows (h : Closes r) (hgap : IsSpace gap) : Follows (gap ++ r) :=
  ⟨gap, r, hgap, rfl, .inr (.inl h)⟩

theorem follows_comma (hgap : IsSpace gap) : Follows (gap ++ ',' :: r) :=
  ⟨gap, _, hgap, rfl, .inr (.inr ⟨r, rfl⟩)⟩

theorem Closes.not_space (h : Closes r) : ∀ c ∈ r.head?, ¬IsSpace [c] := by
  obtain ⟨behind, rfl | rfl⟩ := h <;> simp [IsSpace]

theorem Closes.ne_comma (h : Closes r) : r ≠ ',' :: s := by
  obtain ⟨behind, rfl | rfl⟩ := h <;> simp

theorem Follows.not_digit (h : Follows r) : ∀ c ∈ r.head?, c.isDigit = false := by
  obtain ⟨gap, behind, hgap, rfl, hbehind⟩ := h
  cases gap with
  | nil => rcases hbehind with rfl | ⟨more, rfl | rfl⟩ | ⟨more, rfl⟩ <;> simp
  | cons c gap =>
    rintro d ⟨⟩
    rcases hgap c List.mem_cons_self with rfl | rfl | rfl | rfl <;> rfl

/-- No colon can follow, so that a string is no key. -/
theorem Follows.not_colon (h : Follows r) (hgap : IsSpace gap) : r ≠ gap ++ ':' :: s := by
  obtain ⟨gap', behind, hgap', rfl, hbehind⟩ := h
  intro he
  have hvisible : ∀ c ∈ behind.head?, ¬IsSpace [c] := by
    rcases hbehind with rfl | hclose | ⟨more, rfl⟩
    · simp
    · exact hclose.not_space
    · simp [IsSpace]
  have hcolon := gap_append_inj hgap' hgap hvisible (by simp [IsSpace]) he
  rcases hbehind with rfl | ⟨more, rfl | rfl⟩ | ⟨more, rfl⟩ <;> simp at hcolon

end Following

inductive Opening
  | quote | digit | bracket | brace

def Opening.ofChar? (c : Char) : Option Opening :=
  if c.isDigit then some digit
  else if c = '\x22' then some quote
  else if c = '[' then some bracket
  else if c = '\x7b' then some brace
  else none

namespace Phrase

/-- What a value or a field begins with. A string and a field begin alike. -/
def opening? : Phrase → Option Opening
  | value (.text _) | field _ => some .quote
  | value (.number _) => some .digit
  | value (.list _) => some .bracket
  | value (.record _) => some .brace
  | series _ => none

def IsPart (p : Phrase) : Prop :=
  p.opening?.isSome = true

theorem isPart_value (d : Document) : (value d).IsPart := by
  cases d <;> rfl

end Phrase

section Parts
variable {p q : Phrase} {gap gap' w v r s : List Char}

theorem Written.opening (h : Written p w) (hp : p.IsPart) :
    ∃ c cs, w = c :: cs ∧ Opening.ofChar? c = p.opening? := by
  cases h with
  | text hw =>
    obtain ⟨w, -, rfl⟩ := hw
    exact ⟨_, _, rfl, rfl⟩
  | @number n _ hn =>
    obtain rfl := eq_repr_of_numeral hn
    obtain ⟨c, cs, hdigits⟩ := List.exists_cons_of_ne_nil (@Nat.toDigits_ne_nil n 10)
    have hmem : c ∈ Nat.toDigits 10 n := by
      rw [hdigits]
      exact List.mem_cons_self
    have hc : c.isDigit = true := Nat.isDigit_of_mem_toDigits (by decide) (by decide) hmem
    rw [Nat.toList_repr]
    exact ⟨c, cs, hdigits, if_pos hc⟩
  | list | record => exact ⟨_, _, rfl, rfl⟩
  | field _ _ hkey _ =>
    obtain ⟨w, -, rfl⟩ := hkey
    exact ⟨_, _, rfl, rfl⟩
  | empty | last | comma => cases hp

/-- Parts that begin the same text begin alike. -/
theorem Written.opening_eq (hw : Written p w) (hv : Written q v) (hp : p.IsPart) (hq : q.IsPart)
    (h : w ++ r = v ++ s) : p.opening? = q.opening? := by
  obtain ⟨c, cs, rfl, hc⟩ := hw.opening hp
  obtain ⟨d, ds, rfl, hd⟩ := hv.opening hq
  obtain rfl : c = d := (List.cons.inj h).1
  exact hc.symm.trans hd

/-- A part begins with a character that opens something. -/
theorem Written.isSome_ofChar? (h : Written p w) (hp : p.IsPart) :
    ∀ c ∈ (w ++ r).head?, (Opening.ofChar? c).isSome = true := by
  obtain ⟨c, cs, rfl, hc⟩ := h.opening hp
  rintro d ⟨⟩
  rw [hc]
  exact hp

theorem Written.not_space (h : Written p w) (hp : p.IsPart) :
    ∀ c ∈ (w ++ r).head?, ¬IsSpace [c] := by
  intro c hc hspace
  have hopens := h.isSome_ofChar? hp c hc
  rcases hspace c (List.mem_singleton_self c) with rfl | rfl | rfl | rfl <;> cases hopens

theorem Written.not_closes (h : Written p w) (hp : p.IsPart) : ¬Closes (w ++ r) := by
  rintro ⟨behind, hclose | hclose⟩ <;>
    exact absurd (h.isSome_ofChar? hp _ (by rw [hclose]; rfl)) (by decide)

end Parts

/-- The phrase can be told from the text `w` wherever it may stand: a series in front of a closing
bracket, and a part in front of what may follow it. -/
def Phrase.Told (w : List Char) : Phrase → Prop
  | .series ps => (∀ p ∈ ps, p.IsPart) → ∀ qs v r s, (∀ q ∈ qs, q.IsPart) →
      Written (.series qs) v → Closes r → Closes s → w ++ r = v ++ s → ps = qs ∧ r = s
  | p => ∀ q v r s, q.IsPart → Written q v → Follows r → Follows s → w ++ r = v ++ s →
      p = q ∧ r = s

theorem Phrase.Told.part {p : Phrase} {w : List Char} (h : p.Told w) (hp : p.IsPart) :
    ∀ q v r s, q.IsPart → Written q v → Follows r → Follows s → w ++ r = v ++ s →
      p = q ∧ r = s := by
  cases p with
  | value | field => exact h
  | series => cases hp

section Telling
variable {p q : Phrase} {gap gap' w v r s : List Char}

/-- Parts with space before them. -/
theorem Phrase.Told.spaced (h : p.Told w) (hp : p.IsPart) (hq : q.IsPart) (hw : Written p w)
    (hv : Written q v) (hgap : IsSpace gap) (hgap' : IsSpace gap') (hr : Follows r)
    (hs : Follows s) (he : gap ++ (w ++ r) = gap' ++ (v ++ s)) : p = q ∧ r = s :=
  h.part hp q v r s hq hv hr hs (gap_append_inj hgap hgap' (hw.not_space hp) (hv.not_space hq) he)

theorem told_text {a : String} (h : Quoted a w) : (Phrase.value (.text a)).Told w := by
  intro q v r s hq hv hr hs he
  have hopening := (Written.text h).opening_eq hv rfl hq he
  cases hv with
  | text h' =>
    obtain ⟨rfl, hrest⟩ := quoted_inj h h' he
    exact ⟨rfl, hrest⟩
  | field hgap _ hkey _ =>
    rw [List.append_assoc, List.append_assoc] at he
    exact absurd (quoted_inj h hkey he).2 (hr.not_colon hgap)
  | _ => cases hopening

theorem told_number {n : Nat} (h : Numeral n w) : (Phrase.value (.number n)).Told w := by
  intro q v r s hq hv hr hs he
  have hopening := (Written.number h).opening_eq hv rfl hq he
  cases hv with
  | number h' =>
    obtain rfl := eq_repr_of_numeral h
    obtain rfl := eq_repr_of_numeral h'
    obtain ⟨rfl, hrest⟩ := repr_append_inj he hr.not_digit hs.not_digit
    exact ⟨rfl, hrest⟩
  | _ => cases hopening

theorem told_field {key : String} {d : Document} {u : List Char} (hgap : IsSpace gap)
    (hgap' : IsSpace gap') (hkey : Quoted key w) (hu : Written (.value d) u)
    (ih : (Phrase.value d).Told u) :
    (Phrase.field (key, d)).Told (w ++ (gap ++ ':' :: (gap' ++ u))) := by
  intro q v r s hq hv hr hs he
  have hopening := (Written.field hgap hgap' hkey hu).opening_eq hv rfl hq he
  cases hv with
  | text h' =>
    rw [List.append_assoc, List.append_assoc] at he
    exact absurd (quoted_inj hkey h' he).2.symm (hs.not_colon hgap)
  | field hgap₂ hgap₂' hkey' hu' =>
    simp only [List.append_assoc, List.cons_append] at he
    obtain ⟨rfl, hcolon⟩ := quoted_inj hkey hkey' he
    have hvalue := gap_append_inj hgap hgap₂ (by simp [IsSpace]) (by simp [IsSpace]) hcolon
    obtain ⟨heq, hrest⟩ := ih.spaced (Phrase.isPart_value _) (Phrase.isPart_value _) hu hu'
      hgap' hgap₂' hr hs (List.cons.inj hvalue).2
    cases heq
    exact ⟨rfl, hrest⟩
  | _ => cases hopening

/-- What stands between two brackets. -/
theorem series_inj {α : Type} {phrase : α → Phrase} (hinj : Function.Injective phrase)
    (hpart : ∀ a, (phrase a).IsPart) {close : Char} (hclose : close = ']' ∨ close = '\x7d')
    {xs ys : List α} (ih : (Phrase.series (xs.map phrase)).Told w)
    (hv : Written (.series (ys.map phrase)) v) (he : w ++ close :: r = v ++ close :: s) :
    xs = ys ∧ r = s := by
  have hparts (zs : List α) : ∀ p ∈ zs.map phrase, p.IsPart :=
    List.forall_mem_map.mpr fun a _ => hpart a
  have hcloses (rest : List Char) : Closes (close :: rest) := by
    rcases hclose with rfl | rfl
    · exact ⟨rest, .inl rfl⟩
    · exact ⟨rest, .inr rfl⟩
  obtain ⟨hmap, hrest⟩ :=
    ih (hparts xs) _ v _ _ (hparts ys) hv (hcloses r) (hcloses s) he
  exact ⟨(List.map_inj_right fun _ _ h => hinj h).mp hmap, (List.cons.inj hrest).2⟩

theorem told_list {ds : List Document} (h : Written (.series (ds.map .value)) w)
    (ih : (Phrase.series (ds.map .value)).Told w) :
    (Phrase.value (.list ds)).Told ('[' :: (w ++ [']'])) := by
  intro q v r s hq hv hr hs he
  have hopening := (Written.list h).opening_eq hv rfl hq he
  cases hv with
  | list h' =>
    simp only [List.cons_append, List.append_assoc, List.nil_append, List.cons.injEq,
      true_and] at he
    obtain ⟨rfl, hrest⟩ := series_inj (fun _ _ => Phrase.value.inj) Phrase.isPart_value
      (.inl rfl) ih h' he
    exact ⟨rfl, hrest⟩
  | _ => cases hopening

theorem told_record {fs : List (String × Document)} (h : Written (.series (fs.map .field)) w)
    (ih : (Phrase.series (fs.map .field)).Told w) :
    (Phrase.value (.record fs)).Told ('\x7b' :: (w ++ ['\x7d'])) := by
  intro q v r s hq hv hr hs he
  have hopening := (Written.record h).opening_eq hv rfl hq he
  cases hv with
  | record h' =>
    simp only [List.cons_append, List.append_assoc, List.nil_append, List.cons.injEq,
      true_and] at he
    obtain ⟨rfl, hrest⟩ := series_inj (fun _ _ => Phrase.field.inj) (fun _ => rfl) (.inr rfl)
      ih h' he
    exact ⟨rfl, hrest⟩
  | _ => cases hopening

/-- An empty series ends where one with a part would begin. -/
theorem closing_ne_part (hr : Closes r) (hgap : IsSpace gap) (hgap' : IsSpace gap')
    (hp : p.IsPart) (hw : Written p w) : gap ++ r ≠ gap' ++ (w ++ s) := by
  intro he
  have hsame := gap_append_inj hgap hgap' hr.not_space (hw.not_space hp) he
  rw [hsame] at hr
  exact hw.not_closes hp hr

theorem told_empty (hgap : IsSpace gap) : (Phrase.series []).Told gap := by
  intro _ qs v r s hqs hv hr hs he
  cases hv with
  | empty hgap' => exact ⟨rfl, gap_append_inj hgap hgap' hr.not_space hs.not_space he⟩
  | last hgap' _ hq =>
    simp only [List.append_assoc] at he
    exact absurd he (closing_ne_part hr hgap hgap' (hqs _ List.mem_cons_self) hq)
  | comma hgap' _ hq _ =>
    simp only [List.append_assoc] at he
    exact absurd he (closing_ne_part hr hgap hgap' (hqs _ List.mem_cons_self) hq)

theorem told_last (hgap : IsSpace gap) (hgap' : IsSpace gap') (hw : Written p w)
    (ih : p.Told w) : (Phrase.series [p]).Told (gap ++ (w ++ gap')) := by
  intro hps qs v r s hqs hv hr hs he
  have hp := hps p List.mem_cons_self
  simp only [List.append_assoc] at he
  cases hv with
  | empty hgap₂ => exact absurd he.symm (closing_ne_part hs hgap₂ hgap hp hw)
  | last hgap₂ hgap₂' hq =>
    simp only [List.append_assoc] at he
    obtain ⟨rfl, hbehind⟩ := ih.spaced hp (hqs _ List.mem_cons_self) hw hq hgap hgap₂
      (hr.follows hgap') (hs.follows hgap₂') he
    exact ⟨rfl, gap_append_inj hgap' hgap₂' hr.not_space hs.not_space hbehind⟩
  | comma hgap₂ hgap₂' hq _ =>
    simp only [List.append_assoc, List.cons_append] at he
    obtain ⟨-, hbehind⟩ := ih.spaced hp (hqs _ List.mem_cons_self) hw hq hgap hgap₂
      (hr.follows hgap') (follows_comma hgap₂') he
    have hcomma := gap_append_inj hgap' hgap₂' hr.not_space (by simp [IsSpace]) hbehind
    exact absurd hcomma hr.ne_comma

theorem told_comma {ps : List Phrase} {ws : List Char} (hgap : IsSpace gap)
    (hgap' : IsSpace gap') (hw : Written p w) (ih : p.Told w)
    (ihs : (Phrase.series (q :: ps)).Told ws) :
    (Phrase.series (p :: q :: ps)).Told (gap ++ (w ++ (gap' ++ ',' :: ws))) := by
  intro hps qs v r s hqs hv hr hs he
  obtain ⟨hp, hps⟩ := List.forall_mem_cons.mp hps
  simp only [List.append_assoc, List.cons_append] at he
  cases hv with
  | empty hgap₂ => exact absurd he.symm (closing_ne_part hs hgap₂ hgap hp hw)
  | last hgap₂ hgap₂' hq =>
    simp only [List.append_assoc] at he
    obtain ⟨-, hbehind⟩ := ih.spaced hp (hqs _ List.mem_cons_self) hw hq hgap hgap₂
      (follows_comma hgap') (hs.follows hgap₂') he
    have hcomma := gap_append_inj hgap' hgap₂' (by simp [IsSpace]) hs.not_space hbehind
    exact absurd hcomma.symm hs.ne_comma
  | comma hgap₂ hgap₂' hq hmore =>
    simp only [List.append_assoc, List.cons_append] at he
    obtain ⟨hfirst, hothers⟩ := List.forall_mem_cons.mp hqs
    obtain ⟨rfl, hbehind⟩ := ih.spaced hp hfirst hw hq hgap hgap₂ (follows_comma hgap')
      (follows_comma hgap₂') he
    have hcomma := gap_append_inj hgap' hgap₂' (by simp [IsSpace]) (by simp [IsSpace]) hbehind
    obtain ⟨hsame, hrest⟩ := ihs hps _ _ _ _ hothers hmore hr hs (List.cons.inj hcomma).2
    exact ⟨congrArg (List.cons p) hsame, hrest⟩

end Telling

/-- Every phrase can be told from every text that it is written as. -/
theorem Written.told {p : Phrase} {w : List Char} (h : Written p w) : p.Told w := by
  induction h with
  | text h => exact told_text h
  | number h => exact told_number h
  | list h ih => exact told_list h ih
  | record h ih => exact told_record h ih
  | field hgap hgap' hkey hvalue ih => exact told_field hgap hgap' hkey hvalue ih
  | empty hgap => exact told_empty hgap
  | last hgap hgap' h ih => exact told_last hgap hgap' h ih
  | comma hgap hgap' h _ ih ihs => exact told_comma hgap hgap' h ih ihs

/-- A text stands for at most one document. -/
theorem document_unique {d e : Document} {w : List Char} (hd : Written (.value d) w)
    (he : Written (.value e) w) : d = e := by
  obtain ⟨hsame, -⟩ := hd.told.part (Phrase.isPart_value d) _ w [] [] (Phrase.isPart_value e) he
    follows_nil follows_nil rfl
  exact Phrase.value.inj hsame

theorem render_injective : Function.Injective Document.render := by
  intro d e h
  have hd := written_render d
  rw [h] at hd
  exact document_unique hd (written_render e)

end SyntaxAudit.Json
