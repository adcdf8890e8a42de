import SyntaxAudit.Report.Document

/-! The JSON grammar, said of texts and the documents they stand for, and that every document is
written down as a text that stands for it. -/
namespace SyntaxAudit.Json

def IsSpace (gap : List Char) : Prop :=
  ∀ c ∈ gap, c = ' ' ∨ c = '\t' ∨ c = '\n' ∨ c = '\r'

def escapes : List (Char × Char) :=
  [('\x22', '\x22'), ('\\', '\\'), ('/', '/'), ('b', '\x08'), ('f', '\x0c'), ('n', '\n'),
    ('r', '\r'), ('t', '\t')]

/-- How a character may be written in a string: as it is unless it is a control, a quote or a
backslash, by an escape of its own, or by the four hexadecimal digits of its code point. -/
inductive Letter : Char → List Char → Prop
  | plain {c : Char} : 0x20 ≤ c.toNat → c ≠ '\x22' → c ≠ '\\' → Letter c [c]
  | short {c letter : Char} : (letter, c) ∈ escapes → Letter c ['\\', letter]
  | code {c : Char} {n₁ n₂ n₃ n₄ : Nat} : n₁ < 16 → n₂ < 16 → n₃ < 16 → n₄ < 16 →
      c.toNat = ((n₁ * 16 + n₂) * 16 + n₃) * 16 + n₄ →
      Letter c ['\\', 'u', n₁.digitChar, n₂.digitChar, n₃.digitChar, n₄.digitChar]

inductive Letters : List Char → List Char → Prop
  | nil : Letters [] []
  | cons {c : Char} {cs w ws : List Char} :
      Letter c w → Letters cs ws → Letters (c :: cs) (w ++ ws)

def Quoted (s : String) (text : List Char) : Prop :=
  ∃ w, Letters s.toList w ∧ text = '\x22' :: (w ++ ['\x22'])

/-- A number in decimal digits, the first of which is no zero unless it is the only one. -/
inductive Numeral : Nat → List Char → Prop
  | digit {d : Nat} : d < 10 → Numeral d [d.digitChar]
  | more {n d : Nat} {text : List Char} : 0 < n → d < 10 → Numeral n text →
      Numeral (10 * n + d) (text ++ [d.digitChar])

inductive Phrase
  | value (d : Document)
  | field (f : String × Document)
  | series (ps : List Phrase)

inductive Written : Phrase → List Char → Prop
  | text {s : String} {w : List Char} : Quoted s w → Written (.value (.text s)) w
  | number {n : Nat} {w : List Char} : Numeral n w → Written (.value (.number n)) w
  | list {ds : List Document} {w : List Char} : Written (.series (ds.map .value)) w →
      Written (.value (.list ds)) ('[' :: (w ++ [']']))
  | record {fs : List (String × Document)} {w : List Char} : Written (.series (fs.map .field)) w →
      Written (.value (.record fs)) ('\x7b' :: (w ++ ['\x7d']))
  | field {key : String} {d : Document} {gap gap' v w : List Char} : IsSpace gap → IsSpace gap' →
      Quoted key w → Written (.value d) v →
      Written (.field (key, d)) (w ++ (gap ++ ':' :: (gap' ++ v)))
  | empty {gap : List Char} : IsSpace gap → Written (.series []) gap
  | last {p : Phrase} {gap gap' w : List Char} : IsSpace gap → IsSpace gap' → Written p w →
      Written (.series [p]) (gap ++ (w ++ gap'))
  | comma {p q : Phrase} {ps : List Phrase} {gap gap' w ws : List Char} :
      IsSpace gap → IsSpace gap' → Written p w → Written (.series (q :: ps)) ws →
      Written (.series (p :: q :: ps)) (gap ++ (w ++ (gap' ++ ',' :: ws)))

theorem isSpace_nil : IsSpace [] := by
  intro c hc
  cases hc

theorem isSpace_newLine (indent : Nat) : IsSpace (Document.newLine indent) := by
  intro c hc
  rcases List.mem_cons.mp hc with rfl | hc
  · exact .inr (.inr (.inl rfl))
  · exact .inl (List.eq_of_mem_replicate hc)

section Strings

theorem mem_escapes {c letter : Char} (h : Document.shortEscapes.lookup c = some letter) :
    (letter, c) ∈ escapes := by
  obtain ⟨before, behind, hsplit, -⟩ := List.lookup_eq_some_iff.mp h
  have hmem : (c, letter) ∈ Document.shortEscapes := by
    rw [hsplit]
    exact List.mem_append_right before List.mem_cons_self
  have hall : (Document.shortEscapes.all fun e => escapes.contains (e.2, e.1)) = true := by decide
  simpa using List.all_eq_true.mp hall _ hmem

theorem letter_escaped (c : Char) : Letter c (Document.escaped c) := by
  unfold Document.escaped
  split
  · rename_i letter h
    exact .short (mem_escapes h)
  · rename_i h
    split
    · -- a control: the first two of its four digits are zero
      rename_i hlow
      have hcode : c.toNat = ((0 * 16 + 0) * 16 + c.toNat / 16) * 16 + c.toNat % 16 := by omega
      exact .code (by decide) (by decide) (by omega) (by omega) hcode
    · refine .plain (by omega) ?_ ?_
      · rintro rfl
        cases h
      · rintro rfl
        cases h

theorem letters_escaped (cs : List Char) : Letters cs (cs.flatMap Document.escaped) := by
  induction cs with
  | nil => exact .nil
  | cons c cs ih =>
    rw [List.flatMap_cons]
    exact .cons (letter_escaped c) ih

theorem quoted_quoted (s : String) : Quoted s (Document.quoted s) :=
  ⟨_, letters_escaped s.toList, rfl⟩

end Strings

theorem numeral_repr (n : Nat) : Numeral n n.repr.toList := by
  induction n using Nat.strongRecOn with
  | ind n ih =>
    by_cases hn : n < 10
    · rw [Nat.repr_of_lt hn, String.toList_singleton]
      exact .digit hn
    · have hdigit : n % 10 < 10 := Nat.mod_lt n (by decide)
      have hmore := Numeral.more (by omega) hdigit (ih (n / 10) (by omega))
      rw [Nat.div_add_mod] at hmore
      rw [Nat.repr_of_ge (by omega), String.toList_append, String.toList_singleton]
      exact hmore

/-- Phrases with commas between them, each on a new line, are a series. -/
theorem written_series {α : Type} {phrase : α → Phrase} {text : α → List Char}
    {sep gap' : List Char} (hsep : IsSpace sep) (hgap' : IsSpace gap') {xs : List α}
    (h : ∀ x ∈ xs, Written (phrase x) (text x)) {p : Phrase} {w : List Char} (hp : Written p w) :
    Written (.series (p :: xs.map phrase))
      (sep ++ (w ++ (xs.flatMap (fun x => ',' :: (sep ++ text x)) ++ gap'))) := by
  induction xs generalizing p w with
  | nil => exact .last hsep hgap' hp
  | cons x xs ih =>
    obtain ⟨hx, hxs⟩ := List.forall_mem_cons.mp h
    have hrest := ih hxs hx
    have hall := Written.comma hsep isSpace_nil hp hrest
    simpa [List.append_assoc] using hall

section Writing
open Document

theorem writeEntries_eq (indent : Nat) (ds : List Document) :
    writeEntries indent ds = ds.flatMap fun d => ',' :: (newLine indent ++ write indent d) := by
  induction ds with
  | nil => rw [writeEntries, List.flatMap_nil]
  | cons d ds ih => rw [writeEntries, ih, List.flatMap_cons, List.cons_append]

theorem writeFields_eq (indent : Nat) (fs : List (String × Document)) :
    writeFields indent fs = fs.flatMap fun f => ',' :: (newLine indent ++ writeField indent f) := by
  induction fs with
  | nil => rw [writeFields, List.flatMap_nil]
  | cons f fs ih => rw [writeFields, ih, List.flatMap_cons, List.cons_append]

mutual

/-- The text of a document stands for it, at whatever indent. -/
theorem written_write : ∀ (d : Document) (indent : Nat), Written (.value d) (write indent d)
  | .text s, indent => by
    rw [write]
    exact .text (quoted_quoted s)
  | .number n, indent => by
    rw [write]
    exact .number (numeral_repr n)
  | .list [], indent => by
    rw [write]
    exact @Written.list [] [] (.empty isSpace_nil)
  | .list (d :: ds), indent => by
    have hseries := written_series (isSpace_newLine (indent + 2)) (isSpace_newLine indent)
      (written_entries ds (indent + 2)) (written_write d (indent + 2))
    rw [← writeEntries_eq] at hseries
    rw [write]
    simpa [List.append_assoc] using @Written.list (d :: ds) _ hseries
  | .record [], indent => by
    rw [write]
    exact @Written.record [] [] (.empty isSpace_nil)
  | .record (f :: fs), indent => by
    have hseries := written_series (isSpace_newLine (indent + 2)) (isSpace_newLine indent)
      (written_fields fs (indent + 2)) (written_field f (indent + 2))
    rw [← writeFields_eq] at hseries
    rw [write]
    simpa [List.append_assoc] using @Written.record (f :: fs) _ hseries

theorem written_entries : ∀ (ds : List Document) (indent : Nat),
    ∀ d ∈ ds, Written (.value d) (write indent d)
  | [], _ => by simp
  | d :: ds, indent =>
    List.forall_mem_cons.mpr ⟨written_write d indent, written_entries ds indent⟩

theorem written_field : ∀ (f : String × Document) (indent : Nat),
    Written (.field f) (writeField indent f)
  | (key, d), indent => by
    have hspace : IsSpace [' '] := by simp [IsSpace]
    rw [writeField, List.append_assoc]
    exact .field isSpace_nil hspace (quoted_quoted key) (written_write d indent)

theorem written_fields : ∀ (fs : List (String × Document)) (indent : Nat),
    ∀ f ∈ fs, Written (.field f) (writeField indent f)
  | [], _ => by simp
  | f :: fs, indent =>
    List.forall_mem_cons.mpr ⟨written_field f indent, written_fields fs indent⟩

end

end Writing

theorem written_render (d : Document) : Written (.value d) d.render.toList := by
  rw [Document.render, String.toList_ofList]
  exact written_write d 0

end SyntaxAudit.Json
