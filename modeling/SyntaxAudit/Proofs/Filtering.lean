import SyntaxAudit.Proofs.Pulling

/-! The settings of a scan decide about comments and the end mark and about nothing else: all that
is handed out besides is the same, whether the scan is run as a whole or asked for one item at a
time. -/
namespace SyntaxAudit

def Item.isComment : Item → Bool
  | .token t => t.kind == .comment
  | .error _ => false

@[simp] theorem Item.isComment_token (t : Token) :
    (Item.token t).isComment = (t.kind == .comment) := rfl

@[simp] theorem Item.isComment_error (e : LexError) : (Item.error e).isComment = false := rfl

section Pieces
variable (markEnd : Bool) (p : Position)

/-- A scan that passes over comments hands out of each piece what one that keeps them does, unless
that is a comment. -/
theorem item?_dropping (l : Lexeme) :
    l.item? ⟨false, markEnd⟩ p = (l.item? ⟨true, markEnd⟩ p).filter (!·.isComment) := by
  obtain ⟨kind, text⟩ := l
  cases kind with
  | token kind =>
    by_cases hkind : kind = .comment
    · simp [Lexeme.item?, Option.filter, hkind]
    · simp [Lexeme.item?, Option.filter, hkind]
  | blank | unexpected | openString | openComment => rfl

theorem itemsFrom_dropping (ls : List Lexeme) :
    itemsFrom ⟨false, markEnd⟩ p ls = (itemsFrom ⟨true, markEnd⟩ p ls).filter (!·.isComment) := by
  induction ls generalizing p with
  | nil =>
    unfold itemsFrom ScanOptions.endItems
    split <;> rfl
  | cons l ls ih =>
    rw [itemsFrom, itemsFrom, List.filter_append, ← ih, item?_dropping, Option.toList_filter]

/-- Whether the end is marked makes no difference before the end. -/
theorem itemsFrom_marked (keepComments : Bool) (ls : List Lexeme) :
    itemsFrom ⟨keepComments, true⟩ p ls =
      itemsFrom ⟨keepComments, false⟩ p ls ++
        [.token (.endAt (p.after (ls.flatMap Lexeme.text)))] := by
  induction ls generalizing p with
  | nil => rfl
  | cons l ls ih =>
    have hpiece : l.item? ⟨keepComments, true⟩ p = l.item? ⟨keepComments, false⟩ p := rfl
    rw [itemsFrom, itemsFrom, ih, hpiece, List.append_assoc, List.flatMap_cons,
      Position.after_append]

end Pieces

/-- Items with the same errors are collected alike, each to its own tokens. -/
theorem collect_of_errors_eq {items items' : List Item} (f : List Token → List Token)
    (herrors : items'.filterMap Item.error? = items.filterMap Item.error?)
    (htokens : items'.filterMap Item.token? = f (items.filterMap Item.token?)) :
    Item.collect items' = (Item.collect items).map f := by
  unfold Item.collect
  rw [herrors, htokens]
  split <;> rfl

theorem tokens_of_filter (items : List Item) :
    (items.filter (!·.isComment)).filterMap Item.token? =
      (items.filterMap Item.token?).filter (·.kind != .comment) := by
  rw [List.filterMap_filter, List.filter_filterMap]
  congr 1
  funext item
  cases item with
  | token t => by_cases ht : t.kind = .comment <;> simp [Item.token?, Option.filter, ht]
  | error e => rfl

namespace Scanner
variable {s : Scanner} {c : Char} {cs : List Char}

def keeping (s : Scanner) : Scanner :=
  { s with options := { s.options with keepComments := true } }

def passed (s : Scanner) (c : Char) (cs : List Char) : Scanner :=
  { s with
    rest := (Lexeme.first c cs).2
    position := s.position.after (Lexeme.first c cs).1.text }

theorem next_finished (hf : s.finished = true) : s.next = (none, s) := by
  rw [next, if_pos hf]

theorem next_end (hf : s.finished = false) (h : s.rest = []) :
    s.next = ((s.options.endItems s.position).head?, { s with finished := true }) := by
  rw [next, if_neg (by simp [hf])]
  split
  · rfl
  · rename_i hrest
    cases h.symm.trans hrest

private theorem next_cons (hf : s.finished = false) (h : s.rest = c :: cs) :
    s.next = match (Lexeme.first c cs).1.item? s.options s.position with
      | some item => (some item, s.passed c cs)
      | none => (s.passed c cs).next := by
  rw [next, if_neg (by simp [hf])]
  split
  · rename_i hrest
    cases h.symm.trans hrest
  · rename_i hrest
    cases h.symm.trans hrest
    rfl

/-- A piece that hands out an item answers the request. -/
theorem next_item {item : Item} (hf : s.finished = false) (h : s.rest = c :: cs)
    (hitem : (Lexeme.first c cs).1.item? s.options s.position = some item) :
    s.next = (some item, s.passed c cs) := by
  rw [next_cons hf h, hitem]

/-- A piece that hands out nothing leaves the request to the next one. -/
theorem next_nothing (hf : s.finished = false) (h : s.rest = c :: cs)
    (hitem : (Lexeme.first c cs).1.item? s.options s.position = none) :
    s.next = (s.passed c cs).next := by
  rw [next_cons hf h, hitem]

theorem item?_keeping (hdrop : s.options.keepComments = false) (p : Position) (l : Lexeme) :
    l.item? s.options p = (l.item? s.keeping.options p).filter (!·.isComment) := by
  have hoptions : s.options = ⟨false, s.options.markEnd⟩ := by rw [← hdrop]
  rw [hoptions, item?_dropping]
  rfl

/-- One request to a scan that passes over comments does what several requests to one that keeps
them do: these give the comments on the way, and last the same answer. -/
theorem next_dropping (s : Scanner) (hdrop : s.options.keepComments = false) :
    ∃ comments : List Token, (∀ t ∈ comments, t.kind = .comment) ∧
      (∀ item ∈ s.next.1, item.isComment = false) ∧
      s.keeping.pull (comments.length + 1) =
        (comments.map (some ∘ .token) ++ [s.next.1], s.next.2.keeping) := by
  -- the induction is along the pieces that the request goes through
  fun_induction next s with
  | case1 s hf =>
    have hnext : s.keeping.next = (none, s.keeping) := next_finished hf
    refine ⟨[], by simp, by simp, ?_⟩
    rw [List.length_nil, pull_succ, hnext]
    rfl
  | case2 s hf h =>
    have hf : s.finished = false := by simpa using hf
    have hnext := @next_end s.keeping hf h
    refine ⟨[], by simp, ?_, ?_⟩
    · intro item hitem
      obtain ⟨-, rfl⟩ := mem_endItems.mp (List.mem_of_head? hitem)
      rfl
    · rw [List.length_nil, pull_succ, hnext]
      rfl
  | case3 s hf c cs h l behind item hitem =>
    have hf : s.finished = false := by simpa using hf
    rw [item?_keeping hdrop, Option.filter_eq_some_iff] at hitem
    have hnext := @next_item s.keeping c cs item hf h hitem.1
    refine ⟨[], by simp, ?_, ?_⟩
    · rintro _ ⟨⟩
      simpa using hitem.2
    · rw [List.length_nil, pull_succ, hnext]
      rfl
  | case4 s hf c cs h l behind hitem ih =>
    have hf : s.finished = false := by simpa using hf
    obtain ⟨comments, hcomments, hanswer, hpull⟩ := ih hdrop
    rw [item?_keeping hdrop, Option.filter_eq_none_iff] at hitem
    cases hkept : l.item? s.keeping.options s.position with
    | none =>
      have hnext : s.keeping.next = behind.keeping.next := @next_nothing s.keeping c cs hf h hkept
      refine ⟨comments, hcomments, hanswer, ?_⟩
      rw [← hpull, pull_succ, pull_succ, hnext]
    | some item =>
      have hnext : s.keeping.next = (some item, behind.keeping) :=
        @next_item s.keeping c cs item hf h hkept
      have hcomment := hitem item hkept
      cases item with
      | error e => simp at hcomment
      | token t =>
        have ht : t.kind = .comment := by simpa using hcomment
        refine ⟨t :: comments, List.forall_mem_cons.mpr ⟨ht, hcomments⟩, hanswer, ?_⟩
        rw [List.length_cons, pull_succ, hnext, hpull]
        rfl

theorem options_next (s : Scanner) : s.next.2.options = s.options := by
  fun_induction next s with
  | case1 | case2 | case3 => rfl
  | case4 s hf c cs h l behind hitem ih => exact ih

/-- Whatever is asked of a scan that passes over comments can be asked of one that keeps them: more
requests give the same answers with comments between them, and come to the same place. -/
theorem pull_dropping (s : Scanner) (hdrop : s.options.keepComments = false) (n : Nat) :
    ∃ m, (s.keeping.pull m).1.filter (!·.any Item.isComment) = (s.pull n).1 ∧
      (s.keeping.pull m).2 = (s.pull n).2.keeping := by
  induction n generalizing s with
  | zero => exact ⟨0, rfl, rfl⟩
  | succ n ih =>
    obtain ⟨comments, hcomments, hanswer, hpull⟩ := next_dropping s hdrop
    obtain ⟨m, hanswers, hplace⟩ := ih s.next.2 ((congrArg _ (options_next s)).trans hdrop)
    have hpassed : (comments.map (some ∘ Item.token)).filter (!·.any Item.isComment) = [] := by
      simpa [List.filter_eq_nil_iff] using hcomments
    have hkept : [s.next.1].filter (!·.any Item.isComment) = [s.next.1] := by
      cases hnext : s.next.1 with
      | none => rfl
      | some item => simp [hanswer item hnext]
    refine ⟨comments.length + 1 + m, ?_, ?_⟩
    · rw [pull_add, hpull, List.filter_append, List.filter_append, hpassed, hkept, hanswers]
      rfl
    · rw [pull_add, hpull]
      exact hplace

end Scanner

/-- A scan that passes over comments fails exactly as one that keeps them does, and has its other
tokens otherwise; a scan that marks the end fails exactly as one that does not, and has one token
more otherwise, behind all others, which mark no end. Asked for one item at a time, a scan that
passes over comments gives what one that keeps them gives between the comments. -/
theorem settings_only_filter (source : String) :
    (∀ markEnd, scan ⟨false, markEnd⟩ source =
      (scan ⟨true, markEnd⟩ source).map (List.filter (·.kind != .comment))) ∧
    (∀ keepComments, scan ⟨keepComments, true⟩ source =
      (scan ⟨keepComments, false⟩ source).map
        (· ++ [⟨.endOfInput, "", .behind source.toList⟩])) ∧
    (∀ keepComments tokens, scan ⟨keepComments, false⟩ source = .ok tokens →
      ∀ t ∈ tokens, t.kind ≠ .endOfInput) ∧
    ∀ markEnd n, ∃ m,
      ((Scanner.ofSource ⟨true, markEnd⟩ source).pull m).1.filter (!·.any Item.isComment) =
        ((Scanner.ofSource ⟨false, markEnd⟩ source).pull n).1 := by
  refine ⟨?_, ?_, ?_, ?_⟩
  · intro markEnd
    have hitems : items ⟨false, markEnd⟩ source =
        (items ⟨true, markEnd⟩ source).filter (!·.isComment) := itemsFrom_dropping ..
    apply collect_of_errors_eq
    · exact errors_itemsFrom ..
    · rw [hitems, tokens_of_filter]
  · intro keepComments
    have hplace : Position.behind source.toList = .after .start source.toList :=
      Position.behind_append [] _
    have hitems := itemsFrom_marked .start keepComments (lexemes source.toList)
    rw [flatMap_text_lexemes, ← hplace] at hitems
    apply collect_of_errors_eq
    · exact errors_itemsFrom ..
    · rw [items, hitems, List.filterMap_append]
      rfl
  · intro keepComments tokens h t ht
    obtain ⟨body, rfl, hend, -⟩ := tokens_of_scan h
    have hnone : ScanOptions.endTokens ⟨keepComments, false⟩ (.after .start source.toList) = [] :=
      rfl
    rw [hnone, List.append_nil] at ht
    simpa [Token.isEnd] using hend t ht
  · intro markEnd n
    obtain ⟨m, hanswers, -⟩ :=
      Scanner.pull_dropping (Scanner.ofSource ⟨false, markEnd⟩ source) rfl n
    exact ⟨m, hanswers⟩

/-- A name and a sign, each with a comment right behind it. -/
def annotated : String := "a/*;*/;//a"

def annotatedTokens : List Token :=
  [⟨.identifier, "a", ⟨1, 1⟩⟩, ⟨.comment, "/*;*/", ⟨1, 2⟩⟩, ⟨.punctuation, ";", ⟨1, 7⟩⟩,
    ⟨.comment, "//a", ⟨1, 8⟩⟩]

theorem settings_only_filter_annotated :
    scan ⟨true, false⟩ annotated = .ok annotatedTokens ∧
    scan ⟨false, true⟩ annotated =
      .ok [⟨.identifier, "a", ⟨1, 1⟩⟩, ⟨.punctuation, ";", ⟨1, 7⟩⟩,
        ⟨.endOfInput, "", ⟨1, 11⟩⟩] ∧
    ∀ t ∈ annotatedTokens, t.kind ≠ .endOfInput := by
  have hitems : items ⟨true, false⟩ annotated = annotatedTokens.map .token := by decide +kernel
  have hscan : scan ⟨true, false⟩ annotated = .ok annotatedTokens := by
    rw [scan, hitems]
    rfl
  obtain ⟨hcomments, hmark, hunmarked, -⟩ := settings_only_filter annotated
  refine ⟨hscan, ?_, hunmarked true _ hscan⟩
  rw [hcomments, hmark, hscan]
  rfl

end SyntaxAudit
