import SyntaxAudit.Options
import SyntaxAudit.Proofs.Partition
import SyntaxAudit.Proofs.Trace

/-! The tokens of a scanned text stand one behind the other, and none but the last marks the end. -/
namespace SyntaxAudit

namespace Position

def Precedes (p q : Position) : Prop :=
  p.line < q.line ∨ p.line = q.line ∧ p.column < q.column

theorem Precedes.trans {p q r : Position} (hpq : p.Precedes q) (hqr : q.Precedes r) :
    p.Precedes r := by
  unfold Precedes at *
  omega

theorem Precedes.ne {p q : Position} (h : p.Precedes q) : p ≠ q := by
  rintro rfl
  unfold Precedes at h
  omega

theorem precedes_next (p : Position) (c : Char) : p.Precedes (p.next c) := by
  unfold next
  split <;> simp [Precedes]

theorem precedes_after (p : Position) {text : List Char} (h : text ≠ []) :
    p.Precedes (p.after text) := by
  induction text generalizing p with
  | nil => exact absurd rfl h
  | cons c text ih =>
    rw [after_cons]
    have hc := p.precedes_next c
    cases text with
    | nil => exact hc
    | cons d text => exact hc.trans (ih (p.next c) (by simp))

end Position

def ScanOptions.endTokens (options : ScanOptions) (p : Position) : List Token :=
  if options.markEnd then [.endAt p] else []

theorem endItems_eq (options : ScanOptions) (p : Position) :
    options.endItems p = (options.endTokens p).map Item.token := by
  unfold ScanOptions.endItems ScanOptions.endTokens
  split <;> rfl

theorem mem_endItems {options : ScanOptions} {p : Position} {item : Item} :
    item ∈ options.endItems p ↔ options.markEnd = true ∧ item = .token (.endAt p) := by
  simp [ScanOptions.endItems]

theorem filterMap_map_token (tokens : List Token) :
    (tokens.map Item.token).filterMap Item.token? = tokens := by
  rw [List.filterMap_map]
  exact List.filterMap_some

/-- Items that are all tokens are collected without an error. -/
theorem collect_map_token (tokens : List Token) :
    Item.collect (tokens.map Item.token) = .ok tokens := by
  have herrors : (tokens.map Item.token).filterMap Item.error? = [] := by
    simp [Item.error?]
  rw [Item.collect, herrors, filterMap_map_token]

/-- The grammar sees the tokens before the end mark. -/
theorem terminals_endTokens {options : ScanOptions} {p : Position} {body : List Token}
    (h : ∀ t ∈ body, t.isEnd = false) :
    terminals (body ++ options.endTokens p) = body.map Token.terminal := by
  apply terminals_append h
  unfold ScanOptions.endTokens
  split <;> simp [Token.endAt, Token.isEnd]

/-- A piece that can be a token is handed out as one, unless it is a comment to pass over. -/
theorem item?_token {options : ScanOptions} {p : Position} {kind : TokenKind} {text : List Char}
    {item : Item} :
    (Lexeme.mk (.token kind) text).item? options p = some item ↔
      (kind = .comment → options.keepComments = true) ∧
        item = .token ⟨kind, String.ofList text, p⟩ := by
  simp only [Lexeme.item?, Option.ite_none_left_eq_some, Option.some.injEq, not_and,
    Bool.not_eq_false]
  exact and_congr_right fun _ => eq_comm

/-- A piece of text hands out at most an item at its place, which does not mark the end. -/
theorem item?_first {options : ScanOptions} {p : Position} {c : Char} {cs : List Char} {item : Item}
    (h : (Lexeme.first c cs).1.item? options p = some item) :
    item.position = p ∧ ∀ t ∈ item.token?, t.isEnd = false := by
  have hfits := Lexeme.fits_first c cs
  rcases hl : (Lexeme.first c cs).1 with ⟨kind, text⟩
  rw [hl] at hfits h
  cases kind with
  | token kind =>
    have hne : kind ≠ .endOfInput := hfits
    obtain ⟨-, rfl⟩ := item?_token.mp h
    simp [Item.position, Item.token?, Token.isEnd, hne]
  | blank => simp [Lexeme.item?] at h
  | _ =>
    obtain rfl := Option.some.inj h
    simp [Item.position, Item.token?]

/-- Whether comments are kept and the end is marked makes no difference to the errors. -/
theorem errors_itemsFrom (options options' : ScanOptions) (p : Position) (ls : List Lexeme) :
    (itemsFrom options p ls).filterMap Item.error? =
      (itemsFrom options' p ls).filterMap Item.error? := by
  induction ls generalizing p with
  | nil =>
    have hnone (o : ScanOptions) : (o.endItems p).filterMap Item.error? = [] := by
      rw [endItems_eq]
      simp [Item.error?]
    rw [itemsFrom, itemsFrom, hnone, hnone]
  | cons l ls ih =>
    have hpiece : (l.item? options p).toList.filterMap Item.error? =
        (l.item? options' p).toList.filterMap Item.error? := by
      unfold Lexeme.item?
      split
      · rfl
      · split <;> split <;> rfl
      · rfl
      · rfl
      · rfl
    rw [itemsFrom, itemsFrom, List.filterMap_append, List.filterMap_append, hpiece, ih]

theorem mem_filterMap_error? {items : List Item} {e : LexError} :
    e ∈ items.filterMap Item.error? ↔ .error e ∈ items := by
  rw [List.mem_filterMap]
  constructor
  · rintro ⟨item, hitem, herror⟩
    cases item <;> cases herror
    exact hitem
  · intro h
    exact ⟨_, h, rfl⟩

/-- The items from `p` on: whatever stands before `p` stands before all of them, and each of them
before the next. -/
theorem pairwise_itemsFrom (options : ScanOptions) (p : Position) (text : List Char) :
    (∀ q : Position, q.Precedes p →
      ∀ item ∈ itemsFrom options p (lexemes text), q.Precedes item.position) ∧
    (itemsFrom options p (lexemes text)).Pairwise fun a b => a.position.Precedes b.position := by
  fun_induction lexemes text generalizing p with
  | case1 =>
    unfold itemsFrom ScanOptions.endItems
    split <;> simp [Item.position, Token.endAt]
  | case2 c cs ih =>
    have hstep := p.precedes_after (Lexeme.first_text_ne_nil c cs)
    obtain ⟨hlater, horder⟩ := ih (p.after (Lexeme.first c cs).1.text)
    rw [itemsFrom]
    cases hitem : (Lexeme.first c cs).1.item? options p with
    | none => exact ⟨fun q hq => hlater q (hq.trans hstep), horder⟩
    | some item =>
      obtain ⟨hplace, -⟩ := item?_first hitem
      constructor
      · intro q hq later hmem
        rcases List.mem_cons.mp hmem with rfl | hmem
        · rwa [hplace]
        · exact hlater q (hq.trans hstep) later hmem
      · refine List.pairwise_cons.mpr ⟨?_, horder⟩
        rw [hplace]
        exact hlater p hstep

/-- The tokens from `p` on: the end mark, if it is asked for, and others before it. -/
theorem tokens_itemsFrom (options : ScanOptions) (p : Position) (text : List Char) :
    ∃ body : List Token,
      (itemsFrom options p (lexemes text)).filterMap Item.token? =
        body ++ options.endTokens (p.after text) ∧ ∀ t ∈ body, t.isEnd = false := by
  fun_induction lexemes text generalizing p with
  | case1 =>
    refine ⟨[], ?_, by simp⟩
    rw [itemsFrom, endItems_eq, filterMap_map_token]
    rfl
  | case2 c cs ih =>
    have htext : (p.after (Lexeme.first c cs).1.text).after (Lexeme.first c cs).2 =
        p.after (c :: cs) := by
      rw [← Position.after_append, Lexeme.first_append]
    obtain ⟨body, hbody, hend⟩ := ih (p.after (Lexeme.first c cs).1.text)
    rw [htext] at hbody
    refine ⟨((Lexeme.first c cs).1.item? options p).toList.filterMap Item.token? ++ body, ?_, ?_⟩
    · rw [itemsFrom, List.filterMap_append, hbody, List.append_assoc]
    · intro t ht
      rcases List.mem_append.mp ht with ht | ht
      · obtain ⟨item, hitem, htoken⟩ := List.mem_filterMap.mp ht
        exact (item?_first (Option.mem_toList.mp hitem)).2 t htoken
      · exact hend t ht

theorem tokens_of_collect {items : List Item} {tokens : List Token}
    (h : Item.collect items = .ok tokens) : tokens = items.filterMap Item.token? := by
  unfold Item.collect at h
  split at h
  · exact (Except.ok.inj h).symm
  · exact absurd h (by simp)

/-- Items are refused with all the errors among them, and only if there are some. -/
theorem collect_eq_error_iff {items : List Item} {errors : List LexError} :
    Item.collect items = .error errors ↔
      items.filterMap Item.error? = errors ∧ errors ≠ [] := by
  unfold Item.collect
  split
  case h_1 hnil =>
    constructor
    · intro h
      cases h
    · rintro ⟨herrors, hne⟩
      exact absurd (herrors.symm.trans hnil) hne
  case h_2 hne =>
    constructor
    · rintro ⟨⟩
      exact ⟨rfl, hne⟩
    · rintro ⟨rfl, -⟩
      rfl

theorem errors_of_collect {items : List Item} {errors : List LexError}
    (h : Item.collect items = .error errors) : errors = items.filterMap Item.error? :=
  (collect_eq_error_iff.mp h).1.symm

/-- Whether and how a scan fails does not depend on what it is asked to hand out. -/
theorem scan_error_iff (options options' : ScanOptions) {source : String}
    {errors : List LexError} :
    scan options source = .error errors ↔ scan options' source = .error errors := by
  rw [scan, scan, collect_eq_error_iff, collect_eq_error_iff, items, items,
    errors_itemsFrom options options']

/-- The tokens of a scan without errors: an end mark only if it is asked for, then behind all
others, and every token before the next in reading order. -/
theorem tokens_of_scan {options : ScanOptions} {source : String} {tokens : List Token}
    (h : scan options source = .ok tokens) :
    ∃ body : List Token, tokens = body ++ options.endTokens (.after .start source.toList) ∧
      (∀ t ∈ body, t.isEnd = false) ∧
      tokens.Pairwise fun a b => a.position.Precedes b.position := by
  have htokens : tokens = (items options source).filterMap Item.token? := tokens_of_collect h
  obtain ⟨body, hbody, hend⟩ := tokens_itemsFrom options .start source.toList
  refine ⟨body, htokens.trans hbody, hend, ?_⟩
  rw [htokens]
  refine List.Pairwise.filterMap _ ?_ (pairwise_itemsFrom options .start source.toList).2
  intro a b hab t ht u hu
  cases a <;> cases ht
  cases b <;> cases hu
  exact hab

/-- What a piece hands out is among the items, with the place behind the pieces before it. -/
theorem mem_itemsFrom {options : ScanOptions} {p : Position} {before after : List Lexeme}
    {l : Lexeme} {item : Item}
    (h : l.item? options (p.after (before.flatMap Lexeme.text)) = some item) :
    item ∈ itemsFrom options p (before ++ l :: after) := by
  induction before generalizing p with
  | nil =>
    have hitem : l.item? options p = some item := h
    simp [itemsFrom, hitem]
  | cons first before ih =>
    rw [List.flatMap_cons, Position.after_append] at h
    exact List.mem_append_right _ (ih h)

/-- With comments kept, every piece of a scanned text that can be a token is one of its tokens. -/
theorem mem_tokens_of_scan {options : ScanOptions} {source : String} {tokens : List Token}
    (hkeep : options.keepComments = true) (h : scan options source = .ok tokens)
    {before after : List Lexeme} {l : Lexeme} {kind : TokenKind}
    (hl : lexemes source.toList = before ++ l :: after) (hkind : l.kind = .token kind) :
    ⟨kind, String.ofList l.text, .behind (before.flatMap Lexeme.text)⟩ ∈ tokens := by
  have hplace : Position.behind (before.flatMap Lexeme.text) =
      .after .start (before.flatMap Lexeme.text) := Position.behind_append [] _
  have hitem : l.item? options (.after .start (before.flatMap Lexeme.text)) =
      some (.token ⟨kind, String.ofList l.text, .behind (before.flatMap Lexeme.text)⟩) := by
    simp [Lexeme.item?, hkind, hkeep, hplace]
  have hmem := @mem_itemsFrom options .start before after l _ hitem
  rw [← hl] at hmem
  rw [tokens_of_collect h]
  exact List.mem_filterMap.mpr ⟨_, hmem, rfl⟩

theorem checkSource_of_scan {options : CheckOptions} {source : String} {tokens : List Token}
    (h : scan options.scan source = .ok tokens) :
    checkSource options source = .ok (checkTokens options.terminator tokens) := by
  rw [checkSource, h]
  rfl

theorem checkSource_of_scan_error {options : CheckOptions} {source : String}
    {errors : List LexError} (h : scan options.scan source = .error errors) :
    checkSource options source = .error errors := by
  rw [checkSource, h]
  rfl

theorem scan_of_checkSource {options : CheckOptions} {source : String} {outcome : Outcome}
    (h : checkSource options source = .ok outcome) :
    ∃ tokens, scan options.scan source = .ok tokens ∧
      outcome = checkTokens options.terminator tokens := by
  unfold checkSource at h
  cases hscan : scan options.scan source with
  | error errors =>
    rw [hscan] at h
    cases h
  | ok tokens =>
    rw [hscan] at h
    exact ⟨tokens, rfl, (Except.ok.inj h).symm⟩

theorem scan_of_checkSource_error {options : CheckOptions} {source : String}
    {errors : List LexError} (h : checkSource options source = .error errors) :
    scan options.scan source = .error errors := by
  unfold checkSource at h
  cases hscan : scan options.scan source with
  | error found =>
    rw [hscan] at h
    exact congrArg Except.error (Except.error.inj h)
  | ok tokens =>
    rw [hscan] at h
    cases h

/-- No two tokens in reading order have the same place. -/
theorem eq_of_position_eq {tokens : List Token} {i j : Nat} {a b : Token}
    (h : tokens.Pairwise fun a b => a.position.Precedes b.position) (hi : tokens[i]? = some a)
    (hj : tokens[j]? = some b) (he : a.position = b.position) : i = j := by
  obtain ⟨hi', rfl⟩ := List.getElem?_eq_some_iff.mp hi
  obtain ⟨hj', rfl⟩ := List.getElem?_eq_some_iff.mp hj
  rw [List.pairwise_iff_getElem] at h
  rcases Nat.lt_trichotomy i j with hlt | heq | hgt
  · exact absurd he (h i j hi' hj' hlt).ne
  · exact heq
  · exact absurd he.symm (h j i hj' hi' hgt).ne

end SyntaxAudit
