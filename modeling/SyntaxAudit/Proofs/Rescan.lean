import SyntaxAudit.Proofs.Printing
import SyntaxAudit.Proofs.Reading

/-! Tokens that a scan has handed out are handed out again when their texts are written down with
white space between them: each of them ends there as it ended in the source. -/
namespace SyntaxAudit

namespace Lexeme

/-- What may stand behind a token: nothing, or white space, and behind a comment up to the end of
its line only a new line. -/
def Clears (text rest : List Char) : Prop :=
  ∀ b ∈ rest.head?, Text.isBlank b = true ∧ (['/', '/'] <+: text → b = '\n')

instance (text rest : List Char) : Decidable (Clears text rest) :=
  Option.decidableForallMem rest.head?

/-- What stands behind a token now is nothing, or white space, or begins like `rest`, which stood
there before. -/
def Resumes (rest more : List Char) : Prop :=
  ∀ b ∈ more.head?, Text.isBlank b = true ∨ rest.head? = some b

/-- A character that ended a token before ends it again, if white space does too. -/
theorem Resumes.stops {rest more : List Char} {p : Char → Prop} (h : Resumes rest more)
    (hblank : ∀ b, Text.isBlank b = true → p b) (hrest : ∀ b ∈ rest.head?, p b) :
    ∀ b ∈ more.head?, p b := by
  intro b hb
  rcases h b hb with hb | hb
  · exact hblank b hb
  · exact hrest b hb

section Comments

theorem cutComment?_ne_nil {cs body rest : List Char} (h : cutComment? cs = some (body, rest)) :
    body ≠ [] := by
  revert h
  fun_cases cutComment? cs with
  | case1 => simp
  | case2 cs =>
    rintro ⟨⟩
    simp
  | case3 c cs =>
    intro h
    obtain ⟨inner, -, he⟩ := Option.map_eq_some_iff.mp h
    obtain ⟨rfl, -⟩ := Prod.mk.inj he
    simp

/-- A comment is closed at the same place whatever stands behind it. -/
theorem cutComment?_behind {cs body rest : List Char} (h : cutComment? cs = some (body, rest))
    (more : List Char) : cutComment? (body ++ more) = some (body, more) := by
  fun_induction cutComment? cs generalizing body with
  | case1 => cases h
  | case2 cs =>
    obtain ⟨rfl, -⟩ := Prod.mk.inj (Option.some.inj h)
    rfl
  | case3 c cs hclose ih =>
    obtain ⟨⟨inner, behind⟩, hinner, he⟩ := Option.map_eq_some_iff.mp h
    obtain ⟨rfl, rfl⟩ := Prod.mk.inj he
    -- the character behind `c` is the same as before, so it does not close the comment
    have hopen : ∀ ds, c = '*' → inner ++ more = '/' :: ds → False := by
      intro ds hstar hslash
      obtain ⟨d, tail, rfl⟩ := List.exists_cons_of_ne_nil (cutComment?_ne_nil hinner)
      have hcs := cutComment?_append hinner
      rw [List.cons_append, List.cons.injEq] at hslash
      rw [List.cons_append, hslash.1] at hcs
      exact hclose _ hstar hcs.symm
    rw [List.cons_append, cutComment?.eq_3 c _ hopen, ih hinner]
    rfl

theorem lexemes_lineComment {body rest : List Char} (hbody : ∀ c ∈ body, (c != '\n') = true)
    (hrest : ∀ b ∈ rest.head?, b = '\n') :
    lexemes ('/' :: '/' :: (body ++ rest)) =
      ⟨.token .comment, '/' :: '/' :: body⟩ :: lexemes rest := by
  have hfirst : first '/' ('/' :: (body ++ rest)) = lineComment (body ++ rest) := rfl
  obtain ⟨htake, hdrop⟩ := @span_append (· != '\n') body rest hbody fun b hb => by simp [hrest b hb]
  rw [lexemes_cons, hfirst, lineComment, htake, hdrop]

end Comments

section Operators
variable {c : Char}

/-- An operator does not begin like a word, a number, a string or a punctuation sign. -/
theorem first_operator (h : Operator.startsWith c = true) {cs : List Char}
    (hopen : ¬(c = '/' ∧ (cs.head? = some '/' ∨ cs.head? = some '*'))) :
    first c cs = operator c cs := by
  obtain ⟨o, -, ho⟩ := List.any_eq_true.mp h
  have hhead : o.spelling.toList.head? = some c := by simpa using ho
  have hblank : ¬Text.isBlank c = true :=
    List.any_eq_false.mp (isBlank_operator o) c (List.mem_of_head? hhead)
  have hline : ¬(c = '/' ∧ cs.head? = some '/') := fun hc => hopen ⟨hc.1, .inl hc.2⟩
  have hblock : ¬(c = '/' ∧ cs.head? = some '*') := fun hc => hopen ⟨hc.1, .inr hc.2⟩
  rw [first, if_neg hblank, if_neg hline, if_neg hblock]
  cases o <;> obtain rfl := Option.some.inj hhead <;> rfl

/-- An operator of one character is read again. -/
theorem reread_single {rest more : List Char} (hstarts : Operator.startsWith c = true)
    (hopen : ¬(c = '/' ∧ (rest.head? = some '/' ∨ rest.head? = some '*')))
    (hpair : ∀ d ∈ rest.head?, ¬(Operator.ofSpelling? (String.ofList [c, d])).isSome = true)
    (hmore : Resumes rest more) :
    lexemes (c :: more) = ⟨.token .operator, [c]⟩ :: lexemes more := by
  have hopen' : ¬(c = '/' ∧ (more.head? = some '/' ∨ more.head? = some '*')) := by
    rintro ⟨hslash, hnext⟩
    have hvisible : ∀ b ∈ more.head?, ¬(b = '/' ∨ b = '*') := by
      refine hmore.stops ?_ ?_
      · rintro b hb (rfl | rfl) <;> exact absurd hb (by decide)
      · rintro b hb (rfl | rfl)
        · exact hopen ⟨hslash, .inl hb⟩
        · exact hopen ⟨hslash, .inr hb⟩
    rcases hnext with hnext | hnext
    · exact hvisible _ hnext (.inl rfl)
    · exact hvisible _ hnext (.inr rfl)
  have hsingle : operator c more = (⟨.token .operator, [c]⟩, more) := by
    cases more with
    | nil => rfl
    | cons b more =>
      rcases hmore b rfl with hb | hb
      · exact operator_apart c fun d hd => (Option.some.inj hd) ▸ hb
      · rw [operator, if_neg (hpair b hb)]
  rw [lexemes_cons, first_operator hstarts hopen', hsingle]

/-- An operator is read again, with one character or with two. -/
theorem reread_operator {kind : TokenKind} {cs text rest more : List Char}
    (hstarts : Operator.startsWith c = true)
    (hopen : ¬(c = '/' ∧ (cs.head? = some '/' ∨ cs.head? = some '*')))
    (h : operator c cs = (⟨.token kind, text⟩, rest)) (hmore : Resumes rest more) :
    lexemes (text ++ more) = ⟨.token kind, text⟩ :: lexemes more := by
  revert h
  fun_cases operator c cs with
  | case1 d ds hpair =>
    intro h
    obtain ⟨rfl, rfl, -⟩ := token_eq_iff.mp h
    have hfirst : first c (d :: more) = operator c (d :: more) := first_operator hstarts hopen
    rw [List.cons_append, List.singleton_append, lexemes_cons, hfirst, operator, if_pos hpair]
  | case2 d ds hpair =>
    intro h
    obtain ⟨rfl, rfl, rfl⟩ := token_eq_iff.mp h
    refine reread_single hstarts hopen ?_ hmore
    rintro _ ⟨⟩
    exact hpair
  | case3 =>
    intro h
    obtain ⟨rfl, rfl, rfl⟩ := token_eq_iff.mp h
    exact reread_single hstarts hopen (by simp) hmore

end Operators

section Numbers

/-- Digits and a point are cut off again. -/
theorem cutNumber_again {cs more : List Char} (hmore : Resumes (cutNumber cs).2 more) :
    cutNumber ((cutNumber cs).1 ++ more) = ((cutNumber cs).1, more) := by
  have hdigits (text : List Char) : ∀ d ∈ text.takeWhile Char.isDigit, d.isDigit = true :=
    List.all_eq_true.mp List.all_takeWhile
  revert hmore
  unfold cutNumber
  split
  · rename_i rest _
    intro hmore
    rw [List.append_assoc, List.cons_append]
    refine cutNumber_fraction (hdigits cs) (hdigits rest) (hmore.stops ?_ ?_)
    · exact fun b => isDigit_of_isBlank
    · exact stops_dropWhile Char.isDigit rest
  · rename_i hopen
    intro hmore
    refine cutNumber_whole (hdigits cs) (hmore.stops ?_ ?_)
    · exact fun b hb => ⟨isDigit_of_isBlank hb, ne_point_of_isBlank hb⟩
    · intro b hb
      refine ⟨stops_dropWhile Char.isDigit cs b hb, ?_⟩
      rintro rfl
      obtain ⟨rest, hrest⟩ := List.head?_eq_some_iff.mp hb
      exact hopen rest hrest

end Numbers

/-- How far a token goes depends on no more than the character behind it: in front of white space,
or of what stood behind it before, it is read again from its own text. Only a comment up to the end
of its line needs a new line there. -/
theorem reread_first {kind : TokenKind} {c : Char} {cs text rest : List Char}
    (h : first c cs = (⟨.token kind, text⟩, rest)) {more : List Char} (hmore : Resumes rest more)
    (hline : ['/', '/'] <+: text → ∀ b ∈ more.head?, b = '\n') :
    lexemes (text ++ more) = ⟨.token kind, text⟩ :: lexemes more := by
  revert h
  refine first_cases c cs ?blank ?lineComment ?blockComment ?quotation ?number ?word ?mark
    ?operator ?unexpected
  case blank => simp
  case lineComment =>
    intro ds _ _ _ h
    obtain ⟨rfl, rfl, -⟩ := token_eq_iff.mp h
    exact lexemes_lineComment (List.all_eq_true.mp List.all_takeWhile) (hline ⟨_, rfl⟩)
  case blockComment =>
    intro ds _ _ _ h
    unfold blockComment at h
    split at h
    · rename_i hcut
      obtain ⟨rfl, rfl, -⟩ := token_eq_iff.mp h
      have hfirst (behind : List Char) : first '/' ('*' :: behind) = blockComment behind := rfl
      rw [List.cons_append, List.cons_append, lexemes_cons, hfirst, blockComment,
        cutComment?_behind hcut]
    · simp at h
  case quotation =>
    intro _ hquote h
    unfold quotation at h
    split at h
    · rename_i hcut
      obtain ⟨rfl, rfl, -⟩ := token_eq_iff.mp h
      obtain ⟨body, hbody, rfl⟩ := isQuoted_of_cutString? hcut
      rw [List.cons_append, lexemes_cons, first_quote hquote, quotation, List.append_assoc,
        List.singleton_append, cutString?_quoted (ne_backslash hquote) hbody]
    · simp at h
  case number =>
    intro _ hdigit h
    obtain ⟨rfl, rfl, rfl⟩ := token_eq_iff.mp h
    rw [List.cons_append, lexemes_cons, first_of_isWordPart (isWordPart_iff.mpr (.inr hdigit)),
      if_pos hdigit, Lexeme.number, cutNumber_again hmore]
  case word =>
    intro _ hstart h
    obtain ⟨rfl, rfl, rfl⟩ := token_eq_iff.mp h
    have hstop : ∀ b ∈ more.head?, isWordPart b = false :=
      hmore.stops (fun b => isWordPart_of_isBlank) (stops_dropWhile isWordPart cs)
    obtain ⟨htake, hdrop⟩ := span_append (List.all_eq_true.mp List.all_takeWhile) hstop
    rw [List.cons_append, lexemes_cons, first_of_isWordStart hstart, Lexeme.word, htake, hdrop]
  case mark =>
    intro p _ hp h
    obtain ⟨rfl, rfl, -⟩ := token_eq_iff.mp h
    rw [hp, List.singleton_append, lexemes_cons, first_mark]
  case operator =>
    intro _ hstarts hopen h
    exact reread_operator hstarts hopen h hmore
  case unexpected => simp

end Lexeme

/-- The texts that hold the spellings of tokens in their order, with white space before and behind
them all and between any two of them. That the space between two tokens is not empty is what
`Clears` asks for behind the first of them. -/
inductive Spaced : List Token → List Char → Prop
  | nil {gap : List Char} : (∀ c ∈ gap, Text.isBlank c = true) → Spaced [] gap
  | cons {gap rest : List Char} {t : Token} {ts : List Token} :
      (∀ c ∈ gap, Text.isBlank c = true) → Lexeme.Clears t.text.toList rest → Spaced ts rest →
      Spaced (t :: ts) (gap ++ (t.text.toList ++ rest))

def Token.spelled (t : Token) : TokenKind × String :=
  (t.kind, t.text)

/-- A token that a scan hands out whenever it comes to its text, if that stands clear. -/
structure Token.Recurs (options : ScanOptions) (t : Token) : Prop where
  kept : t.kind = .comment → options.keepComments = true
  reread : ∀ rest, Lexeme.Clears t.text.toList rest →
    lexemes (t.text.toList ++ rest) = ⟨.token t.kind, t.text.toList⟩ :: lexemes rest

section
variable {options : ScanOptions} {source : String} {tokens : List Token} {t : Token}

/-- A piece that is handed out as a token recurs wherever its text stands clear. -/
theorem recurs_of_item {p : Position} {c : Char} {cs : List Char}
    (h : (Lexeme.first c cs).1.item? options p = some (.token t)) : t.Recurs options := by
  rcases hl : Lexeme.first c cs with ⟨⟨kind, text⟩, rest⟩
  rw [hl] at h
  cases kind with
  | token kind =>
    obtain ⟨hkept, ht⟩ := item?_token.mp h
    obtain rfl := Item.token.inj ht
    refine ⟨hkept, ?_⟩
    intro more hmore
    rw [String.toList_ofList] at hmore ⊢
    exact Lexeme.reread_first hl (fun b hb => .inl (hmore b hb).1) fun hline b hb =>
      (hmore b hb).2 hline
  | blank => cases h
  | _ => cases Option.some.inj h

/-- Every token of a scan but the end mark recurs. -/
theorem recurs_of_scan (h : scan options source = .ok tokens) (ht : t ∈ tokens)
    (hend : t.isEnd = false) : t.Recurs options := by
  obtain ⟨before, span, hread⟩ := exists_readFrom (mem_items_of_token h ht)
  cases hread with
  | piece hpieces hitem =>
    obtain ⟨c, cs, -, rfl, -⟩ := Lexeme.first_of_lexemes hpieces
    exact recurs_of_item hitem
  | endMark hmark =>
    obtain rfl := Item.token.inj (mem_endItems.mp hmark).2
    cases hend

/-- A spaced text hands out its tokens, at other places, and the end mark behind them. -/
theorem itemsFrom_spaced {ts : List Token} {text : List Char} (h : Spaced ts text)
    (hts : ∀ t ∈ ts, t.Recurs options) (p : Position) :
    ∃ (again : List Token) (q : Position),
      itemsFrom options p (lexemes text) = again.map .token ++ options.endItems q ∧
      again.map Token.spelled = ts.map Token.spelled := by
  induction h generalizing p with
  | @nil gap hgap => exact ⟨[], p.after gap, itemsFrom_trailing hgap p, rfl⟩
  | @cons gap rest t ts hgap hclear _ ih =>
    obtain ⟨ht, hts⟩ := List.forall_mem_cons.mp hts
    obtain ⟨again, q, hitems, hagain⟩ := ih hts ((p.after gap).after t.text.toList)
    refine ⟨⟨t.kind, t.text, p.after gap⟩ :: again, q, ?_, ?_⟩
    · rw [itemsFrom_blank hgap, itemsFrom_token ht.kept (ht.reread rest hclear), hitems,
        String.ofList_toList]
      rfl
    · rw [List.map_cons, List.map_cons, hagain]
      rfl

/-- The end marks of two scans differ only in their places. -/
theorem spelled_endTokens (options : ScanOptions) (p q : Position) :
    (options.endTokens p).map Token.spelled = (options.endTokens q).map Token.spelled := by
  unfold ScanOptions.endTokens
  split <;> rfl

theorem filter_endTokens {body : List Token} (h : ∀ t ∈ body, t.isEnd = false) (p : Position) :
    (body ++ options.endTokens p).filter (!·.isEnd) = body := by
  have hbody : body.filter (!·.isEnd) = body := List.filter_eq_self.mpr fun t ht => by simp [h t ht]
  have hmark : (options.endTokens p).filter (!·.isEnd) = [] := by
    unfold ScanOptions.endTokens
    split <;> rfl
  rw [List.filter_append, hbody, hmark, List.append_nil]

end

/-- A text with the spellings of the tokens of a scan in their order, with any white space before,
between and behind them that does not run into a comment, is scanned without an error under the same
settings, and to tokens of the same classes and texts. -/
theorem scan_undoes_spacing {options : ScanOptions} {source : String} {tokens : List Token}
    (h : scan options source = .ok tokens) {text : String}
    (hspaced : Spaced (tokens.filter (!·.isEnd)) text.toList) :
    ∃ again, scan options text = .ok again ∧
      again.map Token.spelled = tokens.map Token.spelled := by
  obtain ⟨body, rfl, hend, -⟩ := tokens_of_scan h
  rw [filter_endTokens hend] at hspaced
  have hrecur : ∀ t ∈ body, t.Recurs options := fun t ht =>
    recurs_of_scan h (List.mem_append_left _ ht) (hend t ht)
  obtain ⟨again, q, hitems, hagain⟩ := itemsFrom_spaced hspaced hrecur .start
  refine ⟨again ++ options.endTokens q, ?_, ?_⟩
  · rw [scan, items, hitems, endItems_eq, ← List.map_append, collect_map_token]
  · rw [List.map_append, List.map_append, hagain, spelled_endTokens]

def solid : String := "1.//c'\n/**/<="

def solidTokens : List Token :=
  [⟨.number, "1.", ⟨1, 1⟩⟩, ⟨.comment, "//c'", ⟨1, 3⟩⟩, ⟨.comment, "/**/", ⟨2, 1⟩⟩,
    ⟨.operator, "<=", ⟨2, 5⟩⟩, ⟨.endOfInput, "", ⟨2, 7⟩⟩]

def loose : String := " 1.\t//c'\n\n/**/\u00a0<=\n"

theorem scan_undoes_spacing_loose :
    scan { keepComments := true } solid = .ok solidTokens ∧
    Spaced (solidTokens.filter (!·.isEnd)) loose.toList ∧
    ∃ again, scan { keepComments := true } loose = .ok again ∧
      again.map Token.spelled = solidTokens.map Token.spelled := by
  have hitems : items { keepComments := true } solid = solidTokens.map .token := by decide +kernel
  have hscan : scan { keepComments := true } solid = .ok solidTokens := by
    rw [scan, hitems]
    rfl
  have hspaced : Spaced (solidTokens.filter (!·.isEnd)) loose.toList :=
    @Spaced.cons [' '] _ _ _ (List.all_eq_true.mp rfl) (by decide) <|
    @Spaced.cons ['\t'] _ _ _ (List.all_eq_true.mp rfl) (by decide) <|
    @Spaced.cons ['\n', '\n'] _ _ _ (List.all_eq_true.mp rfl) (by decide) <|
    @Spaced.cons ['\u00a0'] _ _ _ (List.all_eq_true.mp rfl) (by decide) <|
    @Spaced.nil ['\n'] (List.all_eq_true.mp rfl)
  exact ⟨hscan, hspaced, scan_undoes_spacing hscan hspaced⟩

end SyntaxAudit
