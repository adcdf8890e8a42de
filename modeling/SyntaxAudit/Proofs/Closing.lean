import SyntaxAudit.Proofs.Reading
import SyntaxAudit.Proofs.Spelling

/-! Where strings and comments end: at the first place in the text behind their opening where they
can be closed, and if there is none they stay open and are an error. -/
namespace SyntaxAudit

/-- What closes a piece of text: a sign, and what may stand between the opening and the sign. -/
structure Closing where
  sign : List Char
  Admits : List Char → Prop

namespace Closing

def At (closing : Closing) (text body rest : List Char) : Prop :=
  text = body ++ (closing.sign ++ rest) ∧ closing.Admits body

def First (closing : Closing) (text body rest : List Char) : Prop :=
  closing.At text body rest ∧
    ∀ body' rest', closing.At text body' rest' → body.length ≤ body'.length

def backslashes (body : List Char) : Nat :=
  (body.reverse.takeWhile (· == '\\')).length

/-- A string is closed by its quote behind an even number of backslashes. -/
def string (quote : Char) : Closing :=
  ⟨[quote], fun body => backslashes body % 2 = 0⟩

def comment : Closing :=
  ⟨['*', '/'], fun _ => True⟩

/-- A text that can be closed has a first place where it can. -/
theorem exists_first {closing : Closing} {text body rest : List Char}
    (h : closing.At text body rest) : ∃ body rest, closing.First text body rest := by
  induction hn : body.length using Nat.strongRecOn generalizing body rest with
  | ind n ih =>
    by_cases hearlier : ∃ body' rest', closing.At text body' rest' ∧ body'.length < body.length
    · obtain ⟨body', rest', hat, hlt⟩ := hearlier
      exact ih body'.length (hn ▸ hlt) hat rfl
    · refine ⟨body, rest, h, ?_⟩
      intro body' rest' hat
      apply Nat.le_of_not_lt
      intro hlt
      exact hearlier ⟨body', rest', hat, hlt⟩

section Backslashes

theorem backslashes_append (u v : List Char) :
    backslashes (u ++ v) =
      if backslashes v = v.length then v.length + backslashes u else backslashes v := by
  unfold backslashes
  rw [List.reverse_append, List.takeWhile_append, List.length_reverse]
  split <;> simp

theorem backslashes_plain {c : Char} (hc : c ≠ '\\') (body : List Char) :
    backslashes (c :: body) = backslashes body := by
  have hnone : backslashes [c] = 0 := by simp [backslashes, hc]
  have happend := backslashes_append [c] body
  rw [List.singleton_append, hnone] at happend
  rw [happend]
  split <;> simp [*]

/-- A backslash and the character it hides do not count. -/
theorem backslashes_hidden (c : Char) (body : List Char) :
    backslashes ('\\' :: c :: body) % 2 = backslashes body % 2 := by
  have hpair : backslashes ['\\', c] % 2 = 0 := by
    by_cases hc : c = '\\'
    · simp [backslashes, hc]
    · simp [backslashes, hc]
  have happend := backslashes_append ['\\', c] body
  rw [List.cons_append, List.singleton_append] at happend
  rw [happend]
  split <;> omega

end Backslashes

end Closing

namespace Lexeme
open Closing

section Strings
variable {quote : Char}

/-- What stands between two quotes closes with the second one, and no quote inside does. -/
theorem backslashes_of_isQuoted (hquote : quote ≠ '\\') {body : List Char}
    (h : IsQuoted quote body) :
    backslashes body % 2 = 0 ∧ ∀ u v, body = u ++ quote :: v → backslashes u % 2 = 1 := by
  induction h with
  | nil => exact ⟨rfl, by simp⟩
  | @plain c body hc hbackslash _ ih =>
    refine ⟨(congrArg (· % 2) (backslashes_plain hbackslash body)).trans ih.1, ?_⟩
    intro u v hsplit
    rcases u with _ | ⟨d, u⟩
    · exact absurd (List.cons.inj hsplit).1 hc
    · obtain ⟨hd, htail⟩ := List.cons.inj hsplit
      rw [← hd, backslashes_plain hbackslash]
      exact ih.2 u v htail
  | @hidden c body _ ih =>
    refine ⟨(backslashes_hidden c body).trans ih.1, ?_⟩
    intro u v hsplit
    rcases u with _ | ⟨d, _ | ⟨e, u⟩⟩
    · exact absurd (List.cons.inj hsplit).1.symm hquote
    · rw [← (List.cons.inj hsplit).1]
      rfl
    · obtain ⟨hd, htail⟩ := List.cons.inj hsplit
      rw [← hd, backslashes_hidden]
      exact ih.2 u v (List.cons.inj htail).2

theorem isQuoted_of_backslashes {body : List Char} (heven : backslashes body % 2 = 0)
    (hinside : ∀ u v, body = u ++ quote :: v → backslashes u % 2 = 1) : IsQuoted quote body := by
  fun_induction cutString? quote body with
  | case1 => exact .nil
  | case2 c cs ih =>
    refine .hidden (ih ?_ ?_)
    · rwa [backslashes_hidden] at heven
    · intro u v hsplit
      rw [← backslashes_hidden c u]
      exact hinside ('\\' :: c :: u) v (by rw [hsplit]; rfl)
  | case3 cs _ => exact absurd (hinside [] cs rfl) (by decide)
  | case4 c cs hpair hc ih =>
    -- a backslash that hides nothing is the only character left, and no quote may follow it
    have hbackslash : c ≠ '\\' := by
      rintro rfl
      cases cs with
      | nil => exact absurd heven (by decide)
      | cons d ds => exact hpair d ds rfl rfl
    refine .plain hc hbackslash (ih ?_ ?_)
    · rwa [backslashes_plain hbackslash] at heven
    · intro u v hsplit
      rw [← backslashes_plain hbackslash u]
      exact hinside (c :: u) v (by rw [hsplit]; rfl)

/-- A string is cut behind the first quote that closes it. -/
theorem cutString?_of_first (hquote : quote ≠ '\\') {cs body rest : List Char}
    (h : (string quote).First cs body rest) :
    cutString? quote cs = some (body ++ [quote], rest) := by
  obtain ⟨⟨rfl, heven⟩, hfirst⟩ := h
  refine cutString?_quoted hquote (isQuoted_of_backslashes heven ?_) rest
  rintro u v rfl
  -- an earlier quote behind an even number of backslashes would close the string there
  apply Nat.mod_two_ne_zero.mp
  intro hu
  have hle := hfirst u (v ++ quote :: rest) ⟨by simp [string], hu⟩
  simp only [List.length_append, List.length_cons] at hle
  omega

theorem first_of_cutString? (hquote : quote ≠ '\\') {cs text rest : List Char}
    (h : cutString? quote cs = some (text, rest)) :
    ∃ body, text = body ++ [quote] ∧ (string quote).First cs body rest := by
  obtain ⟨body, hbody, rfl⟩ := isQuoted_of_cutString? h
  obtain ⟨heven, hinside⟩ := backslashes_of_isQuoted hquote hbody
  have hcs : cs = body ++ quote :: rest := by
    rw [← cutString?_append h, List.append_assoc]
    rfl
  refine ⟨body, rfl, ⟨hcs, heven⟩, ?_⟩
  rintro body' rest' ⟨hcs', heven'⟩
  rcases List.append_eq_append_iff.mp (hcs.symm.trans hcs') with
    ⟨between, rfl, -⟩ | ⟨between, rfl, hsplit⟩
  · simp
  · cases between with
    | nil => simp
    | cons d between =>
      obtain rfl : quote = d := (List.cons.inj hsplit).1
      have hodd := hinside body' between rfl
      have heven' : backslashes body' % 2 = 0 := heven'
      omega

end Strings

section Comments

/-- A comment is cut behind the first `*/`. -/
theorem cutComment?_of_first {cs body rest : List Char} (h : comment.First cs body rest) :
    cutComment? cs = some (body ++ ['*', '/'], rest) := by
  obtain ⟨⟨rfl, -⟩, hfirst⟩ := h
  induction body with
  | nil => rfl
  | cons c body ih =>
    have hopen : ∀ ds, c = '*' → body ++ ('*' :: '/' :: rest) = '/' :: ds → False := by
      rintro ds rfl hslash
      have hle := hfirst [] ds ⟨congrArg (List.cons '*') hslash, trivial⟩
      simp at hle
    have hcut := ih fun body' rest' hat =>
      Nat.le_of_succ_le_succ (hfirst (c :: body') rest' ⟨congrArg (List.cons c) hat.1, trivial⟩)
    have hstep := cutComment?.eq_3 c _ hopen
    rw [List.cons_append]
    refine hstep.trans ?_
    rw [show cutComment? (body ++ ('*' :: '/' :: rest)) = _ from hcut]
    rfl

theorem first_of_cutComment? {cs text rest : List Char} (h : cutComment? cs = some (text, rest)) :
    ∃ body, text = body ++ ['*', '/'] ∧ comment.First cs body rest := by
  fun_induction cutComment? cs generalizing text with
  | case1 => cases h
  | case2 cs =>
    obtain ⟨rfl, rfl⟩ := Prod.mk.inj (Option.some.inj h)
    exact ⟨[], rfl, ⟨rfl, trivial⟩, fun _ _ _ => Nat.zero_le _⟩
  | case3 c cs hclose ih =>
    obtain ⟨⟨inner, behind⟩, hinner, he⟩ := Option.map_eq_some_iff.mp h
    obtain ⟨rfl, rfl⟩ := Prod.mk.inj he
    obtain ⟨body, rfl, ⟨hcs, -⟩, hfirst⟩ := ih hinner
    refine ⟨c :: body, rfl, ⟨congrArg (List.cons c) hcs, trivial⟩, ?_⟩
    rintro body' rest' ⟨hcs', -⟩
    cases body' with
    | nil =>
      obtain ⟨hstar, hslash⟩ := List.cons.inj hcs'
      exact (hclose rest' hstar hslash).elim
    | cons d body' => exact Nat.succ_le_succ (hfirst body' rest' ⟨(List.cons.inj hcs').2, trivial⟩)

end Comments

/-- A string that can be closed is one token up to the first place where it can. -/
theorem first_string {quote : Char} (hquote : quote = '\x22' ∨ quote = '\x27')
    {cs body rest : List Char} (h : (string quote).First cs body rest) :
    first quote cs = (⟨.token .string, quote :: (body ++ [quote])⟩, rest) := by
  rw [first_quote hquote, quotation, cutString?_of_first (ne_backslash hquote) h]

theorem first_openString {quote : Char} (hquote : quote = '\x22' ∨ quote = '\x27')
    {cs : List Char} (h : ∀ body rest, ¬(string quote).At cs body rest) :
    first quote cs = (⟨.openString, quote :: cs⟩, []) := by
  have hnone : cutString? quote cs = none := by
    rw [Option.eq_none_iff_forall_ne_some]
    rintro ⟨text, rest⟩ hcut
    obtain ⟨body, -, hfirst⟩ := first_of_cutString? (ne_backslash hquote) hcut
    exact h body rest hfirst.1
  rw [first_quote hquote, quotation, hnone]

theorem first_blockComment {cs body rest : List Char} (h : comment.First cs body rest) :
    first '/' ('*' :: cs) =
      (⟨.token .comment, '/' :: '*' :: (body ++ ['*', '/'])⟩, rest) := by
  have hfirst : first '/' ('*' :: cs) = blockComment cs := rfl
  rw [hfirst, blockComment, cutComment?_of_first h]

theorem first_openComment {cs : List Char} (h : ∀ body rest, ¬comment.At cs body rest) :
    first '/' ('*' :: cs) = (⟨.openComment, '/' :: '*' :: cs⟩, []) := by
  have hfirst : first '/' ('*' :: cs) = blockComment cs := rfl
  have hnone : cutComment? cs = none := by
    rw [Option.eq_none_iff_forall_ne_some]
    rintro ⟨text, rest⟩ hcut
    obtain ⟨body, -, hfirst⟩ := first_of_cutComment? hcut
    exact h body rest hfirst.1
  rw [hfirst, blockComment, hnone]

end Lexeme

/-- The scan of a source comes to the place between `before` and `rest`: it begins with the source,
and goes on behind each piece. -/
inductive Reaches (source : String) : List Char → List Char → Prop
  | start : Reaches source [] source.toList
  | piece {before cs : List Char} {c : Char} : Reaches source before (c :: cs) →
      Reaches source (before ++ (Lexeme.first c cs).1.text) (Lexeme.first c cs).2

section Reaching
variable {options : ScanOptions} {source : String} {before cs rest : List Char} {c : Char}

theorem Reaches.lexemes (h : Reaches source before rest) :
    ∃ pieces, lexemes source.toList = pieces ++ lexemes rest ∧
      pieces.flatMap Lexeme.text = before := by
  induction h with
  | start => exact ⟨[], rfl, rfl⟩
  | @piece before cs c _ ih =>
    obtain ⟨pieces, hpieces, rfl⟩ := ih
    refine ⟨pieces ++ [(Lexeme.first c cs).1], ?_, ?_⟩
    · rw [hpieces, lexemes_cons, List.append_assoc]
      rfl
    · rw [List.flatMap_append, List.flatMap_singleton]

theorem Reaches.behind {l : Lexeme} (h : Reaches source before (c :: cs))
    (hfirst : Lexeme.first c cs = (l, rest)) : Reaches source (before ++ l.text) rest := by
  have hnext := h.piece
  rwa [hfirst] at hnext

/-- The piece that begins where the scan has come to hands out its item there. -/
theorem Reaches.mem_items {l : Lexeme} {item : Item} (h : Reaches source before (c :: cs))
    (hfirst : Lexeme.first c cs = (l, rest))
    (hitem : l.item? options (.behind before) = some item) : item ∈ items options source := by
  obtain ⟨pieces, hpieces, rfl⟩ := h.lexemes
  have hplace : Position.behind (pieces.flatMap Lexeme.text) =
      .after .start (pieces.flatMap Lexeme.text) := Position.behind_append [] _
  rw [hplace] at hitem
  rw [items, hpieces, lexemes_cons, hfirst]
  exact mem_itemsFrom hitem

/-- No two items of a scan have the same place. -/
theorem eq_of_mem_items {a b : Item} (ha : a ∈ items options source)
    (hb : b ∈ items options source) (h : a.position = b.position) : a = b := by
  have horder := (pairwise_itemsFrom options .start source.toList).2
  obtain ⟨i, hi, rfl⟩ := List.mem_iff_getElem.mp ha
  obtain ⟨j, hj, rfl⟩ := List.mem_iff_getElem.mp hb
  rw [List.pairwise_iff_getElem] at horder
  rcases Nat.lt_trichotomy i j with hlt | rfl | hgt
  · exact absurd h (horder i j hi hj hlt).ne
  · rfl
  · exact absurd h.symm (horder j i hj hi hgt).ne

/-- Comments are handed out only if they are kept. -/
theorem keepComments_of_mem_items {t : Token} (h : .token t ∈ items options source)
    (ht : t.kind = .comment) : options.keepComments = true := by
  obtain ⟨before, span, hread⟩ := exists_readFrom h
  cases hread with
  | endMark hmark =>
    obtain rfl := Item.token.inj (mem_endItems.mp hmark).2
    cases ht
  | @piece pieces others l _ _ hitem =>
    obtain ⟨kind, text⟩ := l
    cases kind with
    | token kind =>
      obtain ⟨hkept, he⟩ := item?_token.mp hitem
      obtain rfl := Item.token.inj he
      exact hkept ht
    | blank => cases hitem
    | _ => cases Option.some.inj hitem

/-- A comment that the scan comes to is handed out exactly if comments are kept. -/
theorem comment_mem_items_iff {text : List Char} (h : Reaches source before (c :: cs))
    (hfirst : Lexeme.first c cs = (⟨.token .comment, text⟩, rest)) :
    .token ⟨.comment, String.ofList text, .behind before⟩ ∈ items options source ↔
      options.keepComments = true := by
  constructor
  · intro hmem
    exact keepComments_of_mem_items hmem rfl
  · intro hkeep
    exact h.mem_items hfirst (item?_token.mpr ⟨fun _ => hkeep, rfl⟩)

/-- An item where the scan has come to is no error if the piece that begins there is a token. -/
theorem error_notMem_items {cause : LexError.Cause} {kind : TokenKind} {text : List Char}
    (h : Reaches source before (c :: cs))
    (hfirst : Lexeme.first c cs = (⟨.token kind, text⟩, rest)) :
    .error ⟨cause, .behind before⟩ ∉ items options source := by
  intro herror
  -- with comments kept, the token is an item at the same place
  have hkept : .error ⟨cause, .behind before⟩ ∈ items { keepComments := true } source := by
    rw [items, ← mem_filterMap_error?] at herror ⊢
    rwa [errors_itemsFrom { keepComments := true } options]
  have htoken : .token ⟨kind, String.ofList text, .behind before⟩ ∈
      items { keepComments := true } source :=
    h.mem_items hfirst (item?_token.mpr ⟨fun _ => rfl, rfl⟩)
  cases eq_of_mem_items hkept htoken rfl

end Reaching

/-- Wherever a scan comes to a quote, it hands out a string up to the first place where the string
can be closed and goes on behind it, and an open string exactly if there is no such place. Wherever
it comes to `/*`, the comment goes up to the first `*/` behind that, and is open exactly if there is
none. Wherever it comes to `//`, the comment goes up to the end of the line or of the source. -/
theorem pieces_close_first (options : ScanOptions) (source : String) (before : List Char) :
    (∀ quote cs, quote = '\x22' ∨ quote = '\x27' → Reaches source before (quote :: cs) →
      (∀ body rest, (Closing.string quote).First cs body rest →
        .token ⟨.string, String.ofList (quote :: (body ++ [quote])), .behind before⟩ ∈
            items options source ∧
          Reaches source (before ++ quote :: (body ++ [quote])) rest) ∧
      (.error ⟨.unterminatedString, .behind before⟩ ∈ items options source ↔
        ∀ body rest, ¬(Closing.string quote).At cs body rest)) ∧
    (∀ cs, Reaches source before ('/' :: '*' :: cs) →
      (∀ body rest, Closing.comment.First cs body rest →
        (.token ⟨.comment, String.ofList ('/' :: '*' :: (body ++ ['*', '/'])), .behind before⟩ ∈
            items options source ↔ options.keepComments = true) ∧
          Reaches source (before ++ '/' :: '*' :: (body ++ ['*', '/'])) rest) ∧
      (.error ⟨.unterminatedComment, .behind before⟩ ∈ items options source ↔
        ∀ body rest, ¬Closing.comment.At cs body rest)) ∧
    ∀ cs, Reaches source before ('/' :: '/' :: cs) →
      ∃ body rest, cs = body ++ rest ∧ '\n' ∉ body ∧ (∀ c ∈ rest.head?, c = '\n') ∧
        (.token ⟨.comment, String.ofList ('/' :: '/' :: body), .behind before⟩ ∈
            items options source ↔ options.keepComments = true) ∧
          Reaches source (before ++ '/' :: '/' :: body) rest := by
  refine ⟨?string, ?blockComment, ?lineComment⟩
  case string =>
    intro quote cs hquote h
    refine ⟨?_, ?_, ?_⟩
    · intro body rest hfirst
      have hpiece := Lexeme.first_string hquote hfirst
      exact ⟨h.mem_items hpiece (item?_token.mpr ⟨by simp, rfl⟩), h.behind hpiece⟩
    · intro herror body rest hat
      obtain ⟨body, rest, hfirst⟩ := Closing.exists_first hat
      exact error_notMem_items h (Lexeme.first_string hquote hfirst) herror
    · intro hnone
      exact h.mem_items (Lexeme.first_openString hquote hnone) rfl
  case blockComment =>
    intro cs h
    refine ⟨?_, ?_, ?_⟩
    · intro body rest hfirst
      have hpiece := Lexeme.first_blockComment hfirst
      exact ⟨comment_mem_items_iff h hpiece, h.behind hpiece⟩
    · intro herror body rest hat
      obtain ⟨body, rest, hfirst⟩ := Closing.exists_first hat
      exact error_notMem_items h (Lexeme.first_blockComment hfirst) herror
    · intro hnone
      exact h.mem_items (Lexeme.first_openComment hnone) rfl
  case lineComment =>
    intro cs h
    have hpiece : Lexeme.first '/' ('/' :: cs) =
        (⟨.token .comment, '/' :: '/' :: cs.takeWhile (· != '\n')⟩, cs.dropWhile (· != '\n')) := rfl
    refine ⟨cs.takeWhile (· != '\n'), cs.dropWhile (· != '\n'),
      List.takeWhile_append_dropWhile.symm, ?_, ?_, comment_mem_items_iff h hpiece,
      h.behind hpiece⟩
    · intro hmem
      have hnot := List.all_eq_true.mp List.all_takeWhile _ hmem
      simp at hnot
    · intro c hc
      simpa using Lexeme.stops_dropWhile (· != '\n') cs c hc

/-- A string with a hidden backslash and a hidden quote, and right behind it a comment that its own
opening does not close. -/
def escaping : String := "'\\\\\\''/*/*/"

theorem pieces_close_first_escaping :
    (Closing.string '\x27').First "\\\\\\''/*/*/".toList "\\\\\\'".toList "/*/*/".toList ∧
    .token ⟨.string, "'\\\\\\''", ⟨1, 1⟩⟩ ∈ items {} escaping ∧
    Closing.comment.First "/*/".toList "/".toList [] ∧
    .token ⟨.comment, "/*/*/", ⟨1, 7⟩⟩ ∈ items { keepComments := true } escaping ∧
    .error ⟨.unterminatedString, ⟨1, 1⟩⟩ ∉ items {} escaping := by
  have hstring : (Closing.string '\x27').First "\\\\\\''/*/*/".toList "\\\\\\'".toList
      "/*/*/".toList := by
    obtain ⟨body, hbody, hfirst⟩ := @Lexeme.first_of_cutString? '\x27' (by decide)
      "\\\\\\''/*/*/".toList "\\\\\\''".toList "/*/*/".toList (by decide)
    obtain rfl : "\\\\\\'".toList = body := List.append_cancel_right hbody
    exact hfirst
  have hcomment : Closing.comment.First "/*/".toList "/".toList [] := by
    obtain ⟨body, hbody, hfirst⟩ :=
      @Lexeme.first_of_cutComment? "/*/".toList "/*/".toList [] (by decide)
    obtain rfl : "/".toList = body := List.append_cancel_right hbody
    exact hfirst
  obtain ⟨hquotes, -⟩ := pieces_close_first {} escaping []
  obtain ⟨hclosed, hopen⟩ := hquotes '\x27' _ (.inr rfl) .start
  obtain ⟨htoken, hbehind⟩ := hclosed _ _ hstring
  obtain ⟨-, hblocks, -⟩ := pieces_close_first { keepComments := true } escaping "'\\\\\\''".toList
  refine ⟨hstring, htoken, hcomment, ?_, ?_⟩
  · exact ((hblocks _ hbehind).1 _ _ hcomment).1.mpr rfl
  · exact fun herror => hopen.mp herror _ _ hstring.1

end SyntaxAudit
