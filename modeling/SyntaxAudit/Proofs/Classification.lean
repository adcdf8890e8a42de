import SyntaxAudit.Proofs.Reading
import SyntaxAudit.Proofs.Rescan

/-! The class of every scanned token is the one its text asks for, and the text goes as far as the
class allows: the character behind it could not be taken in. -/
namespace SyntaxAudit

def TokenKind.isWordKind : TokenKind → Bool
  | keyword | identifier | boolean | null | undefined => true
  | _ => false

namespace Lexeme

/-- A word in front of `next`: it takes in all letters, digits and underscores, and which word it is
decides about its class. -/
structure WordRule (kind : TokenKind) (text : List Char) (next : Option Char) : Prop where
  isWord : isWord text = true
  longest : ∀ c ∈ next, isWordPart c = false
  keyword : kind = .keyword ↔ ∃ k : Keyword, k.spelling.toList = text
  boolean : kind = .boolean ↔ text = "true".toList ∨ text = "false".toList
  null : kind = .null ↔ text = "null".toList
  undefined : kind = .undefined ↔ text = "undefined".toList
  identifier : kind = .identifier ↔
    (∀ k : Keyword, k.spelling.toList ≠ text) ∧ ∀ w : Literal, w.spelling.toList ≠ text

/-- A number in front of `next`: it takes in all digits, and a point if it has none yet. -/
structure NumberRule (text : List Char) (next : Option Char) : Prop where
  isNumeral : IsNumeral text
  longest : ∀ c ∈ next, c.isDigit = false ∧ ('.' ∉ text → c ≠ '.')

/-- An operator in front of `next`: the two together are no operator and open no comment. -/
structure OperatorRule (text : List Char) (next : Option Char) : Prop where
  spelling : ∃ o : Operator, o.spelling.toList = text
  longest : ∀ c ∈ next, (∀ o : Operator, o.spelling.toList ≠ text ++ [c]) ∧
    text ++ [c] ≠ ['/', '/'] ∧ text ++ [c] ≠ ['/', '*']

def Classified (kind : TokenKind) (text : List Char) (next : Option Char) : Prop :=
  match kind with
  | .keyword | .identifier | .boolean | .null | .undefined => WordRule kind text next
  | .number => NumberRule text next
  | .operator => OperatorRule text next
  | .punctuation => ∃ p : Punctuation, text = [p.char]
  | .string | .comment | .endOfInput => True

theorem WordRule.classified {kind : TokenKind} {text : List Char} {next : Option Char}
    (h : WordRule kind text next) (hkind : kind.isWordKind = true) :
    Classified kind text next := by
  cases kind with
  | keyword | identifier | boolean | null | undefined => exact h
  | _ => cases hkind

section Words

/-- A word is reserved, has a fixed value, or is a name. -/
theorem wordKind_cases (text : List Char) :
    (∃ k : Keyword, k.spelling.toList = text ∧ wordKind text = .keyword) ∨
    (∃ w : Literal, w.spelling.toList = text ∧ wordKind text = w.kind) ∨
    (∀ k : Keyword, k.spelling.toList ≠ text) ∧ (∀ w : Literal, w.spelling.toList ≠ text) ∧
      wordKind text = .identifier := by
  by_cases hk : ∃ k : Keyword, k.spelling.toList = text
  · left
    obtain ⟨k, rfl⟩ := hk
    exact ⟨k, rfl, wordKind_keyword k⟩
  by_cases hw : ∃ w : Literal, w.spelling.toList = text
  · right; left
    obtain ⟨w, rfl⟩ := hw
    exact ⟨w, rfl, wordKind_literal w⟩
  · right; right
    rw [not_exists] at hk hw
    exact ⟨hk, hw, wordKind_name (fun k => Ne.symm (hk k)) fun w => Ne.symm (hw w)⟩

theorem isWordKind_wordKind (text : List Char) : (wordKind text).isWordKind = true := by
  rcases wordKind_cases text with ⟨k, -, h⟩ | ⟨w, -, h⟩ | ⟨-, -, h⟩
  · rw [h]; rfl
  · rw [h]
    cases w <;> rfl
  · rw [h]; rfl

theorem wordKind_eq_keyword_iff {text : List Char} :
    wordKind text = .keyword ↔ ∃ k : Keyword, k.spelling.toList = text := by
  constructor
  · intro h
    rcases wordKind_cases text with ⟨k, hk, -⟩ | ⟨w, -, hw⟩ | ⟨-, -, hname⟩
    · exact ⟨k, hk⟩
    · rw [hw] at h
      cases w <;> cases h
    · rw [hname] at h
      cases h
  · rintro ⟨k, rfl⟩
    exact wordKind_keyword k

theorem wordKind_eq_identifier_iff {text : List Char} :
    wordKind text = .identifier ↔
      (∀ k : Keyword, k.spelling.toList ≠ text) ∧ ∀ w : Literal, w.spelling.toList ≠ text := by
  constructor
  · intro h
    rcases wordKind_cases text with ⟨k, -, hk⟩ | ⟨w, -, hw⟩ | ⟨hk, hw, -⟩
    · rw [hk] at h
      cases h
    · rw [hw] at h
      cases w <;> cases h
    · exact ⟨hk, hw⟩
  · rintro ⟨hk, hw⟩
    exact wordKind_name (fun k => (hk k).symm) fun w => (hw w).symm

/-- The other classes of words are those of the words with a fixed value. -/
theorem wordKind_eq_literal_iff {text : List Char} {kind : TokenKind} (hkeyword : kind ≠ .keyword)
    (hname : kind ≠ .identifier) :
    wordKind text = kind ↔ ∃ w : Literal, w.kind = kind ∧ w.spelling.toList = text := by
  constructor
  · rintro rfl
    rcases wordKind_cases text with ⟨k, -, hk⟩ | ⟨w, htext, hw⟩ | ⟨-, -, h⟩
    · exact absurd hk hkeyword
    · exact ⟨w, hw.symm, htext⟩
    · exact absurd h hname
  · rintro ⟨w, rfl, rfl⟩
    exact wordKind_literal w

theorem wordRule_wordKind {text : List Char} {next : Option Char} (hword : isWord text = true)
    (hnext : ∀ c ∈ next, isWordPart c = false) : WordRule (wordKind text) text next where
  isWord := hword
  longest := hnext
  keyword := wordKind_eq_keyword_iff
  boolean := by
    rw [wordKind_eq_literal_iff (by decide) (by decide)]
    constructor
    · rintro ⟨w, hw, rfl⟩
      cases w with
      | trueWord => exact .inl rfl
      | falseWord => exact .inr rfl
      | nullWord | undefinedWord => cases hw
    · rintro (rfl | rfl)
      · exact ⟨.trueWord, rfl, rfl⟩
      · exact ⟨.falseWord, rfl, rfl⟩
  null := by
    rw [wordKind_eq_literal_iff (by decide) (by decide)]
    constructor
    · rintro ⟨w, hw, rfl⟩
      cases w with
      | nullWord => rfl
      | trueWord | falseWord | undefinedWord => cases hw
    · rintro rfl
      exact ⟨.nullWord, rfl, rfl⟩
  undefined := by
    rw [wordKind_eq_literal_iff (by decide) (by decide)]
    constructor
    · rintro ⟨w, hw, rfl⟩
      cases w with
      | undefinedWord => rfl
      | trueWord | falseWord | nullWord => cases hw
    · rintro rfl
      exact ⟨.undefinedWord, rfl, rfl⟩
  identifier := wordKind_eq_identifier_iff

end Words

/-- What is left behind a number does not begin with a digit, nor with a point that the number could
still take in. -/
theorem stops_cutNumber (cs : List Char) :
    ∀ b ∈ (cutNumber cs).2.head?, b.isDigit = false ∧ ('.' ∉ (cutNumber cs).1 → b ≠ '.') := by
  intro b
  unfold cutNumber
  split
  · rename_i rest _
    intro hb
    refine ⟨stops_dropWhile Char.isDigit rest b hb, ?_⟩
    intro hpoint
    simp at hpoint
  · rename_i hopen
    intro hb
    refine ⟨stops_dropWhile Char.isDigit cs b hb, ?_⟩
    rintro - rfl
    obtain ⟨rest, hrest⟩ := List.head?_eq_some_iff.mp hb
    exact hopen rest hrest

theorem numberRule {c : Char} (hc : c.isDigit = true) (cs : List Char) :
    NumberRule (c :: (cutNumber cs).1) (cutNumber cs).2.head? := by
  refine ⟨isNumeral_cutNumber hc cs, ?_⟩
  intro b hb
  obtain ⟨hdigit, hpoint⟩ := stops_cutNumber cs b hb
  exact ⟨hdigit, fun hnone => hpoint fun hmem => hnone (List.mem_cons_of_mem c hmem)⟩

section Operators

/-- The first character of an operator is an operator by itself. -/
theorem exists_operator {c : Char} (h : Operator.startsWith c = true) :
    ∃ o : Operator, o.spelling.toList = [c] := by
  have hall : (Operator.all.all fun o =>
      Operator.all.any (·.spelling.toList == o.spelling.toList.take 1)) = true := by decide
  obtain ⟨o, ho, hstart⟩ := List.any_eq_true.mp h
  obtain ⟨o', -, hsingle⟩ := List.any_eq_true.mp (List.all_eq_true.mp hall o ho)
  refine ⟨o', ?_⟩
  rw [eq_of_beq hsingle, List.take_one, eq_of_beq hstart]
  rfl

theorem length_operator (o : Operator) : o.spelling.toList.length ≤ 2 := by
  cases o <;> decide

theorem operatorRule {c : Char} {cs : List Char} (hstarts : Operator.startsWith c = true)
    (hopen : ¬(c = '/' ∧ (cs.head? = some '/' ∨ cs.head? = some '*'))) :
    OperatorRule (operator c cs).1.text (operator c cs).2.head? := by
  fun_cases operator c cs with
  | case1 d ds hpair =>
    obtain ⟨o, ho⟩ := Option.isSome_iff_exists.mp hpair
    have hspelling : o.spelling.toList = [c, d] := by
      rw [Operator.ofSpelling?_eq_some_iff.mp ho, String.toList_ofList]
    refine ⟨⟨o, hspelling⟩, ?_⟩
    -- no operator has three characters
    intro b _
    refine ⟨?_, by simp, by simp⟩
    intro o' ho'
    have hlength := length_operator o'
    rw [ho'] at hlength
    simp at hlength
  | case2 d ds hpair =>
    refine ⟨exists_operator hstarts, ?_⟩
    intro b hb
    obtain rfl : d = b := Option.some.inj hb
    refine ⟨?_, ?_, ?_⟩
    · intro o ho
      apply hpair
      rw [Option.isSome_iff_exists]
      refine ⟨o, Operator.ofSpelling?_eq_some_iff.mpr ?_⟩
      rw [← String.toList_inj, ho, String.toList_ofList]
      rfl
    · intro hline
      simp only [List.singleton_append, List.cons.injEq, and_true] at hline
      exact hopen ⟨hline.1, .inl (congrArg some hline.2)⟩
    · intro hblock
      simp only [List.singleton_append, List.cons.injEq, and_true] at hblock
      exact hopen ⟨hblock.1, .inr (congrArg some hblock.2)⟩
  | case3 =>
    refine ⟨exists_operator hstarts, ?_⟩
    intro b hb
    cases hb

end Operators

theorem classified_first {kind : TokenKind} {c : Char} {cs text rest : List Char}
    (h : first c cs = (⟨.token kind, text⟩, rest)) : Classified kind text rest.head? := by
  revert h
  refine first_cases c cs ?blank ?lineComment ?blockComment ?quotation ?number ?word ?mark
    ?operator ?unexpected
  case blank => simp
  case lineComment =>
    intro ds _ _ _ h
    obtain ⟨rfl, -⟩ := token_eq_iff.mp h
    trivial
  case blockComment =>
    intro ds _ _ _ h
    unfold blockComment at h
    split at h
    · obtain ⟨rfl, -⟩ := token_eq_iff.mp h
      trivial
    · simp at h
  case quotation =>
    intro _ _ h
    unfold quotation at h
    split at h
    · obtain ⟨rfl, -⟩ := token_eq_iff.mp h
      trivial
    · simp at h
  case number =>
    intro _ hdigit h
    obtain ⟨rfl, rfl, rfl⟩ := token_eq_iff.mp h
    exact numberRule hdigit cs
  case word =>
    intro _ hstart h
    obtain ⟨rfl, rfl, rfl⟩ := token_eq_iff.mp h
    exact (wordRule_wordKind (isWord_takeWhile hstart cs)
      (stops_dropWhile isWordPart cs)).classified (isWordKind_wordKind _)
  case mark =>
    intro p _ hp h
    obtain ⟨rfl, rfl, -⟩ := token_eq_iff.mp h
    exact ⟨p, congrArg (List.cons · []) hp⟩
  case operator =>
    intro _ hstarts hopen h
    have hrule := operatorRule hstarts hopen
    have hkind : (operator c cs).1.kind = .token .operator := by
      unfold operator
      repeat' split
      all_goals rfl
    rw [h] at hrule hkind
    obtain rfl : kind = .operator := LexemeKind.token.inj hkind
    exact hrule
  case unexpected => simp

end Lexeme

namespace Token

/-- A look-up by spelling that is made for one class only. -/
theorem isSome_lookup_iff {α : Type} {ofSpelling? : String → Option α} {spelling : α → String}
    (h : ∀ {s : String} {a : α}, ofSpelling? s = some a ↔ spelling a = s) {p : Prop} [Decidable p]
    {text : String} :
    (if p then ofSpelling? text else none).isSome = true ↔
      p ∧ ∃ a, (spelling a).toList = text.toList := by
  by_cases hp : p
  · simp [hp, Option.isSome_iff_exists, h, String.toList_inj]
  · simp [hp]

variable {t : Token} {next : Option Char}

theorem keyword?_of_classified (h : Lexeme.Classified t.kind t.text.toList next) :
    t.keyword?.isSome = true ↔ t.kind = .keyword := by
  rw [keyword?, isSome_lookup_iff Keyword.ofSpelling?_eq_some_iff, and_iff_left_iff_imp]
  intro hkind
  rw [hkind] at h
  exact h.keyword.mp rfl

theorem operator?_of_classified (h : Lexeme.Classified t.kind t.text.toList next) :
    t.operator?.isSome = true ↔ t.kind = .operator := by
  rw [operator?, isSome_lookup_iff Operator.ofSpelling?_eq_some_iff, and_iff_left_iff_imp]
  intro hkind
  rw [hkind] at h
  exact h.spelling

theorem punctuation?_of_classified (h : Lexeme.Classified t.kind t.text.toList next) :
    t.punctuation?.isSome = true ↔ t.kind = .punctuation := by
  rw [punctuation?, isSome_lookup_iff Punctuation.ofSpelling?_eq_some_iff, and_iff_left_iff_imp]
  intro hkind
  rw [hkind] at h
  obtain ⟨p, hp⟩ := h
  exact ⟨p, by rw [hp, Punctuation.spelling, String.toList_ofList]⟩

end Token

/-- A token of a scan has its text in the source at its place, and is classified there. -/
theorem classified_of_mem_items {options : ScanOptions} {source : String} {t : Token}
    (h : .token t ∈ items options source) :
    ∃ before rest, source.toList = before ++ (t.text.toList ++ rest) ∧
      t.position = .behind before ∧ Lexeme.Classified t.kind t.text.toList rest.head? := by
  obtain ⟨before, span, hread⟩ := exists_readFrom h
  cases hread with
  | endMark hmark =>
    obtain rfl := Item.token.inj (mem_endItems.mp hmark).2
    exact ⟨source.toList, [], by simp [Token.endAt], rfl, trivial⟩
  | piece hpieces hitem =>
    obtain ⟨c, cs, hsource, rfl, -⟩ := Lexeme.first_of_lexemes hpieces
    rw [← Lexeme.first_append c cs] at hsource
    rcases hfirst : Lexeme.first c cs with ⟨⟨kind, text⟩, rest⟩
    rw [hfirst] at hsource hitem
    cases kind with
    | token kind =>
      obtain ⟨-, ht⟩ := item?_token.mp hitem
      obtain rfl := Item.token.inj ht
      refine ⟨_, rest, ?_, rfl, ?_⟩
      · rw [String.toList_ofList]
        exact hsource
      · rw [String.toList_ofList]
        exact Lexeme.classified_first hfirst
    | blank => cases hitem
    | _ => cases Option.some.inj hitem

/-- Every token of a scan stands in the source at its place. There its text is one of its class, no
longer text that begins there is, and words have the class their text asks for. So keywords,
operators and punctuation signs can be told by their look-up, which succeeds for no other token. -/
theorem tokens_classified {options : ScanOptions} {source : String} {t : Token}
    (h : .token t ∈ items options source) :
    (∃ before rest, source.toList = before ++ (t.text.toList ++ rest) ∧
      t.position = .behind before ∧ Lexeme.Classified t.kind t.text.toList rest.head?) ∧
    (t.keyword?.isSome = true ↔ t.kind = .keyword) ∧
    (t.operator?.isSome = true ↔ t.kind = .operator) ∧
    (t.punctuation?.isSome = true ↔ t.kind = .punctuation) := by
  obtain ⟨before, rest, hsource, hplace, hclass⟩ := classified_of_mem_items h
  exact ⟨⟨before, rest, hsource, hplace, hclass⟩, t.keyword?_of_classified hclass,
    t.operator?_of_classified hclass, t.punctuation?_of_classified hclass⟩

/-- A name that begins like a reserved word, two operators with three signs, and a number with two
points behind it. -/
def crowded : String := "ifs<==1.."

def crowdedTokens : List Token :=
  [⟨.identifier, "ifs", ⟨1, 1⟩⟩, ⟨.operator, "<=", ⟨1, 4⟩⟩, ⟨.operator, "=", ⟨1, 6⟩⟩,
    ⟨.number, "1.", ⟨1, 7⟩⟩, ⟨.operator, ".", ⟨1, 9⟩⟩, ⟨.endOfInput, "", ⟨1, 10⟩⟩]

theorem tokens_classified_crowded :
    items {} crowded = crowdedTokens.map .token ∧
    (∃ before rest, crowded.toList = before ++ ("ifs".toList ++ rest) ∧
      (⟨1, 1⟩ : Position) = .behind before ∧
      Lexeme.WordRule .identifier "ifs".toList rest.head?) ∧
    (∃ before rest, crowded.toList = before ++ ("<=".toList ++ rest) ∧
      (⟨1, 4⟩ : Position) = .behind before ∧ Lexeme.OperatorRule "<=".toList rest.head?) ∧
    (∃ before rest, crowded.toList = before ++ ("1.".toList ++ rest) ∧
      (⟨1, 7⟩ : Position) = .behind before ∧ Lexeme.NumberRule "1.".toList rest.head?) ∧
    (Token.mk .operator "<=" ⟨1, 4⟩).operator?.isSome = true := by
  have hitems : items {} crowded = crowdedTokens.map .token := by decide +kernel
  have hmem : ∀ t ∈ crowdedTokens, .token t ∈ items {} crowded := by
    intro t ht
    rw [hitems]
    exact List.mem_map_of_mem ht
  have hname := tokens_classified (hmem ⟨.identifier, "ifs", ⟨1, 1⟩⟩ (by decide))
  have hsign := tokens_classified (hmem ⟨.operator, "<=", ⟨1, 4⟩⟩ (by decide))
  have hnumber := tokens_classified (hmem ⟨.number, "1.", ⟨1, 7⟩⟩ (by decide))
  exact ⟨hitems, hname.1, hsign.1, hnumber.1, hsign.2.2.1.mpr rfl⟩

end SyntaxAudit
