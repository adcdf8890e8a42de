import SyntaxAudit.Proofs.Rescan
import SyntaxAudit.Proofs.SelfDelimiting

/-! Token listings escape nothing, and yet the tokens of a scan can be told from their listing: a
text that runs over several lines ends where a scan of the listing would end it. -/
namespace SyntaxAudit

namespace TokenKind

def all : List TokenKind :=
  [endOfInput, keyword, identifier, string, number, operator, punctuation, boolean, null,
    undefined, comment]

theorem label_injective : Function.Injective label := by
  apply injective_of_find? all
  intro k
  cases k <;> decide

/-- A label goes up to the colon. -/
theorem selfDelimiting_label :
    SelfDelimiting fun k : TokenKind => k.label.toList ++ ": ".toList := by
  have hcolon (k : TokenKind) : ∀ c ∈ k.label.toList, (c != ':') = true := by
    have hall : k.label.toList.all (· != ':') = true := by
      cases k <;> decide
    exact List.all_eq_true.mp hall
  have hinj : Function.Injective fun k : TokenKind => k.label.toList := by
    intro a b h
    exact label_injective (String.toList_inj.mp h)
  exact .of_stops hinj hcolon rfl [' ']

end TokenKind

/-- A class and a text that have their end in a listing: the text is empty for the end mark, and for
all others a scan that comes to it takes all of it up, in front of the line feed. -/
structure Listable (s : TokenKind × String) : Prop where
  empty : s.1 = .endOfInput → s.2 = ""
  reread : s.1 ≠ .endOfInput → ∀ rest, lexemes (s.2.toList ++ '\n' :: rest) =
    ⟨.token s.1, s.2.toList⟩ :: lexemes ('\n' :: rest)

/-- The text behind the label of a class can be told if it has an end. -/
theorem Listable.text_inj {kind : TokenKind} {text text' : String} {r s : List Char}
    (h : Listable (kind, text)) (h' : Listable (kind, text'))
    (he : text.toList ++ '\n' :: r = text'.toList ++ '\n' :: s) : text = text' := by
  by_cases hkind : kind = .endOfInput
  · exact (h.empty hkind).trans (h'.empty hkind).symm
  · have hpieces := congrArg lexemes he
    rw [h.reread hkind, h'.reread hkind] at hpieces
    obtain ⟨hfirst, -⟩ := List.cons.inj hpieces
    exact String.toList_inj.mp (congrArg Lexeme.text hfirst)

namespace Token

def listed (s : TokenKind × String) : String :=
  s.1.label ++ ": " ++ s.2 ++ "\n"

theorem selfDelimiting_listed :
    SelfDelimiting fun s : { s // Listable s } => (listed s.1).toList := by
  rintro ⟨⟨kind, text⟩, h⟩ ⟨⟨kind', text'⟩, h'⟩ r s he
  simp only [listed, String.toList_append, List.append_assoc] at he
  rw [← List.append_assoc, ← List.append_assoc (TokenKind.label kind').toList] at he
  obtain ⟨rfl, hbehind⟩ := TokenKind.selfDelimiting_label kind kind' _ _ he
  obtain rfl := h.text_inj h' hbehind
  exact ⟨rfl, (List.cons.inj (List.append_cancel_left hbehind)).2⟩

theorem dump_eq (tokens : List Token) :
    dump tokens = String.join ((tokens.map spelled).map listed) := by
  rw [List.map_map]
  rfl

/-- Listings of tokens whose texts have an end can be told apart. -/
theorem dump_inj {t₁ t₂ : List Token} (h₁ : ∀ t ∈ t₁, Listable t.spelled)
    (h₂ : ∀ t ∈ t₂, Listable t.spelled) :
    dump t₁ = dump t₂ ↔ t₁.map spelled = t₂.map spelled := by
  constructor
  · rw [← List.forall_mem_map] at h₁ h₂
    rw [dump_eq, dump_eq, ← List.attachWith_map_subtype_val h₁,
      ← List.attachWith_map_subtype_val h₂, List.map_map, List.map_map]
    intro he
    have hne (s : { s // Listable s }) : listed s.1 ≠ "" := by simp [listed]
    exact congrArg (List.map Subtype.val) (selfDelimiting_listed.join_injective hne he)
  · intro h
    rw [dump_eq, dump_eq, h]

end Token

/-- Every token of a scan has its end in a listing. -/
theorem listable_of_scan {options : ScanOptions} {source : String} {tokens : List Token}
    (h : scan options source = .ok tokens) : ∀ t ∈ tokens, Listable t.spelled := by
  intro t ht
  by_cases hend : t.kind = .endOfInput
  · obtain ⟨body, rfl, hbody, -⟩ := tokens_of_scan h
    have hmark : t = .endAt (.after .start source.toList) := by
      rcases List.mem_append.mp ht with ht | ht
      · exact absurd (hbody t ht) (by simp [Token.isEnd, hend])
      · rw [ScanOptions.endTokens] at ht
        split at ht
        · exact List.mem_singleton.mp ht
        · cases ht
    rw [hmark]
    exact ⟨fun _ => rfl, fun hother => absurd rfl hother⟩
  · refine ⟨fun hmark => absurd hmark hend, fun _ rest => ?_⟩
    have hrecurs := recurs_of_scan h ht (by simpa [Token.isEnd] using hend)
    apply hrecurs.reread
    rintro b ⟨⟩
    exact ⟨Text.isBlank_lineFeed, fun _ => rfl⟩

/-- Two scans have the same listing exactly if they have tokens of the same classes and texts in the
same order, whatever was scanned under whatever settings. -/
theorem listing_tells_tokens {options₁ options₂ : ScanOptions} {s₁ s₂ : String}
    {t₁ t₂ : List Token} (h₁ : scan options₁ s₁ = .ok t₁) (h₂ : scan options₂ s₂ = .ok t₂) :
    Token.dump t₁ = Token.dump t₂ ↔ t₁.map Token.spelled = t₂.map Token.spelled :=
  Token.dump_inj (listable_of_scan h₁) (listable_of_scan h₂)

/-- A string whose second line looks like a line of a listing, and a name. -/
def misleading : String := "'a\nNUMBER: 1' x"

def misleadingTokens : List Token :=
  [⟨.string, "'a\nNUMBER: 1'", ⟨1, 1⟩⟩, ⟨.identifier, "x", ⟨2, 12⟩⟩, ⟨.endOfInput, "", ⟨2, 13⟩⟩]

def spread : String := "\n'a\nNUMBER: 1'/**/\tx"

def spreadTokens : List Token :=
  [⟨.string, "'a\nNUMBER: 1'", ⟨2, 1⟩⟩, ⟨.identifier, "x", ⟨3, 16⟩⟩, ⟨.endOfInput, "", ⟨3, 17⟩⟩]

theorem listing_tells_tokens_misleading :
    scan { keepComments := true } misleading = .ok misleadingTokens ∧
    scan {} spread = .ok spreadTokens ∧
    Token.dump misleadingTokens = "STRING: 'a\nNUMBER: 1'\nIDENTIFIER: x\nEOF: \n" ∧
    Token.dump misleadingTokens = Token.dump spreadTokens ∧
    misleadingTokens.map Token.spelled = spreadTokens.map Token.spelled := by
  have hitems : items { keepComments := true } misleading = misleadingTokens.map .token := by
    decide +kernel
  have hscan : scan { keepComments := true } misleading = .ok misleadingTokens := by
    rw [scan, hitems]
    rfl
  have hspread : items {} spread = spreadTokens.map .token := by decide +kernel
  have hscan' : scan {} spread = .ok spreadTokens := by
    rw [scan, hspread]
    rfl
  have hdump : Token.dump misleadingTokens = Token.dump spreadTokens := by decide
  exact ⟨hscan, hscan', by decide, hdump, (listing_tells_tokens hscan hscan').mp hdump⟩

/-- Tokens that no scan hands out need not be told apart. -/
example : Token.dump [⟨.identifier, "a\nNUMBER: 1", ⟨1, 1⟩⟩] =
    Token.dump [⟨.identifier, "a", ⟨1, 1⟩⟩, ⟨.number, "1", ⟨1, 3⟩⟩] := by
  decide

end SyntaxAudit
