import SyntaxAudit.Proofs.ScannedTokens

/-! A scan hands out one finite sequence of items. Asking for them one at a time goes through it
from the left, and collecting takes whatever is left of it by then. -/
namespace SyntaxAudit

/-- Every piece takes at least one character. -/
theorem length_lexemes_le (text : List Char) : (lexemes text).length ≤ text.length := by
  fun_induction lexemes text with
  | case1 => exact Nat.le_refl 0
  | case2 c cs ih =>
    have hshorter := Lexeme.length_first_lt c cs
    rw [List.length_cons]
    omega

/-- Every piece hands out at most one item, and so does the end. -/
theorem length_itemsFrom_le (options : ScanOptions) (p : Position) (ls : List Lexeme) :
    (itemsFrom options p ls).length ≤ ls.length + 1 := by
  induction ls generalizing p with
  | nil =>
    unfold itemsFrom ScanOptions.endItems
    split <;> simp
  | cons l ls ih =>
    have hpiece : (l.item? options p).toList.length ≤ 1 := by
      cases l.item? options p <;> simp
    have hothers := ih (p.after l.text)
    rw [itemsFrom, List.length_append, List.length_cons]
    omega

theorem length_items_le (options : ScanOptions) (source : String) :
    (items options source).length ≤ source.length + 1 := by
  have hitems := length_itemsFrom_le options .start (lexemes source.toList)
  have hpieces := length_lexemes_le source.toList
  rw [String.length_toList] at hpieces
  exact Nat.le_trans hitems (Nat.succ_le_succ hpieces)

namespace Scanner

theorem pull_succ (s : Scanner) (n : Nat) :
    s.pull (n + 1) = (s.next.1 :: (s.next.2.pull n).1, (s.next.2.pull n).2) := rfl

/-- More requests go on where the first ones have stopped. -/
theorem pull_add (s : Scanner) (m n : Nat) :
    s.pull (m + n) =
      ((s.pull m).1 ++ ((s.pull m).2.pull n).1, ((s.pull m).2.pull n).2) := by
  induction m generalizing s with
  | zero =>
    rw [Nat.zero_add]
    rfl
  | succ m ih =>
    rw [Nat.add_right_comm, pull_succ, ih, pull_succ]
    rfl

/-- Each request takes one of the items to come. -/
theorem pending_pull (s : Scanner) (k : Nat) : (s.pull k).2.pending = s.pending.drop k := by
  induction k generalizing s with
  | zero => rfl
  | succ k ih => rw [pull_succ, ih, (pending_next s).2, List.drop_tail]

end Scanner

/-- The elements of a list by their indices: each of them, and then nothing. -/
theorem map_getElem?_range (items : List Item) (n : Nat) :
    (List.range (items.length + n)).map (items[·]?) = items.map some ++ List.replicate n none := by
  induction items with
  | nil => simp [List.map_const']
  | cons item items ih =>
    rw [List.length_cons, Nat.add_right_comm, List.range_succ_eq_map, List.map_cons, List.map_map,
      List.map_cons, List.cons_append, ← ih]
    rfl

/-- Answers are collected up to the first request that nothing answers. -/
theorem collectAnswers_some (items : List Item) (n : Nat) :
    Item.collectAnswers (items.map some ++ List.replicate n none) = Item.collect items := by
  have hanswered : (items.map some ++ List.replicate n none).takeWhile Option.isSome =
      items.map some := by
    rw [List.takeWhile_append_of_pos (by simp)]
    cases n <;> simp [List.replicate_succ]
  rw [Item.collectAnswers, hanswered, List.filterMap_map]
  exact congrArg Item.collect List.filterMap_some

/-- Items without an error among them are tokens. -/
theorem eq_map_token {items : List Item} (h : items.filterMap Item.error? = []) :
    items = (items.filterMap Item.token?).map .token := by
  induction items with
  | nil => rfl
  | cons item items ih =>
    cases item with
    | token t => exact congrArg (List.cons (.token t)) (ih h)
    | error e => cases h

/-- Items are collected to tokens exactly if these are all of them. -/
theorem collect_eq_ok_iff {items : List Item} {tokens : List Token} :
    Item.collect items = .ok tokens ↔ items = tokens.map .token := by
  constructor
  · unfold Item.collect
    split
    · rename_i hnone
      rintro ⟨⟩
      exact eq_map_token hnone
    · rintro ⟨⟩
  · rintro rfl
    exact collect_map_token tokens

/-- The answers to enough requests are collected to what is still to come. -/
theorem collectAnswers_pull (s : Scanner) (n : Nat) :
    Item.collectAnswers (s.pull (s.pending.length + (n + 1))).1 = s.finish := by
  rw [Scanner.pull_eq, map_getElem?_range, collectAnswers_some]
  rfl

/-- A scan has at most one item more than the source has characters. Requests are answered by these
items in order, and then by nothing for ever. After any number of requests, what is still to come is
collected to tokens exactly if they are all of it, and to its errors exactly if there are some. The
answers to further requests, up to the first that nothing answers, are collected to the same. -/
theorem pulls_share_one_stream (options : ScanOptions) (source : String) :
    (items options source).length ≤ source.length + 1 ∧
    (∀ n, ((Scanner.ofSource options source).pull n).1 =
      (List.range n).map ((items options source)[·]?)) ∧
    ∀ k, (∀ tokens, ((Scanner.ofSource options source).pull k).2.finish = .ok tokens ↔
        (items options source).drop k = tokens.map .token) ∧
      (∀ errors, ((Scanner.ofSource options source).pull k).2.finish = .error errors ↔
        ((items options source).drop k).filterMap Item.error? = errors ∧ errors ≠ []) ∧
      ∀ n, Item.collectAnswers (((Scanner.ofSource options source).pull k).2.pull
          (((items options source).drop k).length + (n + 1))).1 =
        ((Scanner.ofSource options source).pull k).2.finish := by
  have hpending : (Scanner.ofSource options source).pending = items options source := rfl
  refine ⟨length_items_le options source, ?_, ?_⟩
  · intro n
    rw [Scanner.pull_eq, hpending]
  · intro k
    have hleft := Scanner.pending_pull (Scanner.ofSource options source) k
    rw [hpending] at hleft
    refine ⟨?_, ?_, ?_⟩
    · intro tokens
      rw [Scanner.finish, hleft, collect_eq_ok_iff]
    · intro errors
      rw [Scanner.finish, hleft, collect_eq_error_iff]
    · intro n
      rw [← hleft, collectAnswers_pull]

def twiceBroken : String := "a # 'b"

/-- An error that was handed out already is not collected. -/
theorem pulls_share_one_stream_twiceBroken :
    ((Scanner.ofSource {} twiceBroken).pull 2).1 =
      [some (.token ⟨.identifier, "a", ⟨1, 1⟩⟩),
        some (.error ⟨.unexpectedCharacter '#', ⟨1, 3⟩⟩)] ∧
    ((Scanner.ofSource {} twiceBroken).pull 2).2.finish =
      .error [⟨.unterminatedString, ⟨1, 5⟩⟩] := by
  have hitems : items {} twiceBroken =
      [.token ⟨.identifier, "a", ⟨1, 1⟩⟩, .error ⟨.unexpectedCharacter '#', ⟨1, 3⟩⟩,
        .error ⟨.unterminatedString, ⟨1, 5⟩⟩, .token ⟨.endOfInput, "", ⟨1, 7⟩⟩] := by
    decide +kernel
  obtain ⟨-, hanswers, hcollected⟩ := pulls_share_one_stream {} twiceBroken
  constructor
  · rw [hanswers, hitems]
    rfl
  · apply ((hcollected 2).2.1 _).mpr
    rw [hitems]
    exact ⟨rfl, by simp⟩

end SyntaxAudit
