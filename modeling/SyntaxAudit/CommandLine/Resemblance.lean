/-! How much two words resemble each other, by the Jaro similarity: the share of characters that
both have at about the same place, less those that are out of order. -/
namespace SyntaxAudit.CommandLine

/-- Marks the first unmarked `c` whose index, counted from `i` on, lies between `low` and
`high`. -/
def markFirst (c : Char) (low high i : Nat) : List (Char × Bool) → Option (List (Char × Bool))
  | [] => none
  | (d, marked) :: rest =>
    if low ≤ i ∧ i ≤ high ∧ d = c ∧ marked = false then some ((d, true) :: rest)
    else (markFirst c low high (i + 1) rest).map ((d, marked) :: ·)

/-- Pairs the characters of a word, counted from `i` on, with unmarked equal ones at most
`range` places away. Gives those that found a partner, and the marks. -/
def pairUp (range i : Nat) (marks : List (Char × Bool)) :
    List Char → List Char × List (Char × Bool)
  | [] => ([], marks)
  | c :: cs =>
    match markFirst c (i - range) (i + range) 0 marks with
    | some marks =>
      let (paired, final) := pairUp range (i + 1) marks cs
      (c :: paired, final)
    | none => pairUp range (i + 1) marks cs

/-- Whether the Jaro similarity of two words is at least seven tenths. With `n` pairs of which
`t` are out of order, it is the mean of the shares `n / a`, `n / b` and `(n - t) / n`. -/
def resembles (s t : String) : Bool :=
  let a := s.length
  let b := t.length
  let (left, marks) := pairUp (max a b / 2 - 1) 0 (t.toList.map (·, false)) s.toList
  let right := (marks.filter Prod.snd).map Prod.fst
  let n := left.length
  let swapped := ((left.zip right).filter fun (c, d) => c != d).length / 2
  n != 0 && 21 * (a * b * n) ≤ 10 * (n * n * b + n * n * a + (n - swapped) * a * b)

end SyntaxAudit.CommandLine
