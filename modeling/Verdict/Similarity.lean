/-!
# Similarity — words that are nearly alike

The **matched size** of two words is the size of their longest common block together with the
matched sizes of what stands before and behind it.  Their ratio is twice the matched size over the
sum of their lengths.  `closeTo` gives the words with the highest ratios.

In a long second word (200 characters or more) the characters that make up more than a hundredth of
it are popular: no block starts from them, though a block may be extended over them.
-/

namespace Verdict.Similarity

/-- The length of the longest common start of two words. -/
def commonStart (same : Char → Char → Bool) : List Char → List Char → Nat
  | a :: as, b :: bs => if same a b then commonStart same as bs + 1 else 0
  | _, _ => 0

/-- A common block: where it starts in each word, and its size. -/
structure Block where
  start : Nat
  start' : Nat
  size : Nat
  deriving DecidableEq, Repr

/-- The larger block, the first one when they are of one size. -/
def Block.larger (a b : Block) : Block := if a.size < b.size then b else a

/-- The ends of a list, from the whole list to the last element, with their positions. -/
def tailsFrom {α : Type} : Nat → List α → List (Nat × List α)
  | _, [] => []
  | n, x :: xs => (n, x :: xs) :: tailsFrom (n + 1) xs

/-- The largest common block of unpopular characters; of several, the one that starts first in the
first word, then in the second. -/
def largestCore (popular : List Char) (as bs : List Char) : Block :=
  let same (a b : Char) : Bool := a == b && !popular.contains a
  (tailsFrom 0 as).foldl (fun best (i, as) =>
    (tailsFrom 0 bs).foldl (fun best (j, bs) =>
      best.larger ⟨i, j, commonStart same as bs⟩) best) ⟨0, 0, 0⟩

/-- The largest common block, extended over equal characters on both sides. -/
def largestBlock (popular : List Char) (as bs : List Char) : Block :=
  let core := largestCore popular as bs
  let equal (a b : Char) : Bool := a == b
  let before := commonStart equal (as.take core.start).reverse (bs.take core.start').reverse
  let after := commonStart equal (as.drop (core.start + core.size)) (bs.drop (core.start' + core.size))
  ⟨core.start - before, core.start' - before, before + core.size + after⟩

/-- The matched size of two words; `fuel` bounds the number of nested blocks. -/
def matchedSize (popular : List Char) : Nat → List Char → List Char → Nat
  | 0, _, _ => 0
  | fuel + 1, as, bs =>
    let block := largestBlock popular as bs
    if block.size = 0 then 0
    else
      matchedSize popular fuel (as.take block.start) (bs.take block.start') + block.size +
      matchedSize popular fuel (as.drop (block.start + block.size))
        (bs.drop (block.start' + block.size))

/-- The popular characters of a word. -/
def popularIn (cs : List Char) : List Char :=
  if cs.length < 200 then []
  else cs.eraseDups.filter fun c => cs.length / 100 + 1 < cs.count c

/-- A candidate word with its score, a ratio. -/
structure Scored where
  word : String
  num : Nat
  den : Nat

/-- The score of a candidate against a word. -/
def score (word candidate : String) : Scored :=
  let cs := candidate.toList
  let ws := word.toList
  ⟨candidate, 2 * matchedSize (popularIn ws) (cs.length + 1) cs ws, cs.length + ws.length⟩

/-- The higher score comes first, of equal scores the word that is later in the alphabet. -/
def Scored.before (a b : Scored) : Bool :=
  let x := a.num * b.den
  let y := b.num * a.den
  if x = y then decide (b.word ≤ a.word) else decide (y < x)

/-- At most three candidates with a ratio of three fifths or more, the closest first. -/
def closeTo (word : String) (candidates : List String) : List String :=
  let good := (candidates.map (score word)).filter fun s => 3 * s.den ≤ 5 * s.num
  ((good.mergeSort Scored.before).take 3).map Scored.word

end Verdict.Similarity
