/-!
# Likeness of two words

The Jaro likeness counts the letters that two words share within a window, and how many of those
are out of order.
-/

namespace MockHttp.CommandLine

/-- The place of the first letter within a window that equals the given one and is not used yet. -/
def matchingPlace (letter : Char) (word : List Char) (used : List Nat) (low high : Nat) :
    Option Nat :=
  (List.range high).find? fun j => low ≤ j ∧ word[j]? = some letter ∧ !used.contains j

/-- The places of the letters that two words share: those of the first, and those of the second. -/
def sharedPlaces (a b : List Char) : List Nat × List Nat :=
  let window := max a.length b.length / 2 - 1
  a.zipIdx.foldl (fun (inA, inB) (letter, i) =>
    match matchingPlace letter b inB (i - window) (min b.length (i + window + 1)) with
    | some j => (inA ++ [i], inB ++ [j])
    | none => (inA, inB)) ([], [])

/-- The likeness of two words as numerator and denominator. -/
def likeness (a b : List Char) : Nat × Nat :=
  if a.isEmpty ∨ b.isEmpty then (if a.isEmpty ∧ b.isEmpty then 1 else 0, 1)
  else
    let (inA, inB) := sharedPlaces a b
    let shared := inA.length
    if shared = 0 then (0, 1)
    else
      let lettersA := inA.filterMap (a[·]?)
      let lettersB := (inB.mergeSort (· ≤ ·)).filterMap (b[·]?)
      let swaps := ((lettersA.zip lettersB).filter fun (x, y) => x ≠ y).length / 2
      (shared * shared * b.length + shared * shared * a.length
          + (shared - swaps) * a.length * b.length,
        3 * a.length * b.length * shared)

/-- The likest of the given words, the last of several, if it is like enough: beyond seven
tenths. -/
def likest? (word : String) (words : List String) : Option String :=
  let rated := (words.map fun other => (other, likeness word.toList other.toList)).filter
    fun (_, num, den) => 7 * den < 10 * num
  (rated.foldl (fun best rated =>
    match best with
    | some (_, num, den) => if num * rated.2.2 ≤ rated.2.1 * den then some rated else best
    | none => some rated) none).map Prod.fst

end MockHttp.CommandLine
