import IncludeForest.Pattern.Basic

/-!
# Matching

Whether a pattern matches somewhere in a text, for every pattern in time that
the product of pattern, text and passes bounds: there is no backtracking.

A **row** marks positions of the text, one truth value for each, the position
before the first character first and the position behind the last one last. A
pattern maps a row of positions to start from to the row of positions it can
end at, and every constructor does so by one operation on rows. Starting from
every position, the pattern matches somewhere exactly when some position is
marked in the end.

## Repetition

A pass never moves backwards, so a chain of passes through a text of `n`
positions moves forward fewer than `n` times and otherwise stands still. More
than `n` required passes therefore reach what `n` reach, and `Row.spread`,
which marks what further passes reach, finds nothing new after as many rounds.
That bounds both loops by the length of the row and makes the numbers in
`a{1000000}` harmless.
-/

namespace IncludeForest.Pattern

/-- **Marked positions of a text.** -/
abbrev Row := List Bool

namespace Row

/-- Whether some position is marked. -/
def anyMarked (row : Row) : Bool :=
  row.any id

/-- The positions marked in either row. -/
def or (row other : Row) : Row :=
  List.zipWith (fun a b => a || b) row other

/-- The positions marked in both rows. -/
def and (row other : Row) : Row :=
  List.zipWith (fun a b => a && b) row other

/-- The positions of `row` that are not marked in `other`. -/
def without (row other : Row) : Row :=
  List.zipWith (fun a b => a && !b) row other

/-- Every position of a text. -/
def full (text : List Char) : Row :=
  true :: text.map fun _ => true

/-- The positions behind the characters of `set` that stand at a marked
position, the position where the row begins being marked if `entering` is. -/
def advance (set : CharSet) (entering : Bool) : List Char → Row → Row
  | c :: rest, mark :: row => entering :: advance set (mark && set.contains c) rest row
  | _, _ => [entering]

/-- The positions of which an assertion holds, `before` being the character
that the text follows on. -/
def asserted (assertion : Assertion) (before : Option Char) : List Char → Row
  | [] => [assertion.holds before none]
  | c :: rest => assertion.holds before (some c) :: asserted assertion (some c) rest

/-- The positions of `seen` together with those that `pass` reaches from
`fresh` in at most `rounds` rounds. Each round starts from the positions that
the one before it was the first to reach. -/
def spread (pass : Row → Row) : Nat → Row → Row → Row
  | 0, seen, _ => seen
  | rounds + 1, seen, fresh =>
    let reached := (pass fresh).without seen
    if reached.anyMarked then spread pass rounds (seen.or reached) reached else seen

end Row

/-- **The positions a pattern can end at** when it starts from a marked
position of the text. -/
def ends (text : List Char) : Pattern → Row → Row
  | .empty, row => row
  | .char set, row => Row.advance set false text row
  | .look assertion, row => row.and (Row.asserted assertion none text)
  | .seq p q, row => ends text q (ends text p row)
  | .alt p q, row => (ends text p row).or (ends text q row)
  | .times p least most, row =>
    let bound := row.length
    let passed := Nat.repeat (ends text p) (min least bound) row
    Row.spread (ends text p) (min ((most.map (· - least)).getD bound) bound) passed passed

/-- **Whether a pattern matches somewhere in a text.** -/
def isMatch (p : Pattern) (text : List Char) : Bool :=
  (ends text p (Row.full text)).anyMarked

end IncludeForest.Pattern
