import IncludeForest.Text.CharClass
import IncludeForest.Text.CaseFold

/-!
# Sets of characters

What one position of a pattern accepts. A set is kept as the expression it was
written as – ranges, the three named classes, and the operations on sets – and
`CharSet.contains` reads the expression. So a complement costs nothing, and
what a set contains is read off its parts by one equation each.

Ignoring case is an operation like the others: `anyCase s` accepts a character
when `s` accepts some case variant of it. It does not commute with
`complement`, so the two are applied in the order that a pattern fixes: first
the case, then the complement.
-/

namespace IncludeForest.Pattern

open IncludeForest.Text

/-- **A set of characters**, as an expression. -/
inductive CharSet where
  /-- No character. -/
  | nothing
  /-- The characters from `first` to `last` by code point. -/
  | range (first last : Char)
  /-- The blanks. -/
  | blank
  /-- The decimal digits of every script. -/
  | digit
  /-- The word characters. -/
  | word
  /-- The characters of either set. -/
  | union (s t : CharSet)
  /-- The characters of both sets. -/
  | inter (s t : CharSet)
  /-- The characters that the set does not contain. -/
  | complement (s : CharSet)
  /-- The case variants of the set's characters. -/
  | anyCase (s : CharSet)
  deriving DecidableEq, Repr

namespace CharSet

/-- **Whether the set contains a character.** -/
def contains : CharSet → Char → Bool
  | nothing, _ => false
  | range first last, c => decide (first ≤ c ∧ c ≤ last)
  | blank, c => isBlank c
  | digit, c => isDecimalDigit c
  | word, c => isWord c
  | union s t, c => s.contains c || t.contains c
  | inter s t, c => s.contains c && t.contains c
  | complement s, c => !s.contains c
  | anyCase s, c => s.contains c || (caseVariants c).any fun v => s.contains v

/-- The set of one character. -/
def single (c : Char) : CharSet :=
  range c c

/-- The set of the given ranges. -/
def ofRanges (ranges : List (Char × Char)) : CharSet :=
  ranges.foldr (fun r s => union (range r.1 r.2) s) nothing

/-- The characters of `s` that `t` does not contain. -/
def diff (s t : CharSet) : CharSet :=
  inter s (complement t)

/-- The characters of exactly one of the two sets. -/
def symmDiff (s t : CharSet) : CharSet :=
  union (diff s t) (diff t s)

/-- The set itself, or its complement. -/
def negateIf (negated : Bool) (s : CharSet) : CharSet :=
  if negated then complement s else s

/-- The set itself, or its case variants. -/
def foldIf (ignoreCase : Bool) (s : CharSet) : CharSet :=
  if ignoreCase then anyCase s else s

end CharSet

end IncludeForest.Pattern
