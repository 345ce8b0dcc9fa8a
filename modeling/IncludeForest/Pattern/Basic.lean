import IncludeForest.Pattern.CharSet

/-!
# Patterns

A **pattern** describes texts: a user lists patterns for the directories that
hold the headers of the toolchain, and a path counts as such a header when one
of the patterns matches somewhere in it.

A `Pattern` is what is left of the written form after flags, groups and
greediness are accounted for. A flag has been applied to everything in its
reach, a group only brackets, and whether a repetition prefers few or many
passes cannot be seen from outside, since the only question asked of a pattern
is whether it matches.

What a pattern asks of a position without taking a character is a condition on
the two neighbours. The ends of lines and words are put together from few such
conditions, and so is any other that a language of patterns may know.
-/

namespace IncludeForest

namespace Pattern

/-- **What a pattern can ask of a position** without consuming anything. -/
inductive Assertion where
  /-- Nothing stands before. -/
  | textStart
  /-- Nothing stands behind. -/
  | textEnd
  /-- A character of the set stands before. -/
  | before (set : CharSet)
  /-- A character of the set stands behind. -/
  | behind (set : CharSet)
  /-- The other does not hold. -/
  | not (a : Assertion)
  /-- Both hold. -/
  | and (a b : Assertion)
  deriving DecidableEq, Repr

namespace Assertion

/-- Whether the assertion holds between two neighbouring characters, where the
ends of the text have none. -/
def holds (prev next : Option Char) : Assertion → Bool
  | textStart => prev.isNone
  | textEnd => next.isNone
  | before set => prev.any set.contains
  | behind set => next.any set.contains
  | not a => !a.holds prev next
  | and a b => a.holds prev next && b.holds prev next

/-- One of the two holds. -/
def or (a b : Assertion) : Assertion :=
  not (and (not a) (not b))

/-- Nothing or a line feed stands before. -/
def lineStart : Assertion :=
  or textStart (before (.single '\n'))

/-- Nothing or a line feed stands behind. -/
def lineEnd : Assertion :=
  or textEnd (behind (.single '\n'))

/-- No word character stands before. -/
def noWordBefore : Assertion :=
  not (before .word)

/-- No word character stands behind. -/
def noWordBehind : Assertion :=
  not (behind .word)

/-- A word character stands behind and none before. -/
def wordStart : Assertion :=
  and noWordBefore (behind .word)

/-- A word character stands before and none behind. -/
def wordEnd : Assertion :=
  and (before .word) noWordBehind

/-- A word character stands on exactly one side. -/
def wordBoundary : Assertion :=
  or wordStart wordEnd

/-- A word character stands on both sides or on neither. -/
def notWordBoundary : Assertion :=
  not wordBoundary

end Assertion

end Pattern

/-- **A pattern.** -/
inductive Pattern where
  /-- The empty text. -/
  | empty
  /-- One character of the set. -/
  | char (set : Pattern.CharSet)
  /-- The empty text at a position of which the assertion holds. -/
  | look (assertion : Pattern.Assertion)
  /-- The first, then the second. -/
  | seq (p q : Pattern)
  /-- One or the other. -/
  | alt (p q : Pattern)
  /-- At least `least` and at most `most` passes, or any number from `least`
  on if no most is given. -/
  | times (p : Pattern) (least : Nat) (most : Option Nat)
  deriving DecidableEq, Repr

namespace Pattern

/-- The patterns one after the other. -/
def sequence : List Pattern → Pattern
  | [] => empty
  | [p] => p
  | p :: ps => seq p (sequence ps)

/-- One of the patterns, the first of which is given apart. -/
def choice (first : Pattern) : List Pattern → Pattern
  | [] => first
  | second :: others => alt first (choice second others)

end Pattern

end IncludeForest
