import IncludeForest.Pattern.Reader

/-!
# Languages of patterns

A user writes patterns in a language of regular expressions. The language is
not a matter of this library: it may know more forms than are read here, and it
has limits of its own on how large a pattern may be. So what makes a filter of
texts takes a `PatternLanguage`, which says of a text whether it is a pattern
and which one, and of several texts whether they can be used together. A
language can give any `Pattern`, and these are enough for what regular
expressions ask of a text: every set of characters is a union of ranges, and
every condition on the two neighbours of a position is an assertion.

## The language at hand

`PatternLanguage.standard` reads what `Pattern.parse?` reads. That is the
common part of the written form, without the sets of characters that go by the
name of a property, and without the flags for free spacing, for line ends of two
characters, and for doing without Unicode.

A short pattern may ask for a very large machine, since a count in braces
repeats states, and a pattern whose machine would be too large is refused. The
**weight** of a pattern is roughly the bytes of that machine. A character weighs
as much as the states for its bytes, a repetition multiplies, and what matches
the empty text only is never repeated.
-/

namespace IncludeForest

namespace Pattern

/-- Roughly the bytes by which the machine of a pattern grows for a set, the
rarer characters of large classes included. -/
def CharSet.weight : CharSet → Nat
  | nothing => 0
  | range _ last => if last.toNat < 128 then 8 else 96 * last.utf8Size
  | blank => 600
  | digit => 5000
  | word => 50000
  | union s t => s.weight + t.weight
  | inter s t => s.weight + t.weight
  | complement s => s.weight + 928
  | anyCase s => s.weight + 8

/-- Whether a pattern can be seen to match the empty text only. -/
def onlyEmpty : Pattern → Bool
  | empty => true
  | char _ => false
  | look _ => true
  | seq p q => p.onlyEmpty && q.onlyEmpty
  | alt p q => p.onlyEmpty && q.onlyEmpty
  | times p _ most => p.onlyEmpty || most == some 0

/-- **The weight of a pattern**, in bytes. A state takes 32 of them, and a way
that may be taken or left 40. -/
def weight : Pattern → Nat
  | empty => 32
  | char (.range first last) =>
    if first = last then 32 * first.utf8Size else 64 + (CharSet.range first last).weight
  | char set => 64 + set.weight
  | look _ => 32
  | seq p q => p.weight + q.weight
  | alt p q => p.weight + q.weight + 40
  | times p least most =>
    if p.onlyEmpty then p.weight + 40
    else
      let passes := max least (most.getD 1)
      passes * p.weight + (passes - least) * 40

/-- The greatest weight that one machine may have. -/
def maxWeight : Nat :=
  10 * 1024 * 1024

end Pattern

/-- **A language that patterns are written in**, as far as a filter depends on
it. -/
structure PatternLanguage where
  /-- The pattern that a text writes down, if it writes one that can be used. -/
  read? : String → Option Pattern
  /-- Whether texts can be used together, each of which can be used by itself. -/
  fit : List String → Bool

/-- **The language at hand**: what is read here, within the limit for one
machine. -/
def PatternLanguage.standard : PatternLanguage where
  read? text := (Pattern.parse? text).filter (·.weight ≤ Pattern.maxWeight)
  fit texts :=
    (texts.filterMap Pattern.parse?).foldl (fun bytes p => bytes + p.weight) 0 ≤ Pattern.maxWeight

end IncludeForest
