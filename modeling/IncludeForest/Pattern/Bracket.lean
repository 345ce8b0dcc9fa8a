import IncludeForest.Pattern.Escape

/-!
# Bracketed classes

A set of characters written between brackets: single characters, ranges, named
classes, and bracketed classes again, all of them joined. Two such unions can
be intersected (`&&`) or subtracted in one direction (`--`) or in both (`~~`),
from left to right.

A hyphen that opens the class or closes it is itself, and so is a closing
bracket in the first place. Case is ignored before a class is complemented, a named
one as well, and in each operand of an operation.

With the set comes how deeply the class nests, as it does with every part of a
pattern. Reading a pattern takes no notice of it, but what is done with a
pattern later goes down into it level by level, so a pattern that nests more
than `maxNesting` deep is refused. What has parts is one level deeper than the
deepest of them: a group, a repetition, a bracketed class, an operation on
classes, and wherever there are at least two of them the branches of a choice,
the items of a branch and the members of a class. A single character has no
parts, and its nesting is zero.
-/

namespace IncludeForest.Pattern

open IncludeForest.Text

/-- How many levels a pattern may have. -/
def maxNesting : Nat :=
  250

/-- The nesting of parts that stand side by side, which is a level of its own
unless there is one alone. -/
def sideBySide : List Nat → Nat
  | [] => 0
  | [part] => part
  | parts => parts.foldl max 0 + 1

namespace Bracket

/-- The classes with a name of their own inside a bracketed class. -/
def asciiClass? : String → Option CharSet
  | "alnum" => some (.ofRanges [('0', '9'), ('A', 'Z'), ('a', 'z')])
  | "alpha" => some (.ofRanges [('A', 'Z'), ('a', 'z')])
  | "ascii" => some (.range '\x00' '\x7F')
  | "blank" => some (.ofRanges [('\t', '\t'), (' ', ' ')])
  | "cntrl" => some (.ofRanges [('\x00', '\x1F'), ('\x7F', '\x7F')])
  | "digit" => some (.range '0' '9')
  | "graph" => some (.range '!' '~')
  | "lower" => some (.range 'a' 'z')
  | "print" => some (.range ' ' '~')
  | "punct" => some (.ofRanges [('!', '/'), (':', '@'), ('[', '\x60'), ('\x7B', '~')])
  | "space" => some (.ofRanges [('\t', '\r'), (' ', ' ')])
  | "upper" => some (.range 'A' 'Z')
  | "word" => some (.ofRanges [('0', '9'), ('A', 'Z'), ('_', '_'), ('a', 'z')])
  | "xdigit" => some (.ofRanges [('0', '9'), ('A', 'F'), ('a', 'f')])
  | _ => none

/-- A class with a name of its own, behind the bracket and colon that open it. -/
def namedClass? (ignoreCase : Bool) (text : List Char) : Option (CharSet × List Char) := do
  let (negated, text) := match text with
    | '^' :: rest => (true, rest)
    | _ => (false, text)
  let rest ← ":]".toList.isPrefixOf? (text.dropWhile (· != ':'))
  let set ← asciiClass? (String.ofList (text.takeWhile (· != ':')))
  return ((set.foldIf ignoreCase).negateIf negated, rest)

/-- One end of a range, or a member by itself. -/
def member? : List Char → Option (Escape × List Char)
  | [] => none
  | '\\' :: rest => Escape.read? rest
  | c :: rest => some (.literal c, rest)

/-- The set of a member that stands by itself. An assertion is no member. -/
def memberSet? : Escape → Option CharSet
  | .literal c => some (.single c)
  | .named set => some set
  | .look _ => none

/-- The member at the front of the text: a range if a hyphen follows that
neither closes the class nor begins a subtraction. -/
def range? (text : List Char) : Option (CharSet × List Char) := do
  let (first, rest) ← member? text
  match rest with
  | [] => none
  | '-' :: ']' :: _ => return (← memberSet? first, rest)
  | '-' :: '-' :: _ => return (← memberSet? first, rest)
  | '-' :: rest =>
    match first, ← member? rest with
    | .literal a, (.literal b, rest) => if a ≤ b then some (.range a b, rest) else none
    | _, _ => none
  | _ => return (← memberSet? first, rest)

/-- **A set with the nesting of its written form.** -/
structure Operand where
  /-- The set. -/
  set : CharSet
  /-- How deeply its written form nests. -/
  nesting : Nat
  deriving Repr

namespace Operand

/-- What an operation makes of its two operands. -/
def apply (ignoreCase : Bool) (op : CharSet → CharSet → CharSet) (left right : Operand) :
    Operand :=
  { set := op (left.set.foldIf ignoreCase) (right.set.foldIf ignoreCase)
    nesting := max left.nesting right.nesting + 1 }

/-- The operand between brackets of its own. -/
def enclose (ignoreCase negated : Bool) (inside : Operand) : Operand :=
  { set := (inside.set.foldIf ignoreCase).negateIf negated
    nesting := inside.nesting + 1 }

end Operand

/-- **The members of a class** as far as they have been read. -/
structure Members where
  /-- The members as one set. -/
  set : CharSet := .nothing
  /-- How deeply each of them nests. -/
  nestings : List Nat := []
  deriving Repr

namespace Members

/-- The members with one more. -/
def add (members : Members) (member : Operand) : Members :=
  { set := .union members.set member.set, nestings := member.nesting :: members.nestings }

/-- The members with one more that nests nothing. -/
def addSet (members : Members) (set : CharSet) : Members :=
  members.add ⟨set, 0⟩

/-- All of the members together. -/
def operand (members : Members) : Operand :=
  ⟨members.set, sideBySide members.nestings⟩

end Members

/-- **What opens a class**: whether it is complemented, and the members that
are themselves because of their place. -/
def opening (text : List Char) : Bool × Members × List Char :=
  let (negated, text) := match text with
    | '^' :: rest => (true, rest)
    | _ => (false, text)
  match text with
  | ']' :: rest => (negated, { set := .single ']', nestings := [0] }, rest)
  | _ =>
    let hyphens := text.takeWhile (· == '-')
    (negated, hyphens.foldl (fun members c => members.addSet (.single c)) {},
      text.dropWhile (· == '-'))

/-- **The rest of a class**, up to its closing bracket. `combine` is what the
operations read so far make of the union that is being read, and `members` is
that union. The text shortens with every step, so its length is fuel enough. -/
def close? (ignoreCase : Bool) :
    Nat → (Operand → Operand) → Members → List Char → Option (Operand × List Char)
  | 0, _, _, _ => none
  | fuel + 1, combine, members, text =>
    let operation (op : CharSet → CharSet → CharSet) (rest : List Char) :=
      close? ignoreCase fuel (.apply ignoreCase op (combine members.operand)) {} rest
    match text with
    | [] => none
    | ']' :: rest => some (combine members.operand, rest)
    | '&' :: '&' :: rest => operation .inter rest
    | '-' :: '-' :: rest => operation .diff rest
    | '~' :: '~' :: rest => operation .symmDiff rest
    | '[' :: rest =>
      let named := match rest with
        | ':' :: rest => namedClass? ignoreCase rest
        | _ => none
      match named with
      | some (set, rest) => close? ignoreCase fuel combine (members.addSet set) rest
      | none => do
        let (negated, first, inside) := opening rest
        let (inner, rest) ← close? ignoreCase fuel id first inside
        close? ignoreCase fuel combine (members.add (inner.enclose ignoreCase negated)) rest
    | _ => do
      let (set, rest) ← range? text
      close? ignoreCase fuel combine (members.addSet set) rest

/-- **The class behind an opening bracket**, and the text behind the class. -/
def read? (ignoreCase : Bool) (text : List Char) : Option (Operand × List Char) := do
  let (negated, first, inside) := opening text
  let (inner, rest) ← close? ignoreCase (inside.length + 1) id first inside
  return (inner.enclose ignoreCase negated, rest)

end Bracket

end IncludeForest.Pattern
