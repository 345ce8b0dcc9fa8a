import IncludeForest.Pattern.Bracket
import IncludeForest.Text.Digits

/-!
# Reading patterns

The written form of patterns: characters stand for themselves, `.` for any
character but a line feed, `^` and `$` for the ends of the text, brackets for a
set; `*`, `+`, `?` and a count in braces repeat what stands before them, `|`
separates branches, and parentheses group. A group may be named, which changes
nothing but must be done properly, or may set flags: `i` ignores case, `m` lets
`^` and `$` hold at line ends too, `s` lets `.` accept a line feed, and `U`
swaps which repetitions are greedy, which no match can tell.

Whatever is not of this form is not read, and neither is what nests too deeply,
and nothing is said about where it fails: `Pattern.parse?` gives a pattern or
nothing. In particular a brace that opens no count is refused, while a closing
brace or bracket with nothing open stands for itself.

The reader keeps a stack of open groups. `Group.items` holds what the current
branch has so far, the last first, because a repetition applies to that. Every
item carries its nesting, and flags that stand by themselves are an item too.
-/

namespace IncludeForest.Pattern

open IncludeForest.Text

/-- **The flags in force** at a place of a pattern. -/
structure Flags where
  /-- Whether case is ignored. -/
  ignoreCase : Bool := false
  /-- Whether `^` and `$` also hold at line ends. -/
  multiLine : Bool := false
  /-- Whether `.` accepts a line feed. -/
  dotAll : Bool := false
  /-- Whether repetitions without a question mark are lazy. -/
  swapGreed : Bool := false
  deriving DecidableEq, Repr

namespace Flags

/-- The flags with one of them, given by its letter, switched on or off. -/
def set? (flags : Flags) (letter : Char) (on : Bool) : Option Flags :=
  match letter with
  | 'i' => some { flags with ignoreCase := on }
  | 'm' => some { flags with multiLine := on }
  | 's' => some { flags with dotAll := on }
  | 'U' => some { flags with swapGreed := on }
  | _ => none

/-- The flags after a list of letters, of which those behind a hyphen switch
their flags off. No letter may come twice, there is at most one hyphen, and a
letter follows it. -/
def change? (flags : Flags) (letters : List Char) : Option Flags := do
  let switchedOn := letters.takeWhile (· != '-')
  let behind := letters.dropWhile (· != '-')
  let switchedOff := behind.drop 1
  guard ((switchedOn ++ switchedOff).Nodup ∧ behind.length ≠ 1)
  let flags ← switchedOn.foldlM (fun flags letter => flags.set? letter true) flags
  switchedOff.foldlM (fun flags letter => flags.set? letter false) flags

/-- What `.` accepts. -/
def dot (flags : Flags) : CharSet :=
  if flags.dotAll then .complement .nothing else .complement (.single '\n')

end Flags

/-- **A pattern with the nesting of its written form.** -/
structure Part where
  /-- The pattern. -/
  pattern : Pattern
  /-- How deeply its written form nests. -/
  nesting : Nat := 0
  deriving Repr

namespace Part

/-- The items of a branch, one after the other. -/
def ofItems (items : List Part) : Part :=
  { pattern := sequence (items.map (·.pattern)), nesting := sideBySide (items.map (·.nesting)) }

/-- The branches of a choice. -/
def ofBranches : List Part → Part
  | [] => { pattern := .empty }
  | first :: others =>
    { pattern := choice first.pattern (others.map (·.pattern))
      nesting := sideBySide (first.nesting :: others.map (·.nesting)) }

/-- The part repeated. -/
def repeated (part : Part) (least : Nat) (most : Option Nat) : Part :=
  { pattern := .times part.pattern least most, nesting := part.nesting + 1 }

/-- The part in parentheses. -/
def enclosed (part : Part) : Part :=
  { part with nesting := part.nesting + 1 }

end Part

/-- **A group that is being read.** -/
structure Group where
  /-- The flags to return to when the group closes. -/
  outer : Flags := {}
  /-- The finished branches, the last first. -/
  branches : List Part := []
  /-- What the current branch holds, the last first. -/
  items : List Part := []
  deriving Repr

namespace Group

/-- The group with one item more in its current branch. -/
def push (group : Group) (part : Part) : Group :=
  { group with items := part :: group.items }

/-- The group with its current branch finished and an empty one begun. -/
def branch (group : Group) : Group :=
  { group with branches := .ofItems group.items.reverse :: group.branches, items := [] }

/-- What the group holds. -/
def contents (group : Group) : Part :=
  .ofBranches group.branch.branches.reverse

end Group

/-- **How far a pattern has been read.** -/
structure Reader where
  /-- The flags in force. -/
  flags : Flags := {}
  /-- The innermost open group, or the whole pattern. -/
  group : Group := {}
  /-- The groups around it, the innermost first. -/
  around : List Group := []
  /-- The names of groups so far. -/
  names : List (List Char) := []
  /-- Whether the last thing read is an item that can be repeated: flags are
  not, and neither is the beginning of a branch. -/
  repeatable : Bool := false
  deriving Repr

namespace Reader

/-- The reader after one more item. -/
def item (r : Reader) (part : Part) : Reader :=
  { r with group := r.group.push part, repeatable := true }

/-- The reader after one more item without parts. -/
def leaf (r : Reader) (p : Pattern) : Reader :=
  r.item { pattern := p }

/-- The reader after a set of characters whose case is not yet settled. -/
def charLeaf (r : Reader) (set : CharSet) : Reader :=
  r.leaf (.char (set.foldIf r.flags.ignoreCase))

/-- The reader after flags for the rest of the group. -/
def setFlags (r : Reader) (flags : Flags) : Reader :=
  { r.leaf .empty with flags := flags, repeatable := false }

/-- The reader after a branch has ended. -/
def endBranch (r : Reader) : Reader :=
  { r with group := r.group.branch, repeatable := false }

/-- The reader inside a new group, where the given flags hold. -/
def openGroup (r : Reader) (flags : Flags) : Reader :=
  { r with
    flags := flags
    group := { outer := r.flags }
    around := r.group :: r.around
    repeatable := false }

/-- The reader behind the group that closes, if one is open. -/
def closeGroup? (r : Reader) : Option Reader :=
  match r.around with
  | [] => none
  | outer :: around =>
    some ({ r with flags := r.group.outer, group := outer, around := around }.item
      r.group.contents.enclosed)

/-- The reader after a repetition of the last item. -/
def repeatItem? (r : Reader) (least : Nat) (most : Option Nat) : Option Reader :=
  match r.repeatable, r.group.items with
  | true, part :: items =>
    some { r with group := { r.group with items := part.repeated least most :: items } }
  | _, _ => none

/-- The pattern, if every group has been closed and none nests too deeply. -/
def finish? (r : Reader) : Option Pattern :=
  let contents := r.group.contents
  if r.around.isEmpty ∧ contents.nesting ≤ maxNesting then some contents.pattern else none

end Reader

/-- Whether a group's name may begin with the character. -/
def isNameStart (c : Char) : Bool :=
  c == '_' || isAlphabetic c

/-- Whether a group's name may go on with the character. -/
def isNamePart (c : Char) : Bool :=
  c == '_' || c == '.' || c == '[' || c == ']' || isAlphanumeric c

/-- The name of a group behind its opening angle, and the text behind the
closing one. -/
def groupName? (text : List Char) : Option (List Char × List Char) := do
  let name := text.takeWhile (· != '>')
  let rest ← (text.dropWhile (· != '>')).tail?
  match name with
  | [] => none
  | first :: more =>
    guard (isNameStart first ∧ more.all isNamePart)
    return (name, rest)

/-- The reader behind the opening of a named group. -/
def openNamed? (r : Reader) (text : List Char) : Option (Reader × List Char) := do
  let (name, rest) ← groupName? text
  guard (name ∉ r.names)
  return ({ r.openGroup r.flags with names := name :: r.names }, rest)

/-- The reader behind a parenthesis and question mark: a named group, a group
with flags of its own, or flags for the rest of the group around. Looking
ahead or behind is not part of the language. -/
def openSpecial? (r : Reader) : List Char → Option (Reader × List Char)
  | 'P' :: '<' :: rest => openNamed? r rest
  | '<' :: '=' :: _ => none
  | '<' :: '!' :: _ => none
  | '<' :: rest => openNamed? r rest
  | text => do
    let inside (c : Char) := c != ':' && c != ')'
    let letters := text.takeWhile inside
    let flags ← r.flags.change? letters
    match text.dropWhile inside with
    | ':' :: rest => return (r.openGroup flags, rest)
    | ')' :: rest =>
      guard (¬ letters.isEmpty)
      return (r.setFlags flags, rest)
    | _ => none

/-- A number with blanks around it, at most the greatest of 32 bits, and the
text behind it. -/
def count? (text : List Char) : Option (Nat × List Char) := do
  let text := text.dropWhile isBlank
  let digits := text.takeWhile isAsciiDigit
  let rest := (text.dropWhile isAsciiDigit).dropWhile isBlank
  guard (¬ digits.isEmpty ∧ decimalValue digits < UInt32.size)
  return (decimalValue digits, rest)

/-- The bounds of a repetition behind its opening brace, and the text behind
the closing one. -/
def bounds? (text : List Char) : Option (Nat × Option Nat × List Char) := do
  let (least, rest) ← count? text
  match rest with
  | '}' :: rest => return (least, some least, rest)
  | ',' :: '}' :: rest => return (least, none, rest)
  | ',' :: rest =>
    let (most, rest) ← count? rest
    match rest with
    | '}' :: rest =>
      guard (least ≤ most)
      return (least, some most, rest)
    | _ => none
  | _ => none

/-- The text without the question mark that makes a repetition lazy. -/
def dropLazy : List Char → List Char
  | '?' :: rest => rest
  | text => text

/-- **One step of reading**: the reader and the text behind what the character
`c` begins. -/
def readItem? (r : Reader) (c : Char) (rest : List Char) : Option (Reader × List Char) :=
  match c with
  | '(' =>
    match rest with
    | '?' :: rest => openSpecial? r rest
    | _ => some (r.openGroup r.flags, rest)
  | ')' => (r.closeGroup?).map (·, rest)
  | '|' => some (r.endBranch, rest)
  | '[' => do
    let (bracket, rest) ← Bracket.read? r.flags.ignoreCase rest
    return (r.item { pattern := .char bracket.set, nesting := bracket.nesting }, rest)
  | '*' => (r.repeatItem? 0 none).map (·, dropLazy rest)
  | '+' => (r.repeatItem? 1 none).map (·, dropLazy rest)
  | '?' => (r.repeatItem? 0 (some 1)).map (·, dropLazy rest)
  | '{' => do
    let (least, most, rest) ← bounds? rest
    (r.repeatItem? least most).map (·, dropLazy rest)
  | '.' => some (r.leaf (.char r.flags.dot), rest)
  | '^' => some (r.leaf (.look (if r.flags.multiLine then .lineStart else .textStart)), rest)
  | '$' => some (r.leaf (.look (if r.flags.multiLine then .lineEnd else .textEnd)), rest)
  | '\\' => do
    let (escape, rest) ← Escape.read? rest
    match escape with
    | .literal c => return (r.charLeaf (.single c), rest)
    | .named set => return (r.leaf (.char set), rest)
    | .look assertion => return (r.leaf (.look assertion), rest)
  | c => some (r.charLeaf (.single c), rest)

/-- The pattern that the text completes. Every step takes at least one
character, so the length of the text is fuel enough. -/
def readAll? : Nat → Reader → List Char → Option Pattern
  | _, r, [] => r.finish?
  | 0, _, _ :: _ => none
  | fuel + 1, r, c :: rest => do
    let (r, rest) ← readItem? r c rest
    readAll? fuel r rest

/-- **The pattern that a text writes down**, if it writes one. -/
def parse? (text : String) : Option Pattern :=
  readAll? text.length {} text.toList

end IncludeForest.Pattern
