import IncludeForest.PathFilter
import IncludeForest.Text.Digits
import IncludeForest.Text.Fields

/-!
# Lines of a build log

A build runs several projects at once and writes what they print into one log,
each line after the number of the **stream** it came from:

    1>------ Build started: Project: demo, Configuration: Debug x64 ------
    1> main.cpp
    1> Note: including file: C:\src\a.h
    1> Note: including file:  C:\src\b.h
    2> other.cpp

A line of a stream can announce a project, a module or a header. The first
names a project somewhere in the line. The second is the bare name of a source
file. The third carries a path, and the spaces before the path, beyond the one
that ends the phrase, say how deep the header was included. Everything else
that a build prints is of no interest here.

`splitStream?` finds the stream, `announcedProject?`, `announcedModule?` and
`announcedNote?` recognise the three announcements, `depthAndPath` counts the
spaces, and `announcement?` puts them together. None of them can go wrong: a
line that announces nothing is just that.

## The order of the tests

A line that names a project may look like something else as well, so that test
comes first. A module name holds no colon and no blank, so no line is both a
module and a header, and these two tests could change places.
-/

namespace IncludeForest

/-- The number of a stream, which is the number of the project it builds. -/
abbrev StreamId := UInt32

namespace Log

open Text

/-- **What a line of a stream announces.** -/
inductive Announcement where
  /-- A project starts building on the stream. -/
  | project (name : String)
  /-- The compiler is about to compile this source file. -/
  | module (name : String)
  /-- A header is included, at the given depth. -/
  | header (level : Nat) (path : String)
  /-- A header is included that the filter accepts. -/
  | filtered
  /-- Anything else. -/
  | nothing
  deriving DecidableEq, Repr

/-- **The stream of a line and the rest of it**: a decimal number and an angle,
with blanks around them at will, before a rest that begins with no blank and
stays on its line. The number has to fit a stream's number, so a longer one
makes no stream line. -/
def splitStream? (line : List Char) : Option (StreamId × List Char) :=
  let text := line.dropWhile isBlank
  let digits := text.takeWhile isAsciiDigit
  match text.dropWhile isAsciiDigit with
  | '>' :: behind =>
    let rest := behind.dropWhile isBlank
    if digits.isEmpty ∨ rest.isEmpty ∨ '\n' ∈ rest ∨ UInt32.size ≤ decimalValue digits then none
    else some (UInt32.ofNat (decimalValue digits), rest)
  | _ => none

/-- The word that a project's name follows. -/
def projectLabel : List Char :=
  "Project:".toList

/-- The project's name, where the label stands at the front of the text and a
word character follows it, after blanks at will. -/
def labelledName? (text : List Char) : Option (List Char) := do
  let behind ← projectLabel.isPrefixOf? text
  let name := (behind.dropWhile isBlank).takeWhile isWord
  if name.isEmpty then none else some name

/-- **The name of the project that a line starts**: the word behind the first
label that a word follows. -/
def announcedProject? : List Char → Option (List Char)
  | [] => none
  | c :: rest => (labelledName? (c :: rest)).or (announcedProject? rest)

/-- Whether a text is two or more words joined by single dots. -/
def isDottedName (text : List Char) : Bool :=
  let words := fields '.' text
  2 ≤ words.length && words.all fun word => !word.isEmpty && word.all isWord

/-- **The name of the module that a line starts**: all of it but the blanks at
its ends, if that is a dotted name. -/
def announcedModule? (rest : List Char) : Option (List Char) :=
  let name := trimBlanks rest
  if isDottedName name then some name else none

/-- The phrase that an included header follows. -/
def includeLabel : List Char :=
  "Note: including file: ".toList

/-- **What an include note carries**: all that follows the phrase, which is
something and stays on its line. -/
def announcedNote? (rest : List Char) : Option (List Char) := do
  let raw ← includeLabel.isPrefixOf? rest
  if raw.isEmpty ∨ '\n' ∈ raw then none else some raw

/-- **The depth and the path of an include note**: how many spaces it begins
with, and what follows them. -/
def depthAndPath (raw : List Char) : Nat × List Char :=
  ((raw.takeWhile (· == ' ')).length, raw.dropWhile (· == ' '))

/-- The depth in spaces and the path make up what the note carries. -/
theorem replicate_depth_append_path (raw : List Char) :
    List.replicate (depthAndPath raw).1 ' ' ++ (depthAndPath raw).2 = raw := by
  induction raw with
  | nil => rfl
  | cons c rest ih =>
    by_cases h : c = ' ' <;> simp_all [depthAndPath, List.replicate_succ]

/-- Whether a filter is in use and accepts what a note carries. The spaces that
count the depth are part of what it sees. -/
def isFiltered (filter : Option PathFilter) (raw : List Char) : Bool :=
  filter.any (·.accepts raw)

/-- What a note announces. A note of spaces alone has no path, so there is no
header in it. -/
def Announcement.ofNote (filter : Option PathFilter) (raw : List Char) : Announcement :=
  if isFiltered filter raw then .filtered
  else
    match depthAndPath raw with
    | (_, []) => .nothing
    | (level, path) => .header level (String.ofList path)

/-- What the rest of a stream's line announces. -/
def Announcement.ofRest (filter : Option PathFilter) (rest : List Char) : Announcement :=
  match announcedProject? rest with
  | some name => .project (String.ofList name)
  | none =>
    match announcedModule? rest with
    | some name => .module (String.ofList name)
    | none => ((announcedNote? rest).map (.ofNote filter)).getD .nothing

/-- **The stream of a line and what it announces**, for a line that has a
stream. -/
def announcement? (filter : Option PathFilter) (line : List Char) :
    Option (StreamId × Announcement) :=
  (splitStream? line).map fun (stream, rest) => (stream, .ofRest filter rest)

end Log

end IncludeForest
