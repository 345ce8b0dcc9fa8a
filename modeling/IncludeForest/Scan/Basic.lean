import IncludeForest.Forest.Basic
import IncludeForest.Scan.Tally
import IncludeForest.Text.Preview
import IncludeForest.Text.Utf8

/-!
# Scanning a log

A scan reads the lines of a log in order and lets each do to the forest what
it announces. A note names no module, only its stream, so the **scanner**
remembers which module each stream started last; that and a few counters are
all it keeps besides the forest.

A line can be refused, because it contradicts the lines before it. `readLine`
reports that and leaves everything but the count of lines as it was, so a
caller may go on, as `readAll` does. `scan` does not: the first refused line
ends it, since a tree built past that line would be wrong without anyone
noticing.

`finish` ends the work on a log: what stayed empty is purged, then the paths
are simplified if that was asked for. `Forest.ofLog` is all of it, from the
bytes of a log to the finished forest.
-/

namespace IncludeForest

/-- **A scan under way.** -/
structure Scanner where
  /-- The forest so far. -/
  forest : Forest
  /-- The filter in use, if any. -/
  filter : Option PathFilter := none
  /-- The module that each stream started last. -/
  latest : SortedMap StreamId String := .empty
  /-- What has been counted. -/
  tally : Tally := {}

namespace Scanner

/-- The scanner at the beginning of a log. -/
def start (forest : Forest) (filter : Option PathFilter) : Scanner :=
  { forest, filter }

/-- The module that a note of the stream belongs to; the empty name if the
stream has not started any. -/
def target (s : Scanner) (stream : StreamId) : String :=
  (s.latest.get? stream).getD ""

/-- **The scanner after an announcement**, unless the forest refuses it. -/
def perform (s : Scanner) (stream : StreamId) : Log.Announcement → Except ForestError Scanner
  | .project name => do
    let forest ← s.forest.startProject stream name
    return { s with forest := forest, tally := s.tally.addProject }
  | .module name => do
    let forest ← s.forest.startModule stream name
    return { s with
      forest := forest
      latest := s.latest.insert stream name
      tally := s.tally.addModule }
  | .header level path => do
    let (forest, outcome) ← s.forest.insertNote stream (s.target stream) level path
    return { s with forest := forest, tally := s.tally.addHeader outcome }
  | .filtered => return { s with tally := s.tally.addFiltered }
  | .nothing => return { s with tally := s.tally.addIdle }

/-- **The scanner after a line that announces this**, or that is on no stream, and
why the line was refused, if it was. -/
def hear (s : Scanner) (found : Option (StreamId × Log.Announcement)) :
    Scanner × Option ForestError :=
  let s := { s with tally := s.tally.addLine }
  match found with
  | none => ({ s with tally := s.tally.addWithoutStream }, none)
  | some (stream, announced) =>
    match s.perform stream announced with
    | .ok s => (s, none)
    | .error e => (s, some e)

/-- **The scanner after a line**, and why the line was refused, if it was. -/
def readLine (s : Scanner) (line : List Char) : Scanner × Option ForestError :=
  s.hear (Log.announcement? s.filter line)

/-- **The scanner after all of some lines**, refused or not, and for each of
them why it was refused, if it was. -/
def readAll (s : Scanner) : List (List Char) → Scanner × List (Option ForestError)
  | [] => (s, [])
  | line :: rest =>
    let (s, refusal) := s.readLine line
    let (s, refusals) := s.readAll rest
    (s, refusal :: refusals)

end Scanner

/-- **A line that contradicts those before it**, by its number from 1. -/
structure LogError where
  /-- The number of the line. -/
  line : Nat
  /-- Why it was refused. -/
  cause : ForestError
  deriving DecidableEq, Repr

/-- What the user is told about a refused line. -/
def LogError.message (e : LogError) : String :=
  s!"Inconsistent build log at line {e.line}: {e.cause.message}"

namespace Scanner

/-- The scanner after the lines up to the first that is refused, which is
reported; `number` is that of the first of the lines. -/
def readLines (s : Scanner) (number : Nat) : List (List Char) → Scanner × Option LogError
  | [] => (s, none)
  | line :: rest =>
    match s.readLine line with
    | (s, some cause) => (s, some ⟨number, cause⟩)
    | (s, none) => s.readLines (number + 1) rest

end Scanner

/-- **The scan of some lines**: the scanner when they are at an end or one of
them has been refused. -/
def scan (forest : Forest) (filter : Option PathFilter) (lines : List (List Char)) :
    Scanner × Option LogError :=
  (Scanner.start forest filter).readLines 1 lines

/-- **The last steps**: what is empty is purged and counted, then the paths
are simplified if that is asked for. -/
def finish (forest : Forest) (tally : Tally) : Forest × Tally :=
  let (purged, removed) := forest.purge
  (if purged.rules.simplifyPaths then purged.simplify else purged,
    { tally with purgedModules := removed.modules, purgedProjects := removed.projects })

/-- The lines of a log, whatever its bytes are. -/
def logLines (log : List UInt8) : List (List Char) :=
  Text.lines (Text.Utf8.decodeLossy log)

/-- **The finished forest of a log**, and what the scan has counted. -/
def Forest.ofLog (rules : ForestRules) (filter : Option PathFilter) (log : List UInt8) :
    Except LogError (Forest × Tally) :=
  match scan (.empty rules) filter (logLines log) with
  | (_, some e) => .error e
  | (s, none) => .ok (finish s.forest s.tally)

end IncludeForest
