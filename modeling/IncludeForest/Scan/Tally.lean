import IncludeForest.Forest.Module

/-!
# What a scan counts

Every line of a log is counted as read, and then once more for what it was:
a line of no stream, a line that announces nothing, a note that the filter
dropped, or the start of a project, of a module or of a header. A refused line
is only counted as read. Of the headers, those that close a cycle and those
that are matched are counted besides.
-/

namespace IncludeForest

/-- **The counters of a scan.** -/
structure Tally where
  /-- Lines. -/
  lines : Nat := 0
  /-- Lines that belong to no stream. -/
  withoutStream : Nat := 0
  /-- Lines of a stream that announce nothing. -/
  idle : Nat := 0
  /-- Notes that the filter dropped. -/
  filtered : Nat := 0
  /-- Projects that started. -/
  projects : Nat := 0
  /-- Modules that started. -/
  modules : Nat := 0
  /-- Headers that were inserted. -/
  headers : Nat := 0
  /-- Headers among them that close a cycle. -/
  cycles : Nat := 0
  /-- Headers among them that are matched. -/
  matched : Nat := 0
  /-- Modules purged in the end. -/
  purgedModules : Nat := 0
  /-- Projects purged in the end. -/
  purgedProjects : Nat := 0
  deriving DecidableEq, Repr, Inhabited

namespace Tally

/-- The counters with one more line read. -/
def addLine (t : Tally) : Tally :=
  { t with lines := t.lines + 1 }

/-- The counters with one more line of no stream. -/
def addWithoutStream (t : Tally) : Tally :=
  { t with withoutStream := t.withoutStream + 1 }

/-- The counters with one more line that announces nothing. -/
def addIdle (t : Tally) : Tally :=
  { t with idle := t.idle + 1 }

/-- The counters with one more note that the filter dropped. -/
def addFiltered (t : Tally) : Tally :=
  { t with filtered := t.filtered + 1 }

/-- The counters with one more project. -/
def addProject (t : Tally) : Tally :=
  { t with projects := t.projects + 1 }

/-- The counters with one more module. -/
def addModule (t : Tally) : Tally :=
  { t with modules := t.modules + 1 }

/-- **The counters with one more header**, given what came of inserting it. -/
def addHeader (t : Tally) (outcome : Insertion) : Tally :=
  { t with
    headers := t.headers + 1
    cycles := t.cycles + outcome.closesCycle.toNat
    matched := t.matched + outcome.isMatched.toNat }

end Tally

end IncludeForest
