import IncludeForest.Export
import IncludeForest.PathFilter
import IncludeForest.Scan.Basic

/-!
# Failures

Everything that can end a run, with what the user is told about it. A failure
often has a cause of its own, which has one in turn; `Failure.sources` lists
what each of them says, the nearest first.
-/

namespace IncludeForest

/-- **What can be wrong with settings.** -/
inductive SettingsError where
  /-- The file cannot be had. -/
  | io (path cause : String)
  /-- A pattern is not written properly. -/
  | invalidPattern (pattern : String)
  /-- A value is not among those that make sense. -/
  | outOfRange (field value expected : String)
  deriving DecidableEq, Repr

namespace SettingsError

/-- What the user is told. -/
def message : SettingsError → String
  | io path cause => s!"Config I/O error '{path}': {cause}"
  | invalidPattern pattern =>
    s!"Invalid std include pattern '{pattern}': {PathFilter.malformed}"
  | outOfRange field value expected =>
    s!"Config '{field}' = '{value}' is out of range. Expected: {expected}"

/-- What its cause says, if it has one. -/
def sources : SettingsError → List String
  | io _ cause => [cause]
  | invalidPattern _ => [PathFilter.malformed]
  | outOfRange .. => []

end SettingsError

/-- What the cause of a failed export says. -/
def Export.Error.sources : Export.Error → List String
  | io _ cause => [cause]
  | json _ cause => [cause]

/-- **What can end a run.** -/
inductive Failure where
  /-- A step that the forest refused. -/
  | model (e : ForestError)
  /-- A line of the log that contradicts those before it. -/
  | log (e : LogError)
  /-- Settings that cannot be used. -/
  | settings (e : SettingsError)
  /-- An export that could not be finished. -/
  | exporting (e : Export.Error)
  /-- A file that cannot be had, and what it was for. -/
  | io (operation path cause : String)
  deriving DecidableEq, Repr

namespace Failure

/-- **What the user is told.** -/
def message : Failure → String
  | model e => s!"Model error: {e.message}"
  | log e => e.message
  | settings e => s!"Configuration error: {e.message}"
  | exporting e => s!"Export error: {e.message}"
  | io operation path cause => s!"I/O error during {operation} on '{path}': {cause}"

/-- What the causes say, the nearest first. -/
def sources : Failure → List String
  | model e => [e.message]
  | log e => [e.cause.message]
  | settings e => e.message :: e.sources
  | exporting e => e.message :: e.sources
  | io _ _ cause => [cause]

/-- What reading a log is for. -/
def readLog : String :=
  "read build log"

/-- What opening an export is for. -/
def createExport : String :=
  "create JSON export"

end Failure

end IncludeForest
