import IncludeForest.CommandLine.Arguments
import IncludeForest.Failure
import IncludeForest.Settings.Load
import IncludeForest.View.Outline

/-!
# What a run delivers

A run reads two files, the settings and the log. `Delivery.prepare` makes all
that the run will show and export out of what came of reading them, so a
failure there leaves nothing to show. What the user asks for on the command
line goes before what the settings say.
-/

namespace IncludeForest.CommandLine

/-- **What a run finds around it.** -/
structure Surroundings where
  /-- Where the usual settings file is. -/
  defaultConfig : String
  /-- Whether a person reads the output. -/
  interactive : Bool := false
  /-- What takes the text of an export, once its file is open. -/
  disk : Sink := {}
  /-- The language that patterns are written in. -/
  patterns : PatternLanguage := .standard

/-- The settings file of a run. -/
def Request.configPath (r : Request) (around : Surroundings) : String :=
  r.config.getD around.defaultConfig

/-- The settings of a run and what the user is told about them. A settings file
that is asked for has to exist. -/
def Request.settings (r : Request) (path : String) (content : Except FileError (List UInt8))
    (language : PatternLanguage) : Except Failure (Settings × List String) :=
  match content with
  | .error e =>
    if r.config.isSome ∧ ¬ e.nameExists then .error (.settings (.io path e.message))
    else .ok (Settings.load path content language)
  | .ok _ => .ok (Settings.load path content language)

/-- The rules of the forest under a request and settings. -/
def Request.rules (r : Request) (s : Settings) : ForestRules :=
  { simplifyPaths := r.simplify.getD s.simplifyPaths
    policy := .ofIgnoreCase s.ignoreCase
    query := r.find.getD "" }

/-- The filter in use under a request and settings, if any. The patterns have
to make sense even if it is not used. -/
def Request.filter (r : Request) (s : Settings) (language : PatternLanguage) :
    Except Failure (Option PathFilter) :=
  match PathFilter.ofPatterns s.toolchainPatterns language with
  | .ok filter => .ok (if r.hideToolchain || s.hideToolchain then some filter else none)
  | .error pattern => .error (.settings (.invalidPattern pattern))

/-- How the forest is shown under a request and settings. -/
def Request.appearance (r : Request) (s : Settings) (interactive : Bool) : View.Appearance :=
  { autoExpand := r.autoExpand || s.autoExpand
    color := (r.color.getD s.color).enabled interactive }

/-- **What a run has to show**, and to export. -/
structure Delivery where
  /-- The forest of the log. -/
  forest : Forest
  /-- How it is shown. -/
  look : View.Appearance
  /-- The file to export to, if there is one. -/
  exportPath : Option String

namespace Delivery

/-- **What is written to the output**: the cycle report, then the outline. -/
def output (d : Delivery) : String :=
  View.cyclesText d.look.color (Cycle.ofForest d.forest) ++ View.forestText d.look d.forest

/-- **What is written to the export.** -/
def exportText (d : Delivery) : String :=
  Export.text d.forest

/-- The forest of a log that was read, or not. -/
def forestOf (rules : ForestRules) (filter : Option PathFilter) (input : String)
    (log : Except FileError (List UInt8)) : Except Failure Forest :=
  match log with
  | .error e => .error (.io Failure.readLog input e.message)
  | .ok bytes =>
    match Forest.ofLog rules filter bytes with
    | .ok (forest, _) => .ok forest
    | .error e => .error (.log e)

/-- **What a run has to show**, given what came of reading its two files. -/
def prepare (around : Surroundings) (input : String) (r : Request)
    (config log : Except FileError (List UInt8)) : Except Failure Delivery := do
  let (s, _) ← r.settings (r.configPath around) config around.patterns
  let filter ← r.filter s around.patterns
  let forest ← forestOf (r.rules s) filter input log
  return { forest, look := r.appearance s around.interactive, exportPath := r.json }

end Delivery

end IncludeForest.CommandLine
