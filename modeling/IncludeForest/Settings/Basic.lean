import IncludeForest.PathFilter

/-!
# Settings

What a user can choose once and for all in a settings file, with the choice
that holds where the file says nothing.
-/

namespace IncludeForest

/-- **When styles are used.** -/
inductive ColorMode where
  /-- When the output is read by a person. -/
  | auto
  /-- Always. -/
  | always
  /-- Never. -/
  | never
  deriving DecidableEq, Repr, Inhabited

namespace ColorMode

/-- The word for a mode. -/
def name : ColorMode → String
  | auto => "auto"
  | always => "always"
  | never => "never"

/-- The mode that a word stands for. -/
def ofName? (name : String) : Option ColorMode :=
  [auto, always, never].find? (·.name == name)

/-- Whether the mode settles the question without a look at the output. -/
def settled? : ColorMode → Option Bool
  | auto => none
  | always => some true
  | never => some false

/-- Whether styles are used, given whether a person reads the output. -/
def enabled (mode : ColorMode) (interactive : Bool) : Bool :=
  mode.settled?.getD interactive

end ColorMode

/-- **How much is told of the program's own doings.** -/
inductive LogLevel where
  /-- Only what stops the program. -/
  | error
  /-- Also what it had to make up for. -/
  | warn
  /-- Also what it does. -/
  | info
  /-- Also how it does it. -/
  | debug
  /-- Everything. -/
  | trace
  deriving DecidableEq, Repr

namespace LogLevel

/-- The word for a level. -/
def name : LogLevel → String
  | error => "error"
  | warn => "warn"
  | info => "info"
  | debug => "debug"
  | trace => "trace"

/-- The level that a word stands for. -/
def ofName? (name : String) : Option LogLevel :=
  [error, warn, info, debug, trace].find? (·.name == name)

end LogLevel

/-- **The choices of a user.** -/
structure Settings where
  /-- Whether headers of the toolchain are dropped. -/
  hideToolchain : Bool := false
  /-- The patterns that tell them. -/
  toolchainPatterns : List String := PathFilter.builtinPatterns
  /-- Whether paths are simplified. -/
  simplifyPaths : Bool := true
  /-- Whether only what leads to a cycle or a match is opened. -/
  autoExpand : Bool := false
  /-- When styles are used. -/
  color : ColorMode := .auto
  /-- Whether paths are compared without regard to case. -/
  ignoreCase : Bool := false
  /-- How much the program tells of itself, if that is chosen. -/
  logLevel : Option LogLevel := none
  deriving DecidableEq, Repr, Inhabited

end IncludeForest
