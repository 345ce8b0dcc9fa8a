import IncludeForest.Settings.Basic
import IncludeForest.Settings.Raw
import IncludeForest.Text.Bytes

/-!
# Checking settings

What a settings file says may make no sense: a word that stands for nothing, a
pattern that is none in the language of patterns. Such a key counts as if the
file did not have it, the user is warned, and the other keys stand, so a mistake
in a settings file does not keep the program from running. Each of the patterns
that come out of the check can be used by itself; whether all of them can be used
together is not looked at here.

Three keys can be wrong. Each check gives the problem or the accepted choice,
and `RawSettings.check` goes through them in the order of the warnings.
-/

namespace IncludeForest

/-- How many patterns a settings file may list. -/
def maxPatterns : Nat :=
  64

/-- How many bytes a pattern in a settings file may have. -/
def maxPatternBytes : Nat :=
  1024

/-- What is wrong with one pattern of a list, if anything. -/
def patternProblem? (language : PatternLanguage) (pattern : String) : Option String :=
  let length := Text.byteLength pattern.toList
  if maxPatternBytes < length then
    some s!"pattern is {length} chars, exceeds maximum of {maxPatternBytes}"
  else if (language.read? pattern).isNone then
    some s!"invalid regex '{pattern}': {PathFilter.malformed}"
  else none

/-- **What is wrong with a list of patterns**, if anything: too many of them, or
the first that is wrong by itself. -/
def patternsProblem? (language : PatternLanguage) (patterns : List String) : Option String :=
  if maxPatterns < patterns.length then
    some s!"{patterns.length} patterns exceeds maximum of {maxPatterns}"
  else patterns.findSome? (patternProblem? language)

/-- A text with its ASCII letters made small. Other letters stay: the small form of none of
them is a letter of a word that is looked up here. -/
def lowerCase (text : String) : String :=
  String.ofList (text.toList.map Char.toLower)

/-- **What came of a key**: nothing, because the file does not have it; a
choice; or a warning. -/
inductive Checked (α : Type) where
  /-- The file does not have the key. -/
  | absent
  /-- The choice that the key makes. -/
  | chosen (a : α)
  /-- What the user is told about a key that makes none. -/
  | refused (warning : String)
  deriving Repr

namespace Checked

variable {α : Type}

/-- The choice, if one is made. -/
def toOption : Checked α → Option α
  | chosen a => some a
  | _ => none

/-- The warning, if there is one. -/
def warnings : Checked α → List String
  | refused warning => [warning]
  | _ => []

/-- What came of a key that may be absent. -/
def ofOption {β : Type} (check : β → Checked α) (given : Option β) : Checked α :=
  (given.map check).getD absent

end Checked

/-- What came of the list of patterns. -/
def checkPatterns (language : PatternLanguage) (patterns : List String) :
    Checked (List String) :=
  match patternsProblem? language patterns with
  | none => .chosen patterns
  | some problem =>
    .refused s!"[filters] std_include_patterns: {problem}. Using built-in patterns."

/-- What came of the choice of styles. -/
def checkColor (color : String) : Checked ColorMode :=
  match ColorMode.ofName? (lowerCase color) with
  | some mode => .chosen mode
  | none =>
    .refused (s!"[view] color = \"{color}\" is not recognised. " ++
      "Expected \"auto\", \"always\" or \"never\". Using default (auto).")

/-- What came of the choice of a level. -/
def checkLevel (level : String) : Checked LogLevel :=
  match LogLevel.ofName? (lowerCase level) with
  | some chosen => .chosen chosen
  | none =>
    .refused (s!"[logging] level = \"{level}\" is not recognised. " ++
      "Valid values: error, warn, info, debug, trace. Using default (info).")

/-- **The settings that a file makes**, and what the user is told about its
mistakes. -/
def RawSettings.check (raw : RawSettings) (language : PatternLanguage) :
    Settings × List String :=
  let builtin : Settings := {}
  let patterns := Checked.ofOption (checkPatterns language) raw.toolchainPatterns
  let color := Checked.ofOption checkColor raw.color
  let level := Checked.ofOption checkLevel raw.level
  ({ hideToolchain := raw.hideToolchain.getD builtin.hideToolchain
     toolchainPatterns := patterns.toOption.getD builtin.toolchainPatterns
     simplifyPaths := raw.simplifyPaths.getD builtin.simplifyPaths
     autoExpand := raw.autoExpand.getD builtin.autoExpand
     color := color.toOption.getD builtin.color
     ignoreCase := raw.ignoreCase.getD builtin.ignoreCase
     logLevel := level.toOption },
    patterns.warnings ++ color.warnings ++ level.warnings)

end IncludeForest
