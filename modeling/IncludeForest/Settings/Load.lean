import IncludeForest.FileTree
import IncludeForest.Settings.Check
import IncludeForest.Text.Utf8
import IncludeForest.Toml.Document

/-!
# Loading settings

From the bytes of a settings file to settings. There may be no file, which is
no mistake; a file that is too large, is no text or is not written properly
counts as none, with a warning.
-/

namespace IncludeForest.Settings

/-- How many bytes a settings file may have. -/
def maxFileBytes : Nat :=
  64 * 1024

/-- What is said of a file that is not written properly. -/
def malformed : String :=
  "<toml error>"

/-- What is said of bytes that are no text. -/
def noText : String :=
  "stream did not contain valid UTF-8"

/-- The warning about a file that cannot be read. -/
def unreadable (path cause : String) : String :=
  s!"Could not read config file '{path}': {cause}. Using defaults."

/-- The warning about a file that is too large. -/
def tooLarge (path : String) (size : Nat) : String :=
  s!"Config file '{path}' is {size} bytes, exceeds maximum of {maxFileBytes} bytes. " ++
    "Using defaults."

/-- The warning about a file that is not written properly. -/
def notWritten (path : String) : String :=
  s!"Failed to parse config file '{path}': {malformed}. Using defaults."

/-- **The settings in the bytes of a file**, and what the user is told about
its mistakes. -/
def ofBytes (path : String) (bytes : List UInt8) (language : PatternLanguage) :
    Settings × List String :=
  if maxFileBytes < bytes.length then
    ({}, [tooLarge path bytes.length])
  else
    match Text.Utf8.decodeStrict? bytes with
    | none => ({}, [unreadable path noText])
    | some text =>
      match (Toml.parse? text).bind RawSettings.ofDocument? with
      | none => ({}, [notWritten path])
      | some raw => raw.check language

/-- **The settings of a file that may not be there.** -/
def load (path : String) (content : Except FileError (List UInt8))
    (language : PatternLanguage := .standard) : Settings × List String :=
  match content with
  | .ok bytes => ofBytes path bytes language
  | .error e => ({}, if e.nameExists then [unreadable path e.message] else [])

end IncludeForest.Settings
