import IncludeForest.CommandLine.Run

/-!
# The program

The outer layer: it finds out what stands around a run, reads the two files,
hands everything to `CommandLine.Delivery.prepare`, and writes what comes of it.
It decides nothing.
-/

namespace IncludeForest.CommandLine

/-- What the system's refusal of a file means, given whether it lets anyone through to it. -/
def fileErrorOf (reachable : Bool) : IO.Error → FileError
  | .noFileOrDirectory .. => .notFound
  | .inappropriateType _ code _ => if code = 20 then .notADirectory else .isADirectory
  | .invalidArgument _ 36 _ => .nameTooLong
  | e => if reachable then .refused (toString e) else .unreachable (toString e)

/-- Whether the system lets anyone through to a file. -/
def isReachable (path : String) : IO Bool := do
  try
    let _ ← IO.FS.realPath path
    return true
  catch _ =>
    return false

/-- Reading a file whole. -/
def readFile (path : String) : IO (Except FileError (List UInt8)) := do
  try
    return .ok (← IO.FS.readBinFile path).toList
  catch e =>
    return .error (fileErrorOf (← isReachable path) e)

/-- The directory for settings, as the environment gives it. -/
def settingsDirectory : IO String := do
  let own ← IO.getEnv "XDG_CONFIG_HOME"
  let home ← IO.getEnv "HOME"
  match own.filter (·.startsWith "/"), home.filter (·.startsWith "/") with
  | some directory, _ => return s!"{directory}/{Program.name}"
  | none, some directory => return s!"{directory}/.config/{Program.name}"
  | none, none => return "."

/-- What stands around a run. -/
def surroundings : IO Surroundings := do
  let directory ← settingsDirectory
  let terminal ← (← IO.getStdout).isTty
  let plain ← IO.getEnv "NO_COLOR"
  return { defaultConfig := s!"{directory}/config.toml", interactive := terminal && plain.isNone }

/-- Telling the user what ended the run. -/
def fail (failure : Failure) : IO UInt32 := do
  IO.eprintln s!"Error: {failure.message}"
  return 1

/-- Writing the output. -/
def printText (text : String) : IO Unit := do
  let output ← IO.getStdout
  output.putStr text
  output.flush

/-- Opening the file of an export, which takes away what it held. -/
def openExport (path : String) : IO (Except FileError IO.FS.Handle) := do
  try
    return .ok (← IO.FS.Handle.mk path .write)
  catch e =>
    return .error (fileErrorOf (← isReachable path) e)

/-- Writing an export. -/
def writeExport (path text : String) : IO UInt32 := do
  match ← openExport path with
  | .error e => fail (.io Failure.createExport path e.message)
  | .ok file =>
    try
      file.putStr text
      file.flush
      return 0
    catch e =>
      fail (.exporting (.io path (fileErrorOf true e).message))

/-- Writing what a run has to show, then the export. -/
def present (d : Delivery) : IO UInt32 := do
  try
    printText d.output
  catch e =>
    return ← fail (.io "write report" "<stdout>" (fileErrorOf true e).message)
  match d.exportPath with
  | none => return 0
  | some path => writeExport path d.exportText

/-- A run on a log. -/
def scanLog (input : String) (request : Request) : IO UInt32 := do
  let around ← surroundings
  let path := request.configPath around
  let config ← readFile path
  if let .ok (settings, warnings) := request.settings path config around.patterns then
    unless settings.logLevel = some .error do
      warnings.forM fun warning => IO.eprintln s!"warning: {warning}"
  match Delivery.prepare around input request config (← readFile input) with
  | .error failure => fail failure
  | .ok d => present d

end IncludeForest.CommandLine

open IncludeForest.CommandLine in
/-- The program. -/
def main (arguments : List String) : IO UInt32 := do
  match Invocation.ofArguments arguments with
  | .version => printText versionText; return 0
  | .help => printText helpText; return 0
  | .usageError => IO.eprint helpText; return 2
  | .scan input request => scanLog input request
