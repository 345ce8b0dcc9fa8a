import IncludeForest.CommandLine.Delivery
import IncludeForest.FileTree

/-!
# A run of the program

A run reads the settings and the log, builds the forest, and writes the cycle
report and the outline. If an export is asked for, it is written after that, so
what is shown does not depend on it.

`run` is a run on a file tree, with an output that takes everything. It gives
back the files and the outcome, and an export is the only change it makes. An
export can fail when its file is opened, and then the files are as before; or
later, when what the file held is lost and the new text is not all there.
-/

namespace IncludeForest.CommandLine

/-- **What a run leaves behind** besides files. -/
structure Outcome where
  /-- The exit code: 0 if all went well, 1 after a failure, 2 for arguments
  that make no sense. -/
  code : Nat
  /-- What was written to the output. -/
  output : String := ""
  /-- What ended the run, if anything did. -/
  failure : Option Failure := none
  deriving DecidableEq, Repr

namespace Outcome

/-- A run that ended early. -/
def failed (output : String) (failure : Failure) : Outcome :=
  { code := 1, output, failure := some failure }

/-- The line that tells the user what ended the run. -/
def errorLine (outcome : Outcome) : Option String :=
  outcome.failure.map fun failure => s!"Error: {failure.message}"

end Outcome

/-- What is written when the version is asked for. -/
def versionText : String :=
  s!"{Program.name} {Program.version}\n"

/-- A text that stands for the help. The help has a wording and a layout of its own, which are
left to whatever prints it. -/
def helpText : String :=
  String.join
    ["Include dependency trees from the include notes of a build log\n\n",
      s!"Usage: {Program.name} [OPTIONS] <INPUT>\n\n",
      "Arguments:\n",
      "  <INPUT>  Build log with include notes\n\n",
      "Options:\n",
      "      --no-std            Hide the headers of the toolchain\n",
      "      --auto-expand       Open only what leads to a cycle or a match\n",
      "      --simplify          Drop the common prefix of a module's paths (default)\n",
      "      --no-simplify       Show paths as the log has them\n",
      "      --find <SUBSTRING>  Highlight headers whose path contains this text\n",
      "      --json <PATH>       Also write the forest as JSON to this file\n",
      "      --color <WHEN>      When to use colour [auto, always, never]\n",
      "      --config <PATH>     Read settings from this file\n",
      "  -d, --debug             Tell of the program's doings\n",
      "  -h, --help              Print help\n",
      "  -V, --version           Print version\n"]

/-- **The files after an export**, and why it failed, if it did. -/
def exportTo (disk : Sink) (files : FileTree) (d : Delivery) (path : String) :
    FileTree × Option Failure :=
  let (bytes, failure) :=
    match Export.toSink d.forest disk path with
    | .ok (text, _) => (text.toUTF8.toList, none)
    | .error e => (disk.remains d.exportText, some (.exporting e))
  match files.write path bytes with
  | .ok files => (files, failure)
  | .error e => (files, some (.io Failure.createExport path e.message))

/-- The files and the outcome after what a run has to show has been made. -/
def deliver (disk : Sink) (files : FileTree) (d : Delivery) : FileTree × Outcome :=
  match d.exportPath with
  | none => (files, { code := 0, output := d.output })
  | some path =>
    match exportTo disk files d path with
    | (files, none) => (files, { code := 0, output := d.output })
    | (files, some e) => (files, .failed d.output e)

/-- **A run of the program** on a file tree: the files and the outcome. -/
def run (around : Surroundings) (files : FileTree) (arguments : List String) :
    FileTree × Outcome :=
  match Invocation.ofArguments arguments with
  | .version => (files, { code := 0, output := versionText })
  | .help => (files, { code := 0, output := helpText })
  | .usageError => (files, { code := 2 })
  | .scan input r =>
    let config := files.read (r.configPath around)
    match Delivery.prepare around input r config (files.read input) with
    | .error e => (files, .failed "" e)
    | .ok d => deliver around.disk files d

end IncludeForest.CommandLine
