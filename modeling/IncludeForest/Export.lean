import IncludeForest.Json.Basic
import IncludeForest.Report.Cycle
import IncludeForest.Report.Stats
import IncludeForest.Sink

/-!
# Exporting a forest

A forest can be written as one JSON document for other programs to read: what
was searched for, the figures and the cycles, and then everything in the
forest, project by project. What is absent is left out – the offsets of a
header that is not matched, the headers below one that includes nothing, a
common prefix that is not kept. The document begins with what the program calls
itself, which it also does when it is asked for its version.
-/

namespace IncludeForest

namespace Program

/-- The program's name. -/
def name : String :=
  "include-walker"

/-- The program's version. -/
def version : String :=
  "1.0.0"

end Program

namespace Export

/-- The figures of a forest as a document. -/
def stats (s : Stats) : Json :=
  .object
    [("projects", .number s.projects), ("modules", .number s.modules),
      ("headers", .number s.headers), ("cycle_nodes", .number s.cycles),
      ("matched_nodes", .number s.matched), ("max_depth", .number s.depth)]

/-- A cycle as a document. -/
def cycle (c : Cycle) : Json :=
  .object
    [("project", .string c.project), ("module", .string c.module),
      ("chain", .array (c.chain.map .string))]

/-- The members that tell of a header itself. -/
def headerMembers (h : Header) : List (String × Json) :=
  [("display_name", .string h.shownPath), ("normalized_name", .string h.comparedPath),
    ("has_cycle", .bool h.containsCycle), ("is_cycle", .bool h.closesCycle),
    ("is_matched", .bool h.isMatched), ("has_match", .bool h.containsMatch)] ++
    (h.hit.map fun hit =>
      ("match_span",
        Json.object [("start", .number hit.start), ("end", .number hit.stop)])).toList

mutual

/-- A tree as a document. -/
def tree : IncludeTree → Json
  | .node h ts =>
    .object (headerMembers h ++ if ts.isEmpty then [] else [("children", .array (trees ts))])

/-- Trees as documents. -/
def trees : List IncludeTree → List Json
  | [] => []
  | t :: ts => tree t :: trees ts

end

/-- A module as a document. -/
def module (name : String) (m : Module) : Json :=
  .object
    ([("name", .string name), ("headers", .array (trees m.roots))] ++
      (if m.commonPrefix.isEmpty then []
        else [("longest_common_prefix", .string m.commonPrefix)]) ++
      [("has_cycle", .bool m.hasCycle)])

/-- A project as a document. -/
def project (id : StreamId) (p : Project) : Json :=
  .object
    [("id", .number id.toNat), ("name", .string p.name),
      ("modules", .object (p.modules.toList.map fun (name, m) => (name, module name m)))]

/-- **A forest as a document.** -/
def document (f : Forest) : Json :=
  .object
    [("tool", .string Program.name), ("version", .string Program.version),
      ("search", .string f.rules.needle), ("stats", stats (.ofForest f)),
      ("cycles", .array ((Cycle.ofForest f).map cycle)),
      ("projects", .array (f.projects.toList.map fun (id, p) => project id p))]

/-- **The text of an export.** -/
def text (f : Forest) : String :=
  (document f).pretty 0

/-- **Why an export failed**: the file it was meant for, and what went wrong
with it. -/
inductive Error where
  /-- The file could not be finished. -/
  | io (path cause : String)
  /-- The document could not be written. -/
  | json (path cause : String)
  deriving DecidableEq, Repr

/-- What the user is told about a failed export. -/
def Error.message : Error → String
  | io path cause => s!"Export I/O error '{path}': {cause}"
  | json path cause => s!"JSON export error '{path}': {cause}"

/-- **Exporting to a sink** that stands for the file at `path`: the text that
arrives and the number of projects in it. -/
def toSink (f : Forest) (sink : Sink) (path : String) : Except Error (String × Nat) := do
  let written ← (sink.write (text f)).mapError fun e => Error.json path e.message
  sink.flush.mapError fun e => Error.io path e.message
  return (written, f.projects.size)

end Export

end IncludeForest
