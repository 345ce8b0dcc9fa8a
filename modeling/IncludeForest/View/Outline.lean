import IncludeForest.Report.Cycle
import IncludeForest.View.Line

/-!
# What is shown of a forest

First comes the cycle report, one line for each header that closes a cycle: the
project and the module, and the chain of paths that leads to the header. Then
comes the outline.

## The outline

A forest is shown as an indented list: its projects, the modules of each, and
the trees of each module, one line for each of them and each header in its
place. A line ends in markers: whether there is a cycle at it or below it, and
whether the search found it.

## Expanding

By default everything is shown. With *auto-expand* only what leads somewhere is
opened – to a header that closes a cycle or to one that is matched – and the
rest is folded: its line ends in a count of what is not shown. A folded project
counts its modules, a folded module and a folded header count the headers that
would be shown below them. What closes a cycle or is matched is never hidden,
because everything it stands below leads to it.
-/

namespace IncludeForest.View

open Text

/-! ## The cycle report -/

/-- The line of a cycle. -/
def cycleLine (c : Cycle) : Line :=
  let chain := " -> ".intercalate c.chain
  { segments :=
      [{ text := " * " }, { text := "cycle detected", style := .cycle },
        { text := s!": {c.project}/{c.module}: {chain}" }] }

/-- **The cycle report as it is written.** -/
def cyclesText (color : Bool) (cycles : List Cycle) : String :=
  write color (cycles.map cycleLine)

/-! ## The outline -/

/-- **How a forest is shown.** Neither choice changes the forest. -/
structure Appearance where
  /-- Whether only what leads to a cycle or a match is opened. -/
  autoExpand : Bool := false
  /-- Whether styles are used. -/
  color : Bool := false
  deriving DecidableEq, Repr, Inhabited

/-- Whether the line of something is opened, given what it leads to. -/
def opened (autoExpand containsCycle containsMatch : Bool) : Bool :=
  !autoExpand || containsCycle || containsMatch

/-- A marker at the end of a line. -/
def marker (text : String) : List Segment :=
  [{ text := " " }, { text := text, style := .dim }]

/-- The count of what a folded line hides. -/
def hiddenCount (count : Nat) : List Segment :=
  marker s!"(+{count})"

/-- The markers that hold. -/
def markers (candidates : List (Bool × String)) : List Segment :=
  (candidates.filter (·.1)).flatMap fun m => marker m.2

/-! ## Headers -/

/-- How the path of a header is painted. -/
def headerStyle (h : Header) : Style :=
  if h.closesCycle then .cycle else if h.containsCycle then .cyclePath else .plain

/-- **The path of a header**, in one piece, or in three if the hit in it can be
seen. -/
def headerName (h : Header) : List Segment :=
  let style := headerStyle h
  let whole := [{ text := h.shownPath, style }]
  match h.visibleHit? with
  | none => whole
  | some span =>
    match splitAtByte? span.start h.shownPath.toList with
    | none => whole
    | some (front, rest) =>
      match splitAtByte? (span.stop - span.start) rest with
      | none => whole
      | some (hit, back) =>
        [{ text := String.ofList front, style },
          { text := String.ofList hit, style := .hit style },
          { text := String.ofList back, style }]

/-- What the line of a header holds before any count. -/
def headerSegments (h : Header) : List Segment :=
  headerName h ++
    markers [(h.closesCycle, "[cycle]"), (h.containsCycle && !h.closesCycle, "[contains cycle]"),
      (h.isMatched, "[match]")]

mutual

/-- The lines of a tree whose root is shown at the given level. -/
def treeLines (autoExpand : Bool) (level : Nat) : IncludeTree → List Line
  | .node h ts =>
    if ts.isEmpty || opened autoExpand h.containsCycle h.containsMatch then
      { level, segments := headerSegments h } :: treesLines autoExpand (level + 1) ts
    else
      [{ level, segments := headerSegments h ++ hiddenCount (IncludeTree.sizeAll ts) }]

/-- The lines of trees whose roots are shown at the given level. -/
def treesLines (autoExpand : Bool) (level : Nat) : List IncludeTree → List Line
  | [] => []
  | t :: ts => treeLines autoExpand level t ++ treesLines autoExpand level ts

end

/-! ## Modules and projects -/

/-- What the line of a project or a module holds before any count. -/
def containerSegments (name : String) (containsCycle : Bool) : List Segment :=
  { text := name, style := if containsCycle then .cyclePath else .plain } ::
    markers [(containsCycle, "[contains cycle]")]

/-- The lines of a project or a module: its own and those below it, or its own
with a count of what it hides. -/
def containerLines (level : Nat) (name : String) (containsCycle isOpen : Bool) (hidden : Nat)
    (inside : List Line) : List Line :=
  let segments := containerSegments name containsCycle
  if isOpen then { level, segments } :: inside
  else [{ level, segments := segments ++ hiddenCount hidden }]

/-- The lines of a module. -/
def moduleLines (autoExpand : Bool) (name : String) (m : Module) : List Line :=
  containerLines 1 name m.hasCycle (opened autoExpand m.hasCycle m.hasMatch) m.size
    (treesLines autoExpand 2 m.roots)

/-- The lines of a project. -/
def projectLines (autoExpand : Bool) (p : Project) : List Line :=
  containerLines 0 p.name p.hasCycle (opened autoExpand p.hasCycle p.hasMatch) p.modules.size
    (p.modules.toList.flatMap fun (name, m) => moduleLines autoExpand name m)

/-- **The outline of a forest.** -/
def outline (autoExpand : Bool) (f : Forest) : List Line :=
  f.projects.values.flatMap (projectLines autoExpand)

/-- **The outline as it is written.** -/
def forestText (look : Appearance) (f : Forest) : String :=
  write look.color (outline look.autoExpand f)

end IncludeForest.View
