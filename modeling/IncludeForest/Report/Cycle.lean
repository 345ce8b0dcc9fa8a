import IncludeForest.Forest.Basic

/-!
# Cycles of a forest

Every header that closes a cycle is reported once, with the project and the
module it belongs to and with the **chain** of headers that leads to it, from
the root of its tree down to the header itself. The cycles come by project, by
module, and in the order of the log.

A header that neither closes nor contains a cycle has nothing to report below
it, so the walk turns back there, and a module without a cycle is not walked
at all. What a header and a module remember of cycles is exact, so this leaves
out none.
-/

namespace IncludeForest

/-- **A header that closes a cycle**, with the chain that leads to it. -/
structure Cycle where
  /-- The project's name. -/
  project : String
  /-- The module's name. -/
  module : String
  /-- The paths of the chain as they are shown, the root first. -/
  chain : List String
  deriving DecidableEq, Repr

namespace Cycle

/-- The path that closes the cycle: the last of the chain. -/
def closingPath (c : Cycle) : String :=
  c.chain.getLast?.getD ""

mutual

/-- The chains of the cycles in a tree that stands below the given paths, of
which the nearest comes first. -/
def chainsBelow (above : List String) : IncludeTree → List (List String)
  | .node h ts =>
    if h.onCyclePath then
      let way := h.shownPath :: above
      (if h.closesCycle then [way.reverse] else []) ++ chainsBelowAll way ts
    else []

/-- The chains of the cycles in trees that stand below the given paths. -/
def chainsBelowAll (above : List String) : List IncludeTree → List (List String)
  | [] => []
  | t :: ts => chainsBelow above t ++ chainsBelowAll above ts

end

/-- The cycles of one module. -/
def ofModule (project name : String) (m : Module) : List Cycle :=
  if m.hasCycle then (chainsBelowAll [] m.roots).map fun chain => ⟨project, name, chain⟩ else []

/-- **The cycles of a forest.** -/
def ofForest (f : Forest) : List Cycle :=
  f.projects.values.flatMap fun project =>
    project.modules.toList.flatMap fun (name, m) => ofModule project.name name m

end Cycle

end IncludeForest
