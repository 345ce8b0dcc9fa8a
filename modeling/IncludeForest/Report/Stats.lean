import IncludeForest.Forest.Basic

/-!
# Figures of a forest

How much there is of everything: projects, modules, headers, headers that
close a cycle, headers that are matched, and how many headers stand on the
longest way down any tree.
-/

namespace IncludeForest

/-- **The figures of a forest.** -/
structure Stats where
  /-- Projects. -/
  projects : Nat := 0
  /-- Modules of all projects. -/
  modules : Nat := 0
  /-- Headers of all modules. -/
  headers : Nat := 0
  /-- Headers that close a cycle. -/
  cycles : Nat := 0
  /-- Headers that are matched. -/
  matched : Nat := 0
  /-- Headers on the longest way down a tree. -/
  depth : Nat := 0
  deriving DecidableEq, Repr

namespace Stats

mutual

/-- How many headers of a tree have a property. -/
def count (p : Header → Bool) : IncludeTree → Nat
  | .node h ts => (if p h then 1 else 0) + countAll p ts

/-- How many headers of some trees have a property. -/
def countAll (p : Header → Bool) : List IncludeTree → Nat
  | [] => 0
  | t :: ts => count p t + countAll p ts

end

/-- The sum of a figure over the modules. -/
def total (figure : Module → Nat) : List Module → Nat
  | [] => 0
  | m :: modules => figure m + total figure modules

/-- **The figures of a forest.** -/
def ofForest (f : Forest) : Stats :=
  let modules := f.projects.values.flatMap (·.modules.values)
  { projects := f.projects.size
    modules := modules.length
    headers := total (·.size) modules
    cycles := total (fun m => countAll (·.closesCycle) m.roots) modules
    matched := total (fun m => countAll (·.isMatched) m.roots) modules
    depth := (modules.map fun m => IncludeTree.depthAll m.roots).foldl max 0 }

end Stats

end IncludeForest
