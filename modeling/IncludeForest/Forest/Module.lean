import IncludeForest.PathPolicy
import IncludeForest.Tree.Insert

/-!
# Modules

A **module** is one source file that was compiled, with the include trees that
its notes describe. Notes are inserted one by one; `Module.insertNote` hangs
the header of each where it belongs and says what came of it.

## Rules

Some things are settled before the first line of a log is read and hold for
every note after it: how paths are compared, what they are searched for, and
whether they are simplified in the end. The **needle** is the text that the
search is for, in the form in which paths are compared, so that a search finds
whatever the policy does not tell apart.

## The common prefix

While paths are to be simplified, a module keeps the longest text that the
compared paths of all its headers begin with. Simplifying then drops as many
bytes from the front of every path that is shown. The compared paths stay as
they are, so nothing that was found out about the headers changes.
-/

namespace IncludeForest

/-- **What a forest consults when a note is inserted.** -/
structure ForestRules where
  /-- Whether paths are simplified in the end. -/
  simplifyPaths : Bool := true
  /-- How paths are compared. -/
  policy : PathPolicy := .identity
  /-- What to search the paths for, as the user put it. -/
  query : String := ""
  deriving DecidableEq, Repr, Inhabited

/-- **What is searched for** in the compared paths; nothing if it is empty. -/
def ForestRules.needle (rules : ForestRules) : String :=
  rules.policy.normalize rules.query

/-- **What came of inserting a note.** -/
structure Insertion where
  /-- Whether the header closes a cycle. -/
  closesCycle : Bool
  /-- Whether the header is matched. -/
  isMatched : Bool
  deriving DecidableEq, Repr

/-- **A source file and what it includes.** -/
structure Module where
  /-- The trees of the headers that the source file includes itself. -/
  roots : List IncludeTree := []
  /-- The longest text that all compared paths begin with, while it is kept. -/
  commonPrefix : String := ""
  /-- Whether some header of the module closes a cycle. -/
  hasCycle : Bool := false
  deriving Repr, Inhabited

namespace Module

open Text

/-- Whether the module has no header. -/
def isEmpty (m : Module) : Bool :=
  m.roots.isEmpty

/-- Whether some header of the module is matched. -/
def hasMatch (m : Module) : Bool :=
  m.roots.any (·.header.onMatchPath)

/-- The headers of the module in the order of the log, each in its place. -/
def places (m : Module) : List IncludeTree.Place :=
  IncludeTree.places m.roots

/-- How many headers the module has. -/
def size (m : Module) : Nat :=
  IncludeTree.sizeAll m.roots

/-- The common prefix when one more compared path has come. -/
def prefixWith (m : Module) (path : String) : String :=
  if m.isEmpty then path
  else String.ofList (Text.commonPrefix m.commonPrefix.toList path.toList)

/-- **The module with one more note**, and what came of it. -/
def insertNote (m : Module) (rules : ForestRules) (level : Nat) (path : String) :
    Module × Insertion :=
  let compared := rules.policy.normalize path
  let leaf :=
    { Header.ofNote path compared rules.needle with
      closesCycle := IncludeTree.closesCycle compared level m.roots }
  let inserted :=
    { roots := IncludeTree.insertNote leaf level m.roots
      commonPrefix := if rules.simplifyPaths then m.prefixWith compared else m.commonPrefix
      hasCycle := m.hasCycle || leaf.closesCycle }
  (inserted, { closesCycle := leaf.closesCycle, isMatched := leaf.isMatched })

/-- **The module with its common prefix dropped** from every path shown. -/
def simplify (m : Module) : Module :=
  let count := byteLength m.commonPrefix.toList
  { m with roots := IncludeTree.mapAll (·.dropFront count) m.roots }

end Module

end IncludeForest
