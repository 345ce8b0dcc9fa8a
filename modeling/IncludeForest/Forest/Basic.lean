import IncludeForest.Forest.Module
import IncludeForest.Log.Line
import IncludeForest.SortedMap

/-!
# Forests

All that a log describes: **projects** by the number of their stream, modules
by name within a project, and the trees of a module. A **forest** is built by
three steps – a project starts, a module starts, a note is inserted – each of
which can be refused, and finished by two that cannot: `purge` removes what
stayed empty, `simplify` shortens the paths that are shown.

A forest refuses what would make it say something wrong: a second project on
one stream, a second module of one name, and a module or header for which
there is no project or module to go to. None of these can be repaired, and a
refused step leaves the forest as it was.
-/

namespace IncludeForest

/-- **Why a forest refused a step.** -/
inductive ForestError where
  /-- No project has this number. -/
  | unknownProject (id : StreamId)
  /-- The project has no module of this name. The empty name stands for a note
  on a stream that has not started any. -/
  | unknownModule (id : StreamId) (name : String)
  /-- The number of the new project is taken. -/
  | duplicateProject (id : StreamId) (name : String)
  /-- The project has a module of this name. -/
  | duplicateModule (id : StreamId) (name : String)
  deriving DecidableEq, Repr

/-- What the user is told about a refused step. -/
def ForestError.message : ForestError → String
  | unknownProject id => s!"project id {id} does not exist"
  | unknownModule id name =>
    if name.isEmpty then s!"include note for project id {id} before any module was started"
    else s!"module '{name}' does not exist in project id {id}"
  | duplicateProject id name => s!"project id {id} already exists (new project '{name}')"
  | duplicateModule id name => s!"module '{name}' already exists in project id {id}"

/-- **A project of the build.** -/
structure Project where
  /-- The project's name. -/
  name : String
  /-- Its modules by name. -/
  modules : SortedMap String Module := .empty

namespace Project

/-- Whether no module of the project has a header. -/
def isEmpty (p : Project) : Bool :=
  p.modules.values.all (·.isEmpty)

/-- Whether some header of the project closes a cycle. -/
def hasCycle (p : Project) : Bool :=
  p.modules.values.any (·.hasCycle)

/-- Whether some header of the project is matched. -/
def hasMatch (p : Project) : Bool :=
  p.modules.values.any (·.hasMatch)

end Project

/-- **What a log describes.** -/
structure Forest where
  /-- What is consulted when a note is inserted. -/
  rules : ForestRules
  /-- The projects by number. -/
  projects : SortedMap StreamId Project := .empty

namespace Forest

/-- The forest in which nothing has happened. -/
def empty (rules : ForestRules) : Forest :=
  { rules }

/-- The module of a project, if there is one. -/
def module? (f : Forest) (id : StreamId) (name : String) : Option Module :=
  (f.projects.get? id).bind (·.modules.get? name)

/-- **The forest after a project has started**, unless its number is taken. -/
def startProject (f : Forest) (id : StreamId) (name : String) : Except ForestError Forest :=
  if f.projects.contains id then .error (.duplicateProject id name)
  else .ok { f with projects := f.projects.insert id { name } }

/-- **The forest after a module has started** in a project that is there and
has no module of that name. -/
def startModule (f : Forest) (id : StreamId) (name : String) : Except ForestError Forest :=
  match f.projects.get? id with
  | none => .error (.unknownProject id)
  | some project =>
    if project.modules.contains name then .error (.duplicateModule id name)
    else
      let project := { project with modules := project.modules.insert name {} }
      .ok { f with projects := f.projects.insert id project }

/-- **The forest with a note inserted** into a module that is there, and what
came of it. -/
def insertNote (f : Forest) (id : StreamId) (name : String) (level : Nat) (path : String) :
    Except ForestError (Forest × Insertion) :=
  match f.projects.get? id with
  | none => .error (.unknownProject id)
  | some project =>
    match project.modules.get? name with
    | none => .error (.unknownModule id name)
    | some target =>
      let (target, outcome) := target.insertNote f.rules level path
      let project := { project with modules := project.modules.insert name target }
      .ok ({ f with projects := f.projects.insert id project }, outcome)

/-- **The forest with every module's common prefix dropped** from the paths
that are shown. -/
def simplify (f : Forest) : Forest :=
  { f with projects := f.projects.map fun p => { p with modules := p.modules.map (·.simplify) } }

/-- **How much was removed** for being empty. -/
structure Purged where
  /-- Modules without headers. -/
  modules : Nat
  /-- Projects without modules. -/
  projects : Nat
  deriving DecidableEq, Repr

/-- How many modules some projects have together. -/
def countModules : List Project → Nat
  | [] => 0
  | p :: ps => p.modules.size + countModules ps

/-- **The forest without the modules that have no header**, then without the
projects that have no module, and how many of each there were. -/
def purge (f : Forest) : Forest × Purged :=
  let cleared := f.projects.map fun p => { p with modules := p.modules.filter (!·.isEmpty) }
  let kept := cleared.filter (!·.modules.isEmpty)
  ({ f with projects := kept },
    { modules := countModules f.projects.values - countModules cleared.values
      projects := f.projects.size - kept.size })

end Forest

end IncludeForest
