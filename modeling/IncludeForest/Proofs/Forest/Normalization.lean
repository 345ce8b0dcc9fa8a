import IncludeForest.Proofs.Forest.Insertion
import IncludeForest.Proofs.Forest.Purging
import IncludeForest.Proofs.Tree.Rewriting

/-!
# Forests of normalised paths

A policy under which paths can differ and still be the same could have been
applied before the forest ever saw a path. Take the notes with their paths
normalised, search for the normalised query, and compare everything as it is
written: this run and the run under the policy go the same way.

Not only do they agree in the end. `Forest.normalized` turns a forest under the
policy into the forest of the other run, after every step: it shows every path
as it is compared, and leaves all else as it is. Each operation can be performed
before this or after (`Forest.perform_normalized`), and its answer is the same.
Paths are cut by a number of bytes, and the hit of a search is a pair of
offsets, so this is also a statement about the policy: it may replace a
character by no other that takes more bytes or fewer.
-/

namespace IncludeForest

open IncludeTree

/-- **The rules for normalised paths**: they compare paths as they are written,
and search for what the given rules search for. -/
def ForestRules.normalized (rules : ForestRules) : ForestRules :=
  { rules with policy := .identity, query := rules.needle }

theorem ForestRules.needle_normalized (rules : ForestRules) :
    rules.normalized.needle = rules.needle :=
  PathPolicy.normalize_identity rules.needle

namespace Module

/-- The module with its headers shown as they are compared. -/
def normalized (policy : PathPolicy) (m : Module) : Module :=
  { m with roots := mapAll (·.normalized policy) m.roots }

variable (m : Module) (rules : ForestRules) (level : Nat) (path : String)

theorem isEmpty_normalized (policy : PathPolicy) : (m.normalized policy).isEmpty = m.isEmpty :=
  isEmpty_mapAll _ m.roots

/-- The header of a normalised note is that of the note, shown as it is
compared. -/
theorem noteHeader_normalized :
    (m.normalized rules.policy).noteHeader rules.normalized level (rules.policy.normalize path)
      = (m.noteHeader rules level path).normalized rules.policy := by
  have hcompared : rules.normalized.policy.normalize (rules.policy.normalize path)
      = rules.policy.normalize path := PathPolicy.normalize_identity _
  have hcloses (compared : String) :
      closesCycle compared level (m.normalized rules.policy).roots
        = closesCycle compared level m.roots :=
    closesCycle_mapAll (f := (·.normalized rules.policy)) (fun _ => rfl) compared level m.roots
  unfold noteHeader
  rw [hcompared, rules.needle_normalized, hcloses]
  rfl

/-- **A note can be inserted before the paths are normalised or after.** -/
theorem insertNote_normalized :
    (m.normalized rules.policy).insertNote rules.normalized level (rules.policy.normalize path)
      = ((m.insertNote rules level path).1.normalized rules.policy,
          (m.insertNote rules level path).2) := by
  have hcompared : rules.normalized.policy.normalize (rules.policy.normalize path)
      = rules.policy.normalize path := PathPolicy.normalize_identity _
  have hheader := m.noteHeader_normalized rules level path
  have hprefix : (m.normalized rules.policy).prefixWith = m.prefixWith := by
    unfold prefixWith
    rw [isEmpty_normalized]
    rfl
  refine Prod.ext ?_ ?_
  · show Module.mk (IncludeTree.insertNote ((m.normalized rules.policy).noteHeader ..) level _)
      (if rules.simplifyPaths then _ else m.commonPrefix) (m.hasCycle || Header.closesCycle
        ((m.normalized rules.policy).noteHeader ..)) = _
    rw [hheader, hprefix, hcompared]
    show _ = Module.mk (mapAll _ (IncludeTree.insertNote (m.noteHeader rules level path) level
      m.roots)) _ _
    rw [mapAll_insertNote fun _ => rfl]
    rfl
  · rw [outcome_insertNote, outcome_insertNote, hheader]
    rfl

/-- The common prefix can be dropped before the paths are normalised or
after. -/
theorem simplify_normalized (policy : PathPolicy) :
    (m.normalized policy).simplify = m.simplify.normalized policy := by
  unfold simplify normalized
  dsimp only
  rw [mapAll_mapAll, mapAll_mapAll]
  simp only [Header.dropFront_normalized]

end Module

namespace Project

/-- The project with its headers shown as they are compared. -/
def normalized (policy : PathPolicy) (p : Project) : Project :=
  { p with modules := p.modules.map (·.normalized policy) }

end Project

namespace Forest

/-- **The forest with its headers shown as they are compared**, under the rules
for normalised paths. -/
def normalized (f : Forest) : Forest :=
  { rules := f.rules.normalized, projects := f.projects.map (·.normalized f.rules.policy) }

/-- **The step with its path normalised**, if it has one. -/
def Step.normalized (policy : PathPolicy) : Step → Step
  | .note id name level path => .note id name level (policy.normalize path)
  | step => step

variable (f : Forest)

theorem get?_projects_normalized (id : StreamId) :
    f.normalized.projects.get? id
      = (f.projects.get? id).map (·.normalized f.rules.policy) :=
  SortedMap.get?_map f.projects _ id

theorem module?_normalized (id : StreamId) (name : String) :
    f.normalized.module? id name = (f.module? id name).map (·.normalized f.rules.policy) := by
  unfold module?
  rw [get?_projects_normalized]
  cases f.projects.get? id with
  | none => rfl
  | some project => exact SortedMap.get?_map project.modules _ name

/-- The forest in which a project has been replaced. -/
theorem normalized_insert (id : StreamId) (project : Project) :
    normalized { f with projects := f.projects.insert id project }
      = { f.normalized with
          projects := f.normalized.projects.insert id (project.normalized f.rules.policy) } := by
  unfold normalized
  rw [SortedMap.map_insert]

/-- The forest in which a module of a project has been replaced. -/
theorem normalized_insert_insert (id : StreamId) (project : Project) (name : String) (m : Module) :
    normalized { f with projects :=
        f.projects.insert id { project with modules := project.modules.insert name m } }
      = { f.normalized with projects :=
          f.normalized.projects.insert id { project.normalized f.rules.policy with
            modules := (project.normalized f.rules.policy).modules.insert name
              (m.normalized f.rules.policy) } } := by
  rw [normalized_insert]
  unfold Project.normalized
  dsimp only
  rw [SortedMap.map_insert]

theorem startProject_normalized (id : StreamId) (name : String) :
    f.normalized.startProject id name = (f.startProject id name).map normalized := by
  unfold startProject SortedMap.contains
  rw [get?_projects_normalized, Option.isSome_map]
  cases (f.projects.get? id).isSome with
  | true => rfl
  | false => exact congrArg Except.ok (f.normalized_insert id { name }).symm

theorem startModule_normalized (id : StreamId) (name : String) :
    f.normalized.startModule id name = (f.startModule id name).map normalized := by
  unfold startModule SortedMap.contains
  rw [get?_projects_normalized]
  cases f.projects.get? id with
  | none => rfl
  | some project =>
    rw [Option.map_some]
    dsimp only
    have hname : (project.normalized f.rules.policy).modules.get? name
        = (project.modules.get? name).map (·.normalized f.rules.policy) :=
      SortedMap.get?_map project.modules _ name
    rw [hname, Option.isSome_map]
    cases (project.modules.get? name).isSome with
    | true => rfl
    | false => exact congrArg Except.ok (f.normalized_insert_insert id project name {}).symm

/-- **A normalised note is accepted if the note is**, and the same comes of
it. -/
theorem insertNote_normalized (id : StreamId) (name : String) (level : Nat) (path : String) :
    f.normalized.insertNote id name level (f.rules.policy.normalize path)
      = (f.insertNote id name level path).map fun inserted =>
          (inserted.1.normalized, inserted.2) := by
  unfold insertNote
  rw [get?_projects_normalized]
  cases f.projects.get? id with
  | none => rfl
  | some project =>
    rw [Option.map_some]
    dsimp only
    have hname : (project.normalized f.rules.policy).modules.get? name
        = (project.modules.get? name).map (·.normalized f.rules.policy) :=
      SortedMap.get?_map project.modules _ name
    rw [hname]
    cases project.modules.get? name with
    | none => rfl
    | some m =>
      have hrules : f.normalized.rules = f.rules.normalized := rfl
      rw [Option.map_some, hrules]
      dsimp only
      rw [m.insertNote_normalized f.rules level path]
      exact congrArg Except.ok (Prod.ext (f.normalized_insert_insert id project name _).symm rfl)

theorem simplify_normalized : f.normalized.simplify = f.simplify.normalized := by
  unfold simplify normalized Project.normalized
  dsimp only
  rw [SortedMap.map_map, SortedMap.map_map]
  simp only [SortedMap.map_map, Module.simplify_normalized]

/-- **A purge removes the same modules and projects**, since it reads no
path. -/
theorem purge_normalized : f.normalized.purge = (f.purge.1.normalized, f.purge.2) :=
  f.purge_mapModules (·.isEmpty_normalized f.rules.policy) f.rules.normalized

/-! ## Runs -/

/-- **A step can be performed before the paths are normalised or after**, and
its answer is the same. -/
theorem perform_normalized (step : Step) :
    f.normalized.perform (step.normalized f.rules.policy)
      = ((f.perform step).1.normalized, (f.perform step).2) := by
  cases step with
  | project id name =>
    show f.normalized.perform (.project id name) = _
    rw [perform, perform, startProject_normalized]
    cases f.startProject id name <;> rfl
  | module id name =>
    show f.normalized.perform (.module id name) = _
    rw [perform, perform, startModule_normalized]
    cases f.startModule id name <;> rfl
  | note id name level path =>
    rw [Step.normalized, perform, perform, insertNote_normalized]
    cases f.insertNote id name level path <;> rfl
  | purge =>
    show f.normalized.perform .purge = _
    rw [perform, perform, purge_normalized]
  | simplify =>
    show f.normalized.perform .simplify = _
    rw [perform, perform, simplify_normalized]

/-- **A run can be performed before the paths are normalised or after**, and
every answer is the same. -/
theorem performAll_normalized (steps : List Step) :
    f.normalized.performAll (steps.map (·.normalized f.rules.policy))
      = ((f.performAll steps).1.normalized, (f.performAll steps).2) := by
  induction steps generalizing f with
  | nil => rfl
  | cons step steps ih =>
    have hrest := ih (f.perform step).1
    rw [rules_perform] at hrest
    rw [List.map_cons, performAll, performAll, perform_normalized]
    dsimp only
    rw [hrest]

end Forest

end IncludeForest
