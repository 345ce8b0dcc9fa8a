import IncludeForest.Proofs.Forest.Run

/-!
# Purging in one step

A purge goes through the forest twice: it takes the empty modules out of every project,
and then the projects that are left without any. A project is left without any just if
it had no other, so which projects go can be said before anything is taken out, and a
purge is one selection of projects with every one of them **cleared** (`purge_eq`).

From this it follows that a purge leaves itself nothing to do (`purge_purge`), and that
it does not matter whether modules are changed before a purge or after it, as long as
the change makes none empty and fills none (`purge_mapModules`).
-/

namespace IncludeForest

namespace Project

variable (p : Project)

/-- **The project without the modules that have no header.** -/
def cleared : Project :=
  { p with modules := p.modules.filter (!·.isEmpty) }

/-- A project is left without modules if all of them were empty. -/
theorem isEmpty_modules_cleared : p.cleared.modules.isEmpty = p.isEmpty := by
  rw [Bool.eq_iff_iff, SortedMap.isEmpty, List.isEmpty_iff, isEmpty, SortedMap.values,
    List.all_map, List.all_eq_true]
  refine List.filter_eq_nil_iff.trans (forall₂_congr fun e _ => ?_)
  rw [Bool.not_eq_true', Bool.not_eq_false, Function.comp_apply]

/-- A project is cleared once and for all. -/
theorem cleared_cleared : p.cleared.cleared = p.cleared := by
  have hmodules : p.cleared.cleared.modules = p.cleared.modules :=
    SortedMap.ext (List.filter_filter.trans (List.filter_congr fun e _ => Bool.and_self _))
  exact congrArg (Project.mk p.name) hmodules

theorem isEmpty_cleared : p.cleared.isEmpty = p.isEmpty := by
  rw [← isEmpty_modules_cleared, cleared_cleared, isEmpty_modules_cleared]

/-- The project with each of its modules changed. -/
def mapModules (change : Module → Module) : Project :=
  { p with modules := p.modules.map change }

section

variable {change : Module → Module} (hchange : ∀ m, (change m).isEmpty = m.isEmpty)

include hchange

/-- Modules can be changed before a project is cleared or after, if they stay empty or
not. -/
theorem cleared_mapModules : (p.mapModules change).cleared = p.cleared.mapModules change := by
  unfold cleared mapModules
  dsimp only
  rw [SortedMap.filter_map]
  simp only [hchange]

theorem isEmpty_mapModules : (p.mapModules change).isEmpty = p.isEmpty := by
  rw [← isEmpty_modules_cleared, p.cleared_mapModules hchange, ← isEmpty_modules_cleared]
  exact SortedMap.isEmpty_map p.cleared.modules change

end

end Project

namespace Forest

variable (f : Forest)

/-- **A purge keeps the projects that are not empty, and clears them.** The modules that
are counted are those that are missing when all projects have been cleared. -/
theorem purge_eq :
    f.purge =
      ({ f with projects := (f.projects.filter (!·.isEmpty)).map Project.cleared },
        { modules := countModules f.projects.values
            - countModules (f.projects.map Project.cleared).values
          projects := f.projects.size - (f.projects.filter (!·.isEmpty)).size }) := by
  have hkept : (f.projects.map Project.cleared).filter (!·.modules.isEmpty)
      = (f.projects.filter (!·.isEmpty)).map Project.cleared := by
    rw [SortedMap.filter_map]
    simp only [Project.isEmpty_modules_cleared]
  show (({ f with projects := (f.projects.map Project.cleared).filter (!·.modules.isEmpty) },
    Purged.mk _ (f.projects.size - SortedMap.size
      ((f.projects.map Project.cleared).filter (!·.modules.isEmpty)))) : Forest × Purged) = _
  rw [hkept, SortedMap.size_map]
  rfl

/-- **What a number finds after a purge**: its project, cleared, if that is not empty. -/
theorem get?_purge (id : StreamId) :
    f.purge.1.projects.get? id
      = ((f.projects.get? id).filter (!·.isEmpty)).map Project.cleared := by
  rw [purge_eq]
  dsimp only
  rw [SortedMap.get?_map, SortedMap.get?_filter]

/-- **A purge leaves itself nothing to do.** -/
theorem purge_purge : f.purge.1.purge = (f.purge.1, ⟨0, 0⟩) := by
  have hkept : f.purge.1.projects.filter (!·.isEmpty) = f.purge.1.projects := by
    rw [purge_eq]
    dsimp only
    rw [SortedMap.filter_map]
    simp only [Project.isEmpty_cleared]
    refine congrArg (SortedMap.map · _) (SortedMap.ext ?_)
    exact List.filter_filter.trans (List.filter_congr fun e _ => Bool.and_self _)
  have hcleared : f.purge.1.projects.map Project.cleared = f.purge.1.projects := by
    rw [purge_eq]
    dsimp only
    rw [SortedMap.map_map]
    simp only [Project.cleared_cleared]
  rw [f.purge.1.purge_eq, hkept, hcleared, Nat.sub_self, Nat.sub_self]

/-! ## Changing modules -/

theorem countModules_map_mapModules (change : Module → Module) (projects : List Project) :
    countModules (projects.map (·.mapModules change)) = countModules projects := by
  induction projects with
  | nil => rfl
  | cons p ps ih =>
    rw [List.map_cons, countModules, countModules, ih]
    exact congrArg (· + countModules ps) (SortedMap.size_map p.modules change)

/-- **Modules can be changed before a purge or after it**, if they stay empty or not, and
whatever becomes of the rules. As much is removed. -/
theorem purge_mapModules {change : Module → Module}
    (hchange : ∀ m, (change m).isEmpty = m.isEmpty) (rules : ForestRules) :
    purge { rules, projects := f.projects.map (·.mapModules change) }
      = ({ rules, projects := f.purge.1.projects.map (·.mapModules change) }, f.purge.2) := by
  have hkept : (f.projects.map (·.mapModules change)).filter (!·.isEmpty)
      = (f.projects.filter (!·.isEmpty)).map (·.mapModules change) := by
    rw [SortedMap.filter_map]
    simp only [Project.isEmpty_mapModules _ hchange]
  have hcleared (projects : SortedMap StreamId Project) :
      (projects.map (·.mapModules change)).map Project.cleared
        = (projects.map Project.cleared).map (·.mapModules change) := by
    rw [SortedMap.map_map, SortedMap.map_map]
    simp only [Project.cleared_mapModules _ hchange]
  rw [purge_eq, purge_eq]
  dsimp only
  rw [hkept, hcleared, hcleared, SortedMap.values_map, SortedMap.values_map,
    countModules_map_mapModules, countModules_map_mapModules, SortedMap.size_map,
    SortedMap.size_map]

end Forest

end IncludeForest
