import Mathlib.Data.List.Basic
import IncludeForest.Proofs.Forest.Cycles
import IncludeForest.Proofs.Report.Figures
import IncludeForest.Proofs.Text.ByteOrder

/-!
# A report leaves nothing out

A report of cycles turns back wherever it is told that there are none, and nobody
checks what it is told. `Forest.sites` lists all headers of a forest, with the
project, the module and the place of each, and turns back nowhere. The report is
what this list says of those that close a cycle (`Cycle.ofForest_eq`).

The list is in order: by the numbers of the projects, then by the bytes of the names
of the modules (`Forest.pairwise_sites`), and what it has of a module are the headers
of the module in the order of the log (`Forest.filter_sites`).
-/

namespace IncludeForest

open IncludeTree Text

/-- **A header of a forest, and where it stands.** -/
structure Site where
  /-- The number of its project. -/
  id : StreamId
  /-- The name of its project. -/
  project : String
  /-- The name of its module. -/
  module : String
  /-- Its place in the module. -/
  place : Place

namespace Site

/-- Whether the header closes a cycle. -/
def closesCycle (s : Site) : Bool :=
  s.place.header.closesCycle

/-- **What is to be reported of the header**, if it closes a cycle. -/
def report (s : Site) : Cycle :=
  ⟨s.project, s.module, s.place.chain.map (·.shownPath)⟩

/-- **Whether a header may come before another**: its project has the lesser number,
or it is the same and its module has the lesser name, by the bytes, or the same. -/
def Precedes (s t : Site) : Prop :=
  s.id < t.id ∨ s.id = t.id ∧
    (s.module.toUTF8.data.toList < t.module.toUTF8.data.toList ∨ s.module = t.module)

end Site

namespace SortedMap

variable {κ α β : Type} [Ord κ] [Std.TransOrd κ] [Std.LawfulEqOrd κ]

/-- What is listed for one key only is what the key finds. -/
theorem flatMap_toList_of_ne (m : SortedMap κ α) {k : κ} {f : κ × α → List β}
    (h : ∀ e ∈ m.toList, e.1 ≠ k → f e = []) :
    m.toList.flatMap f = ((m.get? k).map fun a => f (k, a)).getD [] := by
  cases hfound : m.get? k with
  | none =>
    refine List.flatMap_eq_nil_iff.2 fun e he => h e he ?_
    rintro rfl
    rw [m.get?_eq_some_iff.2 he] at hfound
    cases hfound
  | some a =>
    obtain ⟨before, behind, hentries⟩ := List.append_of_mem (m.get?_eq_some_iff.1 hfound)
    have hsorted := m.sorted
    rw [hentries, List.pairwise_append, List.pairwise_cons] at hsorted
    obtain ⟨-, ⟨hbehind, -⟩, hbefore⟩ := hsorted
    -- Sorted entries have the key once.
    have hne {e : κ × α} (hlt : compare e.1 k = .lt ∨ compare k e.1 = .lt) : e.1 ≠ k := by
      rintro rfl
      simp [Std.ReflCmp.compare_self] at hlt
    have hnone {part : List (κ × α)} (hpart : ∀ e ∈ part, e ∈ m.toList ∧ e.1 ≠ k) :
        part.flatMap f = [] :=
      List.flatMap_eq_nil_iff.2 fun e he => h e (hpart e he).1 (hpart e he).2
    rw [hentries, List.flatMap_append, List.flatMap_cons,
      hnone fun e he => ⟨hentries ▸ List.mem_append_left _ he,
        hne (.inl (hbefore e he _ List.mem_cons_self))⟩,
      hnone fun e he => ⟨hentries ▸ List.mem_append_right _ (List.mem_cons_of_mem _ he),
        hne (.inr (hbehind e he))⟩]
    exact List.append_nil _

end SortedMap

namespace Cycle

/-- **The cycles of a module** are those of its headers that close one. -/
theorem ofModule_eq {m : Module} (h : m.CyclesExact) (project name : String) :
    ofModule project name m = (m.places.filter (·.header.closesCycle)).map
      fun p => ⟨project, name, p.chain.map (·.shownPath)⟩ := by
  have hchains : _ = ((m.places.filter (·.header.closesCycle)).map _) :=
    chainsBelowAll_eq [] m.roots h.contains
  unfold ofModule
  split
  · rw [← List.map_nil, hchains, List.map_map]
    rfl
  · next hcycle =>
    rw [Bool.not_eq_true, h.hasCycle] at hcycle
    have hnone : m.places.filter (·.header.closesCycle) = [] := by
      rw [List.filter_eq_nil_iff, ← List.any_eq_false]
      exact hcycle
    rw [hnone, List.map_nil]

end Cycle

namespace Forest

variable {f : Forest}

/-- **All headers of a forest**, one after the other. -/
def sites (f : Forest) : List Site :=
  f.projects.toList.flatMap fun (id, project) =>
    project.modules.toList.flatMap fun (name, m) =>
      m.places.map fun p => ⟨id, project.name, name, p⟩

/-- The entries of a project are its modules. -/
theorem module?_of_mem {id : StreamId} {project : Project} {name : String} {m : Module}
    (hproject : (id, project) ∈ f.projects.toList) (hm : (name, m) ∈ project.modules.toList) :
    f.module? id name = some m := by
  rw [module?, f.projects.get?_eq_some_iff.2 hproject, Option.bind_some,
    project.modules.get?_eq_some_iff.2 hm]

end Forest

/-- **A report of cycles leaves nothing out** and adds nothing, where the flags are
exact. -/
theorem Cycle.ofForest_eq {f : Forest} (h : f.AllModules Module.CyclesExact) :
    Cycle.ofForest f = (f.sites.filter (·.closesCycle)).map (·.report) := by
  unfold Cycle.ofForest Forest.sites SortedMap.values
  rw [List.flatMap_map, List.filter_flatMap, List.map_flatMap]
  refine List.flatMap_congr fun (id, project) hproject => ?_
  dsimp only
  rw [List.filter_flatMap, List.map_flatMap]
  refine List.flatMap_congr fun (name, m) hm => ?_
  dsimp only
  rw [Cycle.ofModule_eq (h id name m (Forest.module?_of_mem hproject hm)), List.filter_map,
    List.map_map]
  rfl

namespace Forest

/-- **The headers come in order.** -/
theorem pairwise_sites (f : Forest) : f.sites.Pairwise Site.Precedes := by
  unfold sites
  refine List.pairwise_flatMap.2 ⟨fun (id, project) _ => ?_, f.projects.sorted.imp ?_⟩
  · refine List.pairwise_flatMap.2 ⟨fun (name, m) _ => ?_, project.modules.sorted.imp ?_⟩
    · exact List.pairwise_map.2 (List.pairwise_of_forall fun p q => .inr ⟨rfl, .inr rfl⟩)
    · intro e e' hlt s hs t ht
      obtain ⟨p, -, rfl⟩ := List.mem_map.1 hs
      obtain ⟨q, -, rfl⟩ := List.mem_map.1 ht
      exact .inr ⟨rfl, .inl (toUTF8_lt_of_compare hlt)⟩
  · intro e e' hlt s hs t ht
    obtain ⟨_, -, hs⟩ := List.mem_flatMap.1 hs
    obtain ⟨_, -, ht⟩ := List.mem_flatMap.1 ht
    obtain ⟨p, -, rfl⟩ := List.mem_map.1 hs
    obtain ⟨q, -, rfl⟩ := List.mem_map.1 ht
    exact .inl (compareOfLessAndEq_eq_lt.1 hlt)

/-- A header stands in a project that is there. -/
theorem exists_project_of_mem_sites {f : Forest} {s : Site} (hs : s ∈ f.sites) :
    ∃ project, f.projects.get? s.id = some project ∧ project.name = s.project := by
  obtain ⟨⟨id, project⟩, hproject, hs⟩ := List.mem_flatMap.1 hs
  obtain ⟨_, -, hs⟩ := List.mem_flatMap.1 hs
  obtain ⟨p, -, rfl⟩ := List.mem_map.1 hs
  exact ⟨project, f.projects.get?_eq_some_iff.2 hproject, rfl⟩

/-- A header stands in a module that is there. -/
theorem exists_module_of_mem_sites {f : Forest} {s : Site} (hs : s ∈ f.sites) :
    ∃ m, f.module? s.id s.module = some m ∧ s.place ∈ m.places := by
  obtain ⟨⟨id, project⟩, hproject, hs⟩ := List.mem_flatMap.1 hs
  obtain ⟨⟨name, m⟩, hm, hs⟩ := List.mem_flatMap.1 hs
  obtain ⟨p, hp, rfl⟩ := List.mem_map.1 hs
  exact ⟨m, module?_of_mem hproject hm, hp⟩

/-- **Of every module there are all headers**, in the order of the log. -/
theorem filter_sites (f : Forest) (id : StreamId) (name : String) :
    (f.sites.filter fun s => s.id = id ∧ s.module = name).map (·.place)
      = ((f.module? id name).map (·.places)).getD [] := by
  unfold sites
  rw [List.filter_flatMap, List.map_flatMap]
  refine (f.projects.flatMap_toList_of_ne (k := id) fun e _ hid => ?_).trans ?_
  · dsimp only
    rw [List.filter_flatMap, List.map_flatMap, List.flatMap_eq_nil_iff]
    intro entry _
    rw [List.filter_map, List.filter_eq_nil_iff.2 fun p _ => by simp [hid]]
    rfl
  · cases hproject : f.projects.get? id with
    | none => rw [module?, hproject]; rfl
    | some project =>
      rw [module?, hproject, Option.bind_some, Option.map_some, Option.getD_some]
      dsimp only
      rw [List.filter_flatMap, List.map_flatMap]
      refine (project.modules.flatMap_toList_of_ne (k := name) fun entry _ hname => ?_).trans ?_
      · rw [List.filter_map, List.filter_eq_nil_iff.2 fun p _ => by simp [hname]]
        rfl
      · refine congrArg (Option.getD · []) (congrArg (Option.map · _) (funext fun m => ?_))
        rw [List.filter_map, List.filter_eq_self.2 fun p _ => by simp, List.map_map]
        exact List.map_id _

end Forest

end IncludeForest
