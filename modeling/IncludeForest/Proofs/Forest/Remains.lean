import IncludeForest.Proofs.Forest.Prefixes
import IncludeForest.Proofs.Forest.Purging
import IncludeForest.Proofs.Forest.Totals

/-!
# What a purge leaves

A purge takes away what has no header, and nobody who looks at headers can tell whether
it has been done. Whatever is listed of the modules of a forest, one after the other, is
listed as before if an empty module contributes nothing (`Forest.flatMap_purge`), and
whatever is added up as well (`Forest.total_purge`). The report of cycles is such a list,
and so are the headers themselves, of which the deepest gives the depth of the forest.

What is counted are exactly the empty modules, those of the projects that go included,
and the projects with no other modules (`Forest.purged_eq`).
-/

namespace IncludeForest

open IncludeTree

/-- A module is not empty if it has headers. -/
theorem Module.isEmpty_eq_false_iff {m : Module} : m.isEmpty = false ↔ 0 < m.size := by
  rw [isEmpty, size]
  cases m.roots with
  | nil => exact iff_of_false nofun (Nat.lt_irrefl 0)
  | cons t ts =>
    obtain ⟨h, children⟩ := t
    refine iff_of_true rfl ?_
    rw [sizeAll, IncludeTree.size]
    omega

theorem Module.isEmpty_eq_decide (m : Module) : m.isEmpty = decide (m.size = 0) := by
  rw [Bool.eq_iff_iff, decide_eq_true_eq, ← Bool.not_eq_false, isEmpty_eq_false_iff,
    Nat.pos_iff_ne_zero, not_not]

namespace SortedMap

variable {κ α β : Type} [Ord κ] (m : SortedMap κ α)

/-- What lists nothing can be left out. -/
theorem flatMap_filter {keep : α → Bool} {list : κ × α → List β}
    (h : ∀ e, keep e.2 = false → list e = []) :
    (m.filter keep).toList.flatMap list = m.toList.flatMap list := by
  unfold filter
  dsimp only
  induction m.toList with
  | nil => rfl
  | cons e entries ih =>
    rw [List.filter_cons, List.flatMap_cons, ← ih]
    cases hkeep : keep e.2 with
    | true => rfl
    | false =>
      rw [h e hkeep]
      rfl

/-- The entries that are left out are those that are missing. -/
theorem size_filter_add_countP (drop : α → Bool) :
    (m.filter (!drop ·)).size + m.values.countP drop = m.size := by
  unfold size filter values
  dsimp only
  rw [List.countP_map, ← List.countP_eq_length_filter, Nat.add_comm,
    List.length_eq_countP_add_countP (drop ∘ Prod.snd)]
  refine congrArg (_ + ·) (congrArg (List.countP · m.toList) (funext fun e => ?_))
  cases hdrop : drop e.2 <;> simp [hdrop]

end SortedMap

namespace Project

variable {p : Project}

/-- A project that is cleared has the modules with headers. -/
theorem get?_cleared {name : String} {m : Module} :
    p.cleared.modules.get? name = some m ↔ p.modules.get? name = some m ∧ 0 < m.size := by
  show (p.modules.filter _).get? name = some m ↔ _
  rw [SortedMap.get?_filter, Option.filter_eq_some_iff, Bool.not_eq_true',
    Module.isEmpty_eq_false_iff]

/-- A project is not empty if it has a module with headers. -/
theorem isEmpty_eq_false_iff :
    p.isEmpty = false ↔ ∃ name m, p.modules.get? name = some m ∧ 0 < m.size := by
  rw [isEmpty, List.all_eq_false]
  constructor
  · rintro ⟨m, hm, hne⟩
    obtain ⟨name, hname⟩ := p.modules.mem_values_iff.1 hm
    exact ⟨name, m, hname, Module.isEmpty_eq_false_iff.1 (Bool.eq_false_iff.2 hne)⟩
  · rintro ⟨name, m, hname, hpos⟩
    exact ⟨m, p.modules.mem_values_iff.2 ⟨name, hname⟩,
      Bool.eq_false_iff.1 (Module.isEmpty_eq_false_iff.2 hpos)⟩

end Project

namespace Forest

variable (f : Forest)

/-! ## What stays -/

/-- **What a purge keeps** of a project that has a header is its name and the modules with
headers. -/
theorem get?_purge_eq_some_iff {id : StreamId} {q : Project} :
    f.purge.1.projects.get? id = some q ↔
      ∃ p, f.projects.get? id = some p ∧ q.name = p.name ∧
        (∃ name m, p.modules.get? name = some m ∧ 0 < m.size) ∧
        ∀ name m, q.modules.get? name = some m ↔
          p.modules.get? name = some m ∧ 0 < m.size := by
  rw [get?_purge, Option.map_eq_some_iff]
  constructor
  · rintro ⟨p, hp, rfl⟩
    obtain ⟨hfound, hne⟩ := Option.filter_eq_some_iff.1 hp
    rw [Bool.not_eq_true'] at hne
    exact ⟨p, hfound, rfl, Project.isEmpty_eq_false_iff.1 hne, fun _ _ => Project.get?_cleared⟩
  · rintro ⟨p, hfound, hname, hne, hmodules⟩
    have hkept : (!p.isEmpty) = true := by
      rw [Project.isEmpty_eq_false_iff.2 hne]
      rfl
    refine ⟨p, Option.filter_eq_some_iff.2 ⟨hfound, hkept⟩, ?_⟩
    obtain ⟨name, modules⟩ := q
    obtain rfl : name = p.name := hname
    refine congrArg (Project.mk p.name) (SortedMap.ext_get? fun n => Option.ext fun m => ?_)
    rw [hmodules]
    exact Project.get?_cleared

/-- **What lists something of every module, and nothing of an empty one, lists the same
after a purge.** -/
theorem flatMap_purge {β : Type} (list : StreamId → String → String × Module → List β)
    (h : ∀ id project e, e.2.isEmpty = true → list id project e = []) :
    (f.purge.1.projects.toList.flatMap fun (id, p) => p.modules.toList.flatMap (list id p.name))
      = f.projects.toList.flatMap fun (id, p) => p.modules.toList.flatMap (list id p.name) := by
  have hempty (id : StreamId) (p : Project) (hp : p.isEmpty = true) :
      p.modules.toList.flatMap (list id p.name) = [] := by
    rw [Project.isEmpty, SortedMap.values, List.all_map, List.all_eq_true] at hp
    exact List.flatMap_eq_nil_iff.2 fun e he => h id p.name e (hp e he)
  have hcleared (id : StreamId) (p : Project) :
      p.cleared.modules.toList.flatMap (list id p.name) = p.modules.toList.flatMap (list id p.name) :=
    p.modules.flatMap_filter fun e he => h id p.name e (by simpa using he)
  rw [purge_eq]
  unfold SortedMap.map
  rw [List.flatMap_map]
  refine Eq.trans (List.flatMap_congr fun e _ => hcleared e.1 e.2) ?_
  exact f.projects.flatMap_filter fun e he => hempty e.1 e.2 (by simpa using he)

/-- No header goes. -/
theorem places_purge : f.purge.1.places = f.places := by
  have hplaces (g : Forest) : g.places = g.projects.toList.flatMap fun (_, p) =>
      p.modules.toList.flatMap fun e => e.2.places := by
    unfold places SortedMap.values
    rw [List.flatMap_map]
    exact List.flatMap_congr fun e _ => List.flatMap_map _ _ _
  rw [hplaces, hplaces]
  refine f.flatMap_purge (fun _ _ e => e.2.places) fun _ _ e he => ?_
  rw [Module.places, List.isEmpty_iff.1 he]
  rfl

/-- **The report of cycles is the same.** -/
theorem cycles_purge : Cycle.ofForest f.purge.1 = Cycle.ofForest f := by
  have hcycles (g : Forest) : Cycle.ofForest g = g.projects.toList.flatMap fun (_, p) =>
      p.modules.toList.flatMap fun e => Cycle.ofModule p.name e.1 e.2 := by
    unfold Cycle.ofForest SortedMap.values
    exact List.flatMap_map _ _ _
  rw [hcycles, hcycles]
  refine f.flatMap_purge (fun _ p e => Cycle.ofModule p e.1 e.2) fun _ p e he => ?_
  rw [Cycle.ofModule, List.isEmpty_iff.1 he]
  exact ite_self []

/-- **The figures are the same**, but for how many modules and projects there are. -/
theorem stats_purge :
    Stats.ofForest f =
      { Stats.ofForest f.purge.1 with
        projects := (Stats.ofForest f.purge.1).projects + f.purge.2.projects
        modules := (Stats.ofForest f.purge.1).modules + f.purge.2.modules } := by
  have hcount (mark : Header → Bool) : f.purge.1.count mark = f.count mark :=
    total_purge fun m hm => by rw [List.isEmpty_iff.1 hm, Stats.countAll]
  have hdepth : (Stats.ofForest f.purge.1).depth = (Stats.ofForest f).depth := by
    rw [depth_stats, depth_stats, places_purge]
  rw [f.purge.1.stats_eq, f.stats_eq, hdepth, hcount, hcount, hcount, f.size_purge,
    f.total_one_purge]

/-! ## What goes -/

theorem countModules_cleared (projects : List Project) :
    countModules (projects.map Project.cleared)
        + (projects.flatMap (·.modules.values)).countP (·.isEmpty)
      = countModules projects := by
  induction projects with
  | nil => rfl
  | cons p ps ih =>
    have hsize : p.cleared.modules.size + p.modules.values.countP (·.isEmpty) = p.modules.size :=
      p.modules.size_filter_add_countP (·.isEmpty)
    rw [List.map_cons, List.flatMap_cons, List.countP_append, countModules, countModules]
    omega

/-- **What a purge counts** are the modules that have no header, and the projects that
have no other modules. -/
theorem purged_eq :
    f.purge.2 =
      { modules := (f.projects.values.flatMap (·.modules.values)).countP (·.isEmpty)
        projects := f.projects.values.countP (·.isEmpty) } := by
  have hmodules := countModules_cleared f.projects.values
  have hprojects := f.projects.size_filter_add_countP (·.isEmpty)
  rw [purge_eq, SortedMap.values_map, ← hmodules, ← hprojects, Nat.add_sub_cancel_left,
    Nat.add_sub_cancel_left]

/-- **A purge removes what is empty, and nothing can be told of it afterwards** but that
there are fewer modules and projects. After it there are exactly the modules that have a
header and the projects that have such a module, with their names and with all that is in
them. It counts what it removes, a module of a project that goes as well as any other. A
second purge has nothing to do. The report of cycles and the figures that are about
headers are as before, and it does not matter whether paths are simplified before the
purge or after. -/
theorem purge_exact (f : Forest) :
    let g := f.purge.1
    let removed := f.purge.2
    g.rules = f.rules ∧
      (∀ id q, g.projects.get? id = some q ↔
        ∃ p, f.projects.get? id = some p ∧ q.name = p.name ∧
          (∃ name m, p.modules.get? name = some m ∧ 0 < m.size) ∧
          ∀ name m, q.modules.get? name = some m ↔
            p.modules.get? name = some m ∧ 0 < m.size) ∧
      removed.modules = (f.projects.values.flatMap (·.modules.values)).countP (·.size = 0) ∧
      removed.projects
        = f.projects.values.countP (fun p => p.modules.values.all (·.size = 0)) ∧
      g.purge = (g, ⟨0, 0⟩) ∧
      Cycle.ofForest g = Cycle.ofForest f ∧
      Stats.ofForest f =
        { Stats.ofForest g with
          projects := (Stats.ofForest g).projects + removed.projects
          modules := (Stats.ofForest g).modules + removed.modules } ∧
      f.simplify.purge = (g.simplify, removed) := by
  intro g removed
  refine ⟨rfl, fun id q => f.get?_purge_eq_some_iff, ?_, ?_, f.purge_purge, f.cycles_purge,
    f.stats_purge, ?_⟩
  · simp only [removed, f.purged_eq, Module.isEmpty_eq_decide]
  · simp only [removed, f.purged_eq, Project.isEmpty, Module.isEmpty_eq_decide]
  · exact f.purge_mapModules Module.isEmpty_simplify f.rules

end Forest

end IncludeForest
