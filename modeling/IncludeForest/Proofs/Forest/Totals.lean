import Mathlib.Algebra.GroupWithZero.Nat
import IncludeForest.Proofs.Report.Sites

/-!
# Totals of a forest

A figure of a forest is a figure of its modules added up, and a step changes
one module at most. So there is one question for each operation: by how much it
changes a total. A note changes the total by what it changes in its module; a
project that starts changes none, and a module that starts adds the figure of
an empty module, which for a number of headers is nothing. What a purge takes
away had nothing to add.

The figures that a report gives are such totals (`Forest.stats_eq`,
`Forest.length_cycles`), but for the depth, which is that of the deepest header
(`Forest.depth_stats`).
-/

namespace IncludeForest

open IncludeTree

namespace SortedMap

variable {κ α β : Type} [Ord κ] {figure other : α → Nat}

/-- **The sum of a figure** over the values. -/
def sum (m : SortedMap κ α) (figure : α → Nat) : Nat :=
  (m.toList.map fun e => figure e.2).sum

theorem size_eq_sum (m : SortedMap κ α) : m.size = m.sum fun _ => 1 := by
  unfold size sum
  rw [List.map_const', List.sum_replicate_nat, Nat.mul_one]

theorem sum_values (m : SortedMap κ α) (figure : α → Nat) :
    (m.values.map figure).sum = m.sum figure := by
  unfold values sum
  rw [List.map_map]
  rfl

theorem sum_map (m : SortedMap κ β) (f : β → α) (figure : α → Nat) :
    (m.map f).sum figure = m.sum fun b => figure (f b) := by
  unfold map sum
  rw [List.map_map]
  rfl

theorem sum_of_isEmpty {m : SortedMap κ α} (h : m.isEmpty = true) : m.sum figure = 0 := by
  rw [sum, List.isEmpty_iff.1 h]
  rfl

/-- What adds nothing can be left out. -/
theorem sum_filter (m : SortedMap κ α) {keep : α → Bool}
    (h : ∀ a, keep a = false → figure a = 0) : (m.filter keep).sum figure = m.sum figure := by
  unfold filter sum
  dsimp only
  induction m.toList with
  | nil => rfl
  | cons e entries ih =>
    rw [List.map_cons, List.sum_cons, List.filter_cons, ← ih]
    cases hkeep : keep e.2 with
    | true => rfl
    | false =>
      rw [h e.2 hkeep, Nat.zero_add]
      rfl

theorem sum_le_sum (m : SortedMap κ α) (h : ∀ a, figure a ≤ other a) :
    m.sum figure ≤ m.sum other := by
  unfold sum
  induction m.toList with
  | nil => exact Nat.le_refl 0
  | cons e entries ih =>
    rw [List.map_cons, List.sum_cons, List.map_cons, List.sum_cons]
    exact Nat.add_le_add (h e.2) ih

section

variable [Std.TransOrd κ] [Std.LawfulEqOrd κ]

theorem sum_congr (m : SortedMap κ α) (h : ∀ k a, m.get? k = some a → figure a = other a) :
    m.sum figure = m.sum other := by
  unfold sum
  refine congrArg List.sum (List.map_congr_left fun e he => ?_)
  exact h e.1 e.2 (m.get?_eq_some_iff.2 he)

theorem sum_eq_zero_iff (m : SortedMap κ α) :
    m.sum figure = 0 ↔ ∀ k a, m.get? k = some a → figure a = 0 := by
  unfold sum
  simp only [get?_eq_some_iff, List.sum_eq_zero_iff_forall_eq_nat, List.forall_mem_map]
  exact ⟨fun h k a he => h (k, a) he, fun h e he => h e.1 e.2 he⟩

/-- **An insertion adds a value**, and takes away the one it replaces. -/
theorem sum_insert (m : SortedMap κ α) (k : κ) (a : α) (figure : α → Nat) :
    (m.insert k a).sum figure + (m.get? k).elim 0 figure = m.sum figure + figure a := by
  unfold insert get? sum
  dsimp only
  fun_induction insertEntry k a m.toList with
  | case1 => simp [find?]
  | case2 k' a' rest hlt =>
    simp only [find?, hlt, List.map_cons, List.sum_cons, Option.elim_none]
    omega
  | case3 k' a' rest heq =>
    simp only [find?, heq, List.map_cons, List.sum_cons, Option.elim_some]
    omega
  | case4 k' a' rest hgt ih =>
    simp only [find?, hgt, List.map_cons, List.sum_cons] at ih ⊢
    omega

/-- An insertion is one entry more, if it replaces none. -/
theorem size_insert (m : SortedMap κ α) (k : κ) (a : α) :
    (m.insert k a).size + (m.get? k).isSome.toNat = m.size + 1 := by
  rw [size_eq_sum, size_eq_sum, ← m.sum_insert k a]
  cases m.get? k <;> rfl

end

end SortedMap

namespace Forest

variable {f f' : Forest} {id : StreamId} {name path : String} {level : Nat} {outcome : Insertion}
  {figure : Module → Nat} {mark : Header → Bool}

/-- **The total of a figure** over the modules. -/
def total (f : Forest) (figure : Module → Nat) : Nat :=
  f.projects.sum fun p => p.modules.sum figure

/-- **How many headers bear a mark.** -/
def count (f : Forest) (mark : Header → Bool) : Nat :=
  f.total fun m => Stats.countAll mark m.roots

/-! ## What an operation adds -/

/-- **A module that is put into a project** adds its figure to the total, and
takes away that of the module it replaces. -/
theorem sum_insert_module {project : Project} (h : f.projects.get? id = some project)
    (name : String) (m : Module) (figure : Module → Nat) :
    let added : Project := { project with modules := project.modules.insert name m }
    ((f.projects.insert id added).sum fun p => p.modules.sum figure)
        + (project.modules.get? name).elim 0 figure
      = f.total figure + figure m := by
  intro added
  have hmodules := project.modules.sum_insert name m figure
  have hprojects := f.projects.sum_insert id added fun p => p.modules.sum figure
  rw [h, Option.elim_some] at hprojects
  dsimp only [total, added] at hprojects ⊢
  omega

/-- A project that starts has no module to add. -/
theorem total_startProject (h : f.startProject id name = .ok f') :
    f'.total figure = f.total figure := by
  obtain ⟨hfree, rfl⟩ := startProject_eq_ok.1 h
  have hsum := f.projects.sum_insert id { name } fun p => p.modules.sum figure
  rw [hfree] at hsum
  exact hsum

/-- A project that starts is one more. -/
theorem size_startProject (h : f.startProject id name = .ok f') :
    f'.projects.size = f.projects.size + 1 := by
  obtain ⟨hfree, rfl⟩ := startProject_eq_ok.1 h
  have hsize := f.projects.size_insert id { name }
  rw [hfree] at hsize
  exact hsize

/-- A module that starts is an empty one more. -/
theorem total_startModule (h : f.startModule id name = .ok f') :
    f'.total figure = f.total figure + figure {} := by
  obtain ⟨project, hproject, hfree, rfl⟩ := startModule_eq_ok.1 h
  have hsum := sum_insert_module hproject name {} figure
  rw [hfree] at hsum
  exact hsum

theorem size_startModule (h : f.startModule id name = .ok f') :
    f'.projects.size = f.projects.size := by
  obtain ⟨project, hproject, -, rfl⟩ := startModule_eq_ok.1 h
  have hsize := f.projects.size_insert id
    { project with modules := project.modules.insert name {} }
  rw [hproject] at hsize
  exact Nat.add_right_cancel hsize

/-- A note changes a total by what it changes in its module. -/
theorem total_insertNote (h : f.insertNote id name level path = .ok (f', outcome)) :
    ∃ m, outcome = (m.insertNote f.rules level path).2 ∧ ∀ figure : Module → Nat,
      f'.total figure + figure m = f.total figure + figure (m.insertNote f.rules level path).1 := by
  obtain ⟨project, m, hproject, hm, rfl, rfl⟩ := insertNote_eq_ok.1 h
  refine ⟨m, rfl, fun figure => ?_⟩
  have hsum := sum_insert_module hproject name (m.insertNote f.rules level path).1 figure
  rw [hm] at hsum
  exact hsum

theorem size_insertNote (h : f.insertNote id name level path = .ok (f', outcome)) :
    f'.projects.size = f.projects.size := by
  obtain ⟨project, m, hproject, -, -, rfl⟩ := insertNote_eq_ok.1 h
  have hsize := f.projects.size_insert id
    { project with modules := project.modules.insert name (m.insertNote f.rules level path).1 }
  rw [hproject] at hsize
  exact Nat.add_right_cancel hsize

/-- **A note adds one header**, and what came of it says what marks the header
bears. -/
theorem count_insertNote (h : f.insertNote id name level path = .ok (f', outcome)) :
    ∃ leaf : Header, outcome = ⟨leaf.closesCycle, leaf.isMatched⟩ ∧
      ∀ mark : Header → Bool, (∀ g : Header, mark (g.above leaf) = mark g) →
        f'.count mark = f.count mark + (mark leaf).toNat := by
  obtain ⟨m, rfl, htotal⟩ := total_insertNote h
  refine ⟨m.noteHeader f.rules level path, m.outcome_insertNote f.rules level path, ?_⟩
  intro mark hmark
  have hcount := htotal fun m => Stats.countAll mark m.roots
  rw [m.roots_insertNote, Stats.countAll_insertNote hmark] at hcount
  unfold count
  omega

/-! ## What the end changes -/

/-- Simplifying changes no total that it changes in no module. -/
theorem total_simplify (h : ∀ m : Module, figure m.simplify = figure m) :
    f.simplify.total figure = f.total figure := by
  unfold total simplify
  rw [SortedMap.sum_map]
  refine f.projects.sum_congr fun _ p _ => ?_
  rw [SortedMap.sum_map]
  exact p.modules.sum_congr fun _ m _ => h m

theorem size_simplify (f : Forest) : f.simplify.projects.size = f.projects.size :=
  List.length_map _

/-- **A purge changes no total** to which empty modules add nothing. -/
theorem total_purge (h : ∀ m : Module, m.isEmpty = true → figure m = 0) :
    f.purge.1.total figure = f.total figure := by
  unfold total purge
  dsimp only
  rw [SortedMap.sum_filter, SortedMap.sum_map]
  · refine f.projects.sum_congr fun _ p _ => p.modules.sum_filter fun m hm => ?_
    exact h m (by simpa using hm)
  · intro p hp
    exact SortedMap.sum_of_isEmpty (by simpa using hp)

theorem countModules_values (projects : SortedMap StreamId Project) :
    countModules projects.values = projects.sum (·.modules.size) := by
  rw [← SortedMap.sum_values]
  induction projects.values with
  | nil => rfl
  | cons p ps ih => rw [countModules, List.map_cons, List.sum_cons, ih]

theorem total_one (f : Forest) : f.total (fun _ => 1) = countModules f.projects.values := by
  rw [countModules_values]
  exact f.projects.sum_congr fun _ p _ => p.modules.size_eq_sum.symm

/-- **The modules that a purge counts are those that are missing.** -/
theorem total_one_purge (f : Forest) :
    f.purge.1.total (fun _ => 1) + f.purge.2.modules = f.total fun _ => 1 := by
  rw [total_one, total_one]
  unfold purge
  dsimp only
  rw [countModules_values, countModules_values, countModules_values, SortedMap.sum_filter]
  · refine Nat.add_sub_of_le ?_
    rw [SortedMap.sum_map]
    exact f.projects.sum_le_sum fun p => List.length_filter_le ..
  · intro p hp
    rw [SortedMap.size_eq_sum]
    exact SortedMap.sum_of_isEmpty (by simpa using hp)

/-- **The projects that a purge counts are those that are missing.** -/
theorem size_purge (f : Forest) :
    f.purge.1.projects.size + f.purge.2.projects = f.projects.size := by
  unfold purge
  dsimp only
  refine Nat.add_sub_of_le (Nat.le_trans (List.length_filter_le ..) ?_)
  exact Nat.le_of_eq (List.length_map _)

/-- **No header is counted** where none bears the mark. -/
theorem count_eq_zero_iff : f.count mark = 0 ↔
    ∀ id name m, f.module? id name = some m → ∀ p ∈ m.places, mark p.header = false := by
  have hmodule (m : Module) : Stats.countAll mark m.roots = 0 ↔
      ∀ p ∈ m.places, mark p.header = false := by
    rw [Stats.countAll_eq_zero_iff, anyHeader, List.any_eq_false]
    exact forall₂_congr fun p _ => Iff.of_eq (Bool.not_eq_true _)
  unfold count total
  simp only [SortedMap.sum_eq_zero_iff, hmodule, module?, Option.bind_eq_some_iff]
  constructor
  · rintro h id name m ⟨project, hproject, hm⟩
    exact h id project hproject name m hm
  · rintro h id project hproject name m hm
    exact h id name m ⟨project, hproject, hm⟩

/-! ## What the reports give -/

/-- The modules of a forest, one after another, are summed up in its total. -/
theorem sum_modules (f : Forest) (figure : Module → Nat) :
    ((f.projects.values.flatMap (·.modules.values)).map figure).sum = f.total figure := by
  rw [total, ← SortedMap.sum_values]
  induction f.projects.values with
  | nil => rfl
  | cons p projects ih =>
    rw [List.flatMap_cons, List.map_append, List.sum_append, SortedMap.sum_values, List.map_cons,
      List.sum_cons, ih]

theorem total_modules (f : Forest) (figure : Module → Nat) :
    Stats.total figure (f.projects.values.flatMap (·.modules.values)) = f.total figure := by
  rw [← sum_modules]
  induction f.projects.values.flatMap (·.modules.values) with
  | nil => rfl
  | cons m modules ih => rw [Stats.total, List.map_cons, List.sum_cons, ih]

/-- **The figures of a forest are totals.** -/
theorem stats_eq (f : Forest) :
    Stats.ofForest f =
      { projects := f.projects.size
        modules := f.total fun _ => 1
        headers := f.count fun _ => true
        cycles := f.count (·.closesCycle)
        matched := f.count (·.isMatched)
        depth := (Stats.ofForest f).depth } := by
  have hmodules : (f.projects.values.flatMap (·.modules.values)).length = f.total fun _ => 1 := by
    rw [← sum_modules, List.map_const', List.sum_replicate_nat, Nat.mul_one]
  have hheaders : (fun m : Module => Stats.countAll (fun _ => true) m.roots) = (·.size) :=
    funext fun m => Stats.countAll_true m.roots
  unfold Stats.ofForest count
  dsimp only
  rw [total_modules, total_modules, total_modules, hmodules, hheaders]

/-- **Every header that closes a cycle is reported** once, where the flags are
exact. -/
theorem length_cycles (h : f.AllModules Module.CyclesExact) :
    (Cycle.ofForest f).length = f.count (·.closesCycle) := by
  have hmodule (project name : String) {m : Module} (hm : m.CyclesExact) :
      (Cycle.ofModule project name m).length = Stats.countAll (·.closesCycle) m.roots := by
    rw [Cycle.ofModule_eq hm, List.length_map, ← List.countP_eq_length_filter,
      Stats.countAll_eq_countP []]
    rfl
  unfold Cycle.ofForest count total
  rw [List.length_flatMap, SortedMap.sum_values]
  refine f.projects.sum_congr fun id project hproject => ?_
  rw [List.length_flatMap, SortedMap.sum]
  refine congrArg List.sum (List.map_congr_left fun entry hentry => ?_)
  have hfound : project.modules.get? entry.1 = some entry.2 :=
    project.modules.get?_eq_some_iff.2 hentry
  refine hmodule project.name entry.1 (h id entry.1 entry.2 ?_)
  rw [module?, hproject, Option.bind_some, hfound]

/-- **The headers of a forest**, each in its place. -/
def places (f : Forest) : List Place :=
  f.projects.values.flatMap fun p => p.modules.values.flatMap (·.places)

/-- No header of a forest is deeper than the forest, and one is as deep if there
is any. -/
theorem le_depth_and_exists (f : Forest) :
    (∀ p ∈ f.places, p.level + 1 ≤ (Stats.ofForest f).depth) ∧
      ((Stats.ofForest f).depth = 0 ∨ ∃ p ∈ f.places, p.level + 1 = (Stats.ofForest f).depth) := by
  have hmem {p : Place} : p ∈ f.places ↔
      ∃ m ∈ f.projects.values.flatMap (·.modules.values), p ∈ m.places := by
    simp only [places, List.mem_flatMap]
    exact ⟨fun ⟨project, hproject, m, hm, hp⟩ => ⟨m, ⟨project, hproject, hm⟩, hp⟩,
      fun ⟨m, ⟨project, hproject, hm⟩, hp⟩ => ⟨project, hproject, m, hm, hp⟩⟩
  have hdepth : (Stats.ofForest f).depth = (((f.projects.values.flatMap (·.modules.values)).map
      fun m => depthAll m.roots).max?).getD 0 := by
    unfold Stats.ofForest
    dsimp only
    rw [List.foldl_max, Nat.zero_max]
  simp only [hdepth, hmem]
  cases hmax : ((f.projects.values.flatMap (·.modules.values)).map
      fun m => depthAll m.roots).max? with
  | none =>
    rw [List.max?_eq_none_iff, List.map_eq_nil_iff] at hmax
    rw [hmax]
    exact ⟨fun p ⟨m, hm, _⟩ => absurd hm List.not_mem_nil, .inl rfl⟩
  | some d =>
    obtain ⟨hd, hle⟩ := List.max?_eq_some_iff.1 hmax
    rw [Option.getD_some]
    constructor
    · rintro p ⟨m, hm, hp⟩
      have hlt := level_lt_depthAll m.roots hp
      rw [List.length_nil, Nat.zero_add] at hlt
      exact Nat.le_trans hlt (hle _ (List.mem_map_of_mem hm))
    · obtain ⟨m, hm, rfl⟩ := List.mem_map.1 hd
      refine (exists_level_eq_depthAll [] m.roots).imp_right fun ⟨p, hp, hdeepest⟩ => ?_
      rw [List.length_nil, Nat.zero_add] at hdeepest
      exact ⟨p, ⟨m, hm, hp⟩, hdeepest⟩

/-- **The depth of a forest is that of its deepest header**, counted from 1, and
0 if there is no header. -/
theorem depth_stats (f : Forest) :
    (Stats.ofForest f).depth = ((f.places.map (·.level + 1)).max?).getD 0 := by
  obtain ⟨hle, hdepth⟩ := f.le_depth_and_exists
  cases hmax : (f.places.map (·.level + 1)).max? with
  | none =>
    rw [List.max?_eq_none_iff, List.map_eq_nil_iff] at hmax
    refine hdepth.resolve_right fun ⟨p, hp, _⟩ => ?_
    rw [hmax] at hp
    exact absurd hp List.not_mem_nil
  | some d =>
    obtain ⟨hd, hmost⟩ := List.max?_eq_some_iff.1 hmax
    obtain ⟨p, hp, rfl⟩ := List.mem_map.1 hd
    have hple := hle p hp
    rcases hdepth with hzero | ⟨q, hq, hdeepest⟩
    · omega
    · exact Nat.le_antisymm (hdeepest ▸ hmost _ (List.mem_map_of_mem hq)) hple

end Forest

end IncludeForest
