import IncludeForest.Proofs.Forest.Insertion
import IncludeForest.Proofs.Tree.Marks

/-!
# Cycles are flagged exactly

A header is flagged when it is inserted, and so are those above it, and nothing
is ever computed again. After every run the flags still say what they should: a
header closes a cycle if and only if it repeats a header above it, it contains
one if and only if a header below it closes one, and a module and a project have
one if and only if a header of theirs closes one.

`Module.CyclesExact` is this for one module. It is kept by notes, whatever their
depth (`Module.CyclesExact.insertNote`), and by simplifying, which shortens what
is shown and not what is compared; so it holds of every module there is
(`Forest.IsReachable.cyclesExact`).
-/

namespace IncludeForest

open IncludeTree

namespace Module

/-- **The flags of a module say exactly where its cycles are.** -/
structure CyclesExact (m : Module) : Prop where
  /-- A header closes a cycle if it repeats one above it. -/
  closes : ClosesExactly m.roots
  /-- A header contains a cycle if one below it closes one. -/
  contains : TracksAll (·.closesCycle) (·.containsCycle) m.roots
  /-- The module has a cycle if one of its headers closes one. -/
  hasCycle : m.hasCycle = anyHeader (·.closesCycle) m.roots

/-- A module without headers has no cycle and says so. -/
theorem cyclesExact_empty : CyclesExact {} :=
  ⟨fun _ hp => absurd hp List.not_mem_nil, trivial, rfl⟩

namespace CyclesExact

variable {m : Module}

/-- **A note keeps the flags exact**, whatever its depth. -/
theorem insertNote (h : m.CyclesExact) (rules : ForestRules) (level : Nat) (path : String) :
    (m.insertNote rules level path).1.CyclesExact := by
  constructor
  · rw [roots_insertNote]
    exact closesExactly_insertNote rfl h.closes
  · rw [roots_insertNote]
    exact tracksAll_insertNote (fun _ => rfl) (fun _ => rfl) rfl level m.roots h.contains
  · rw [hasCycle_insertNote, roots_insertNote, h.hasCycle, anyHeader_insertNote fun _ => rfl]

/-- Simplifying keeps the flags exact. -/
theorem simplify (h : m.CyclesExact) : m.simplify.CyclesExact := by
  have hkept (count : Nat) (g : Header) : closing (g.dropFront count) = closing g :=
    Prod.ext (g.comparedPath_dropFront count) (g.closesCycle_dropFront count)
  constructor
  · exact closesExactly_mapAll (hkept _) h.closes
  · exact tracksAll_mapAll (·.closesCycle_dropFront _) (·.containsCycle_dropFront _) m.roots
      h.contains
  · exact h.hasCycle.trans (anyHeader_mapAll (·.closesCycle_dropFront _) m.roots).symm

/-- What a header says of cycles below it, at its place. -/
theorem containsCycle (h : m.CyclesExact) {p : Place} (hp : p ∈ m.places) :
    p.header.containsCycle = anyHeader (·.closesCycle) p.tree.children :=
  (tracksAll_iff [] m.roots).1 h.contains p hp

end CyclesExact

end Module

namespace Forest

/-- The flags of every module say exactly where its cycles are. -/
theorem IsReachable.cyclesExact {rules : ForestRules} {f : Forest} (h : f.IsReachable rules) :
    f.AllModules Module.CyclesExact :=
  h.allModules Module.cyclesExact_empty (fun _ level path hm => hm.insertNote rules level path)
    fun _ hm => hm.simplify

/-- What holds of some module of a project holds of a module that is found. -/
theorem any_modules_eq_true_iff {f : Forest} {id : StreamId} {project : Project}
    (h : f.projects.get? id = some project) (P : Module → Bool) :
    project.modules.values.any P = true ↔
      ∃ name m, f.module? id name = some m ∧ P m = true := by
  have hfound (name : String) : f.module? id name = project.modules.get? name := by
    rw [module?, h, Option.bind_some]
  rw [List.any_eq_true]
  constructor
  · rintro ⟨m, hm, hP⟩
    obtain ⟨name, hname⟩ := project.modules.mem_values_iff.1 hm
    exact ⟨name, m, (hfound name).trans hname, hP⟩
  · rintro ⟨name, m, hm, hP⟩
    exact ⟨m, project.modules.mem_values_iff.2 ⟨name, (hfound name).symm.trans hm⟩, hP⟩

/-- **Cycles are flagged exactly.** After every run, a header closes a cycle if
and only if it is compared as some header above it, and contains one if and only
if some header below it closes one. A module has a cycle if and only if one of
its headers closes one, and a project if and only if one of its modules has one.
What comes of the next note says of cycles what its header, the last one then,
says. -/
theorem cycles_performAll (rules : ForestRules) (steps : List Step) :
    let f := ((empty rules).performAll steps).1
    (∀ id name m, f.module? id name = some m →
      (∀ p ∈ m.places,
        (p.header.closesCycle = true ↔
          ∃ g ∈ p.above, g.comparedPath = p.header.comparedPath) ∧
        (p.header.containsCycle = true ↔
          ∃ q ∈ places p.tree.children, q.header.closesCycle = true)) ∧
      (m.hasCycle = true ↔ ∃ p ∈ m.places, p.header.closesCycle = true)) ∧
    (∀ id project, f.projects.get? id = some project →
      (project.hasCycle = true ↔
        ∃ name m, f.module? id name = some m ∧ m.hasCycle = true)) ∧
    ∀ id name level path f' outcome,
      f.insertNote id name level path = .ok (f', outcome) →
      ∃ m m' p, f.module? id name = some m ∧ f'.module? id name = some m' ∧
        m'.places.map Place.entry = m.places.map Place.entry ++ [p.entry] ∧
        m'.places.getLast? = some p ∧ p.tree.children = [] ∧
        p.header.comparedPath = rules.policy.normalize path ∧
        p.header.closesCycle = outcome.closesCycle := by
  intro f
  have hf : f.IsReachable rules := isReachable_performAll rules steps
  refine ⟨fun id name m hm => ⟨fun p hp => ⟨?_, ?_⟩, ?_⟩, fun id project hproject => ?_, ?_⟩
  · rw [(hf.cyclesExact id name m hm).closes p hp]
    exact Place.repeats_eq_true_iff
  · rw [(hf.cyclesExact id name m hm).containsCycle hp]
    exact anyHeader_eq_true_iff
  · rw [(hf.cyclesExact id name m hm).hasCycle]
    exact anyHeader_eq_true_iff
  · exact any_modules_eq_true_iff hproject (·.hasCycle)
  · intro id name level path f' outcome hinsert
    obtain ⟨m, m', p, hm, hm', hentries, hlast, hleaf, hpath, rfl⟩ :=
      exists_place_of_insertNote hinsert
    rw [hf.rules_eq] at hpath
    exact ⟨m, m', p, hm, hm', hentries, hlast, hleaf, hpath, rfl⟩

/-- A header that repeats the one before it closes a cycle although its note
jumps, and the project knows of it when it has been purged and simplified. The
next note repeats the root. -/
theorem cycles_performAll_repeated :
    let steps : List Step :=
      [.project 1 "demo", .module 1 "main.cpp", .note 1 "main.cpp" 0 "inc/a.h",
        .note 1 "main.cpp" 1 "inc/b.h", .note 1 "main.cpp" 9 "inc/b.h", .purge, .simplify]
    let f := ((empty {}).performAll steps).1
    (∃ m project p g, f.module? 1 "main.cpp" = some m ∧ f.projects.get? 1 = some project ∧
      project.hasCycle = true ∧ p ∈ m.places ∧ g ∈ p.above ∧
      g.comparedPath = p.header.comparedPath) ∧
    ∃ f' m' p, f.insertNote 1 "main.cpp" 1 "inc/a.h" = .ok (f', ⟨true, false⟩) ∧
      f'.module? 1 "main.cpp" = some m' ∧ m'.places.getLast? = some p ∧
      p.header.closesCycle = true := by
  intro steps f
  obtain ⟨hmodules, hprojects, hnotes⟩ := cycles_performAll {} steps
  have hcycle : (f.projects.get? 1).map (·.hasCycle) = some true := by decide
  obtain ⟨project, hproject, hhas⟩ := Option.map_eq_some_iff.1 hcycle
  have hmodule : (f.module? 1 "main.cpp").map (·.hasCycle) = some true := by decide
  obtain ⟨m, hm, hm'⟩ := Option.map_eq_some_iff.1 hmodule
  obtain ⟨hplaces, hexact⟩ := hmodules 1 "main.cpp" m hm
  obtain ⟨p, hp, hcloses⟩ := hexact.1 hm'
  obtain ⟨g, hg, hsame⟩ := (hplaces p hp).1.1 hcloses
  refine ⟨⟨m, project, p, g, hm, hproject, ?_, hp, hg, hsame⟩, ?_⟩
  · exact (hprojects 1 project hproject).2 ⟨"main.cpp", m, hm, hm'⟩
  · have houtcome : (f.insertNote 1 "main.cpp" 1 "inc/a.h").toOption.map (·.2)
        = some ⟨true, false⟩ := by decide
    obtain ⟨f', hinsert⟩ := exists_of_outcome_insertNote houtcome
    obtain ⟨-, m', q, -, hm', -, hlast, -, -, hq⟩ := hnotes 1 "main.cpp" 1 "inc/a.h" f' _ hinsert
    exact ⟨f', m', q, hinsert, hm', hlast, hq⟩

end Forest

end IncludeForest
