import IncludeForest.Proofs.Report.Sites
import IncludeForest.Proofs.Scan.Simplification

/-!
# The cycle report of a log

A reader of the report sees a chain of paths and looks for the one that comes twice.
It is there, though not always letter by letter. A header closes a cycle because it
is compared as some header above it, and what is shown of the two can be written
differently, but lacks the same front (`exists_front_of_finish`). So the last path of
the chain, normalised, is one of the others (`exists_repeated_of_closesCycle`).

This needs that the log is finished. When a note is inserted after its module has
been simplified, its whole path is shown, and the header that it repeats may have
lost its front.
-/

namespace IncludeForest

open IncludeTree

variable {policy : PathPolicy}

/-- The paths of a chain are those above the header, and its own. -/
theorem IncludeTree.Place.map_chain {β : Type} (p : Place) (view : Header → β) :
    p.chain.map view = (p.above.map view).reverse ++ [view p.header] := by
  rw [Place.chain, List.map_reverse, List.map_cons, List.reverse_cons]

/-- **The last path of a chain comes twice**, as paths are compared, where all
headers of the module lack one front. -/
theorem exists_repeated_of_closesCycle {m : Module} {front : String} (hexact : m.CyclesExact)
    (hshows : ∀ p ∈ m.places, p.header.ShowsBehind policy front) {p : Place} (hp : p ∈ m.places)
    (hcloses : p.header.closesCycle = true) :
    ∃ path ∈ (p.above.map (·.shownPath)).reverse,
      policy.normalize path = policy.normalize p.header.shownPath := by
  rw [hexact.closes p hp] at hcloses
  obtain ⟨g, hg, hsame⟩ := Place.repeats_eq_true_iff.1 hcloses
  obtain ⟨q, hq, rfl⟩ := exists_place_of_mem_above hp hg
  exact ⟨q.header.shownPath, List.mem_reverse.2 (List.mem_map_of_mem hg),
    (hshows q hq).normalize_eq (hshows p hp) hsame⟩

/-- A log with a forest has been accepted, and the forest is what the last steps
made of it. -/
theorem Forest.ofLog_eq_ok {rules : ForestRules} {filter : Option PathFilter} {log : List UInt8}
    {f : Forest} {tally : Tally} (h : Forest.ofLog rules filter log = .ok (f, tally)) :
    (scan (.empty rules) filter (logLines log)).2 = none ∧
      f = (finish (scan (.empty rules) filter (logLines log)).1.forest
        (scan (.empty rules) filter (logLines log)).1.tally).1 := by
  unfold Forest.ofLog at h
  generalize scan (.empty rules) filter (logLines log) = result at h ⊢
  obtain ⟨s, _ | e⟩ := result
  · exact ⟨rfl, (congrArg Prod.fst (Except.ok.inj h)).symm⟩
  · cases h

/-- A log has a forest where something can be seen of it. -/
theorem Forest.exists_of_ofLog {rules : ForestRules} {filter : Option PathFilter}
    {log : List UInt8} {β : Type} (view : Forest → β) {b : β}
    (h : (Forest.ofLog rules filter log).toOption.map (fun made => view made.1) = some b) :
    ∃ f tally, Forest.ofLog rules filter log = .ok (f, tally) ∧ view f = b := by
  cases hmade : Forest.ofLog rules filter log with
  | error e =>
    rw [hmade] at h
    cases h
  | ok made =>
    rw [hmade] at h
    exact ⟨made.1, made.2, rfl, Option.some.inj h⟩

/-- **The report of cycles is complete, and its chains are cycles.** After every run,
the report has one entry for every header that closes a cycle and no other, in the
order in which all headers come when nothing is left out: by the numbers of the
projects, by the names of the modules, byte by byte, and within a module in the order
of the log. An entry has the names of the project and the module, and what is shown
of the headers from the root down to the one that closes the cycle. In the report of
a log that was accepted, a chain has two paths at least, and the last of them is, as
paths are compared, one of those before it. -/
theorem Cycle.ofForest_exact (rules : ForestRules) :
    (∀ steps,
      let f := ((Forest.empty rules).performAll steps).1
      Cycle.ofForest f = (f.sites.filter (·.place.header.closesCycle)).map
        (fun s => ⟨s.project, s.module, s.place.chain.map (·.shownPath)⟩) ∧
      f.sites.Pairwise Site.Precedes ∧
      (∀ s ∈ f.sites, ∃ project, f.projects.get? s.id = some project ∧
        project.name = s.project) ∧
      ∀ id name, (f.sites.filter fun s => s.id = id ∧ s.module = name).map (·.place)
        = ((f.module? id name).map (·.places)).getD []) ∧
    ∀ filter log f tally, Forest.ofLog rules filter log = .ok (f, tally) →
      ∀ c ∈ Cycle.ofForest f, 2 ≤ c.chain.length ∧
        ∃ front last, c.chain = front ++ [last] ∧
          ∃ path ∈ front, rules.policy.normalize path = rules.policy.normalize last := by
  constructor
  · intro steps f
    have hexact := (Forest.isReachable_performAll rules steps).cyclesExact
    exact ⟨Cycle.ofForest_eq hexact, f.pairwise_sites,
      fun s hs => Forest.exists_project_of_mem_sites hs, f.filter_sites⟩
  · intro filter log f tally hlog c hc
    obtain ⟨haccepted, hfinish⟩ := Forest.ofLog_eq_ok hlog
    have hreachable : f.IsReachable rules :=
      hfinish ▸ isReachable_finish (Scanner.accounts_scan rules filter haccepted).isReachable _
    have hexact := hreachable.cyclesExact
    rw [Cycle.ofForest_eq hexact] at hc
    obtain ⟨s, hs, rfl⟩ := List.mem_map.1 hc
    obtain ⟨hs, hcloses⟩ := List.mem_filter.1 hs
    obtain ⟨m, hm, hp⟩ := Forest.exists_module_of_mem_sites hs
    obtain ⟨front, hshows⟩ := exists_front_of_finish haccepted (hfinish ▸ hm)
    obtain ⟨path, hpath, hsame⟩ :=
      exists_repeated_of_closesCycle (hexact _ _ m hm) hshows hp hcloses
    have hchain : s.report.chain = _ := s.place.map_chain (·.shownPath)
    refine ⟨?_, _, _, hchain, path, hpath, hsame⟩
    have hpos := List.length_pos_of_mem hpath
    rw [hchain, List.length_append, List.length_singleton]
    omega

/-- A header that includes itself by way of another, and is written in two ways: what
is shown of it differs, and is compared alike. -/
theorem Cycle.ofForest_exact_spellings :
    let rules : ForestRules := { policy := .caseInsensitive }
    let log : List UInt8 := ("1> Project: demo\n1> main.cpp\n" ++
      "1> Note: including file: Inc/A.h\n1> Note: including file:  inc/b.h\n" ++
      "1> Note: including file:   INC\\a.H\n").toUTF8.data.toList
    ∃ f tally c, Forest.ofLog rules none log = .ok (f, tally) ∧ c ∈ Cycle.ofForest f ∧
      c.chain = ["A.h", "b.h", "a.H"] ∧ 2 ≤ c.chain.length ∧
      ∃ path ∈ ["A.h", "b.h"], rules.policy.normalize path = rules.policy.normalize "a.H" := by
  intro rules log
  have hreport : (Forest.ofLog rules none log).toOption.map (fun made => Cycle.ofForest made.1)
      = some [⟨"demo", "main.cpp", ["A.h", "b.h", "a.H"]⟩] := by decide +kernel
  obtain ⟨f, tally, hlog, hcycles⟩ := Forest.exists_of_ofLog Cycle.ofForest hreport
  have hmem : (⟨"demo", "main.cpp", ["A.h", "b.h", "a.H"]⟩ : Cycle) ∈ Cycle.ofForest f :=
    hcycles ▸ List.mem_singleton_self _
  obtain ⟨hlength, front, last, hchain, hrepeated⟩ :=
    (Cycle.ofForest_exact rules).2 none log f tally hlog _ hmem
  have hparts : ["A.h", "b.h"] ++ ["a.H"] = front ++ [last] := hchain
  obtain ⟨rfl, hlast⟩ := List.append_inj' hparts rfl
  obtain rfl := List.singleton_inj.1 hlast
  exact ⟨f, tally, _, hlog, hmem, rfl, hlength, hrepeated⟩

end IncludeForest
