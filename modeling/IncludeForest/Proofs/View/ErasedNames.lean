import IncludeForest.Proofs.Scan.Chains
import IncludeForest.Proofs.View.Folding

/-!
# Headers that are shown by no name

Simplifying drops from every path of a module what all of them begin with. Where one path
is all that the others begin with, nothing is left of it: that of the only header of a
module, that of a header which is included over and over and no other with it, and
`a.h` beside `a.hpp` and `a.hxx`. Such a header is shown by the empty name, as a
line that has only its markers and as an entry of a chain between two arrows.

No other header is (`shownPath_of_finish`). A note announces no header by an empty path
(`Log.path_ne_empty_of_mem_notes`), so a name that is missing has been dropped, and then it
was the prefix of the module (`Header.ShowsBehind.shownPath_eq_empty_iff`).
-/

namespace IncludeForest

open IncludeTree Text Log

/-- What is compared of a path is empty for the empty path only. -/
theorem PathPolicy.normalize_eq_empty_iff {policy : PathPolicy} {path : String} :
    policy.normalize path = "" ↔ path = "" := by
  rw [← String.utf8ByteSize_eq_zero_iff, utf8ByteSize_normalize, String.utf8ByteSize_eq_zero_iff]

/-- **A header is shown by no name where the front that it lacks is its whole path.** -/
theorem Header.ShowsBehind.shownPath_eq_empty_iff {policy : PathPolicy} {front : String}
    {h : Header} (hshows : h.ShowsBehind policy front) :
    h.shownPath = "" ↔ h.comparedPath = front := by
  rw [hshows, String.append_eq_left_iff, PathPolicy.normalize_eq_empty_iff]

/-- **Whether simplifying leaves nothing of a header's path**: every path of the module
begins with it. -/
def Module.Erases (rules : ForestRules) (m : Module) (h : Header) : Prop :=
  rules.simplifyPaths = true ∧
    ∀ path ∈ m.comparedPaths, h.comparedPath.toList <+: path.toList

/-- **What is shown of a header of a finished log**: it has a path, and a name unless its
path is erased. -/
theorem shownPath_of_finish {rules : ForestRules} {filter : Option PathFilter}
    {log : List (List Char)} (haccepted : (scan (.empty rules) filter log).2 = none)
    {tally : Tally} {id : StreamId} {name : String} {m : Module}
    (hm : (finish (scan (.empty rules) filter log).1.forest tally).1.module? id name = some m)
    {p : Place} (hp : p ∈ m.places) :
    p.header.comparedPath ≠ "" ∧ (p.header.shownPath = "" ↔ m.Erases rules p.header) := by
  have hmem : p.header.comparedPath ∈ m.comparedPaths := List.mem_map_of_mem hp
  have hpath : p.header.comparedPath ≠ "" := by
    rw [comparedPaths_of_finish haccepted hm] at hmem
    obtain ⟨note, hnote, hcompared⟩ := List.mem_map.1 hmem
    rw [← hcompared, Ne, PathPolicy.normalize_eq_empty_iff]
    exact path_ne_empty_of_mem_notes hnote
  have hexact : m.PrefixExact rules :=
    (isReachable_finish (Scanner.accounts_scan rules filter haccepted).isReachable tally).prefixExact
      id name m hm
  refine ⟨hpath, (showsBehind_of_finish haccepted hm hp).shownPath_eq_empty_iff.trans ?_⟩
  cases hon : rules.simplifyPaths with
  | true =>
    have hne : m.isEmpty = false := Bool.eq_false_iff.2 fun hempty => by
      rw [Module.places, List.isEmpty_iff.1 hempty] at hp
      exact List.not_mem_nil hp
    exact ((hexact.isLongest hon hne).eq_iff hmem).trans (and_iff_right hon).symm
  | false =>
    rw [hexact.eq_empty hon]
    exact iff_of_false hpath fun herases => Bool.false_ne_true (hon.symm.trans herases.1)

/-- **Headers have names unless they are erased.** In the forest of a log, no path is
empty, and what is shown of one is empty for the erased headers only: those that every path
of their module begins with, if paths are simplified. In the outline, a header's line says
its name, its markers and its count, so a name is missing on the lines of these headers
only; and in the report of cycles, an entry of a chain is what is shown of a header of the
module, so it is empty for them only. -/
theorem names_of_ofLog (rules : ForestRules) (filter : Option PathFilter) (log : List UInt8)
    {f : Forest} {tally : Tally} (h : Forest.ofLog rules filter log = .ok (f, tally)) :
    (∀ id name m, f.module? id name = some m → ∀ p ∈ m.places,
      p.header.comparedPath ≠ "" ∧ (p.header.shownPath = "" ↔ m.Erases rules p.header)) ∧
    (∀ autoExpand,
      View.outline autoExpand f =
        ((View.Entry.ofForest f).filter (·.isVisible autoExpand)).map (·.line autoExpand) ∧
      ∀ p name m q, .header p name m q ∈ View.Entry.ofForest f →
        let e := View.Entry.header p name m q
        View.plainText (e.line autoExpand).segments = q.header.shownPath ++ e.marks ++
          ((e.count? autoExpand).elim "" fun count => " (+" ++ toString count ++ ")") ∧
        (q.header.shownPath = "" ↔ m.Erases rules q.header)) ∧
    ∀ c ∈ Cycle.ofForest f, ∃ id m, f.module? id c.module = some m ∧
      ∃ chain : List Header, c.chain = chain.map (·.shownPath) ∧
        ∀ g ∈ chain, g ∈ m.places.map (·.header) ∧ (g.shownPath = "" ↔ m.Erases rules g) := by
  obtain ⟨haccepted, hfinish⟩ := Forest.ofLog_eq_ok h
  have hshown (id : StreamId) (name : String) (m : Module) (hm : f.module? id name = some m)
      (p : Place) (hp : p ∈ m.places) :
      p.header.comparedPath ≠ "" ∧ (p.header.shownPath = "" ↔ m.Erases rules p.header) :=
    shownPath_of_finish haccepted (hfinish ▸ hm) hp
  refine ⟨hshown, fun autoExpand => ⟨View.outline_eq autoExpand f, fun p name m q hq => ?_⟩,
    fun c hc => ?_⟩
  · obtain ⟨hproject, hmodule, hplace⟩ := View.header_mem_ofForest_iff.1 hq
    obtain ⟨id, hm⟩ := Forest.exists_module? hproject hmodule
    exact ⟨View.Entry.plainText_line autoExpand _, (hshown id name m hm q hplace).2⟩
  · have hreachable : f.IsReachable rules :=
      hfinish ▸ isReachable_finish (Scanner.accounts_scan rules filter haccepted).isReachable _
    rw [Cycle.ofForest_eq hreachable.cyclesExact] at hc
    obtain ⟨s, hs, rfl⟩ := List.mem_map.1 hc
    obtain ⟨m, hm, hp⟩ := Forest.exists_module_of_mem_sites (List.mem_filter.1 hs).1
    refine ⟨s.id, m, hm, s.place.chain, rfl, fun g hg => ?_⟩
    obtain ⟨q, hq, rfl⟩ : ∃ q ∈ m.places, q.header = g := by
      rw [Place.chain, List.mem_reverse, List.mem_cons] at hg
      obtain rfl | hg := hg
      · exact ⟨s.place, hp, rfl⟩
      · exact exists_place_of_mem_above hp hg
    exact ⟨List.mem_map_of_mem hq, (hshown s.id s.module m hm q hq).2⟩

/-- The shorter of two paths is a front of the longer one, and nothing is left of it. -/
theorem names_of_ofLog_front :
    let rules : ForestRules := { policy := .caseInsensitive }
    let log : List UInt8 := ("1> Project: demo\n1> main.cpp\n" ++
      "1> Note: including file: inc/A.h\n1> Note: including file:  inc/a.hpp\n").toUTF8.data.toList
    ∃ f tally m, Forest.ofLog rules none log = .ok (f, tally) ∧
      f.module? 1 "main.cpp" = some m ∧ m.places.map (·.header.shownPath) = ["", "pp"] ∧
      ∀ p ∈ m.places, p.header.comparedPath ≠ "" ∧
        (p.header.shownPath = "" ↔ m.Erases rules p.header) := by
  intro rules log
  let view (f : Forest) := (f.module? 1 "main.cpp").map fun m => m.places.map (·.header.shownPath)
  have hread : (Forest.ofLog rules none log).toOption.map (fun made => view made.1)
      = some (some ["", "pp"]) := by decide +kernel
  obtain ⟨f, tally, hlog, hmodule⟩ := Forest.exists_of_ofLog view hread
  obtain ⟨m, hm, hnames⟩ := Option.map_eq_some_iff.1 hmodule
  obtain ⟨hshown, -, -⟩ := names_of_ofLog rules none log hlog
  exact ⟨f, tally, m, hlog, hm, hnames, hshown 1 "main.cpp" m hm⟩

/-- A header that includes itself and nothing else has no name, neither on the lines of the
outline nor in the chain of its cycle. -/
theorem exists_erased_names :
    let log : List UInt8 := ("1> Project: demo\n1> main.cpp\n" ++
      "1> Note: including file: a.h\n1> Note: including file:  a.h\n").toUTF8.data.toList
    ∃ f tally, Forest.ofLog {} none log = .ok (f, tally) ∧
      (∃ m, f.module? 1 "main.cpp" = some m ∧ ∃ p ∈ m.places, p.header.shownPath = "") ∧
      View.forestText {} f
        = "demo [contains cycle]\n  main.cpp [contains cycle]\n" ++
          "     [contains cycle]\n       [cycle]\n" ∧
      Cycle.ofForest f = [⟨"demo", "main.cpp", ["", ""]⟩] := by
  intro log
  let view (f : Forest) := ((f.module? 1 "main.cpp").map fun m => m.places.map (·.header.shownPath),
    View.forestText {} f, Cycle.ofForest f)
  have hread : (Forest.ofLog {} none log).toOption.map (fun made => view made.1)
      = some (some ["", ""], "demo [contains cycle]\n  main.cpp [contains cycle]\n" ++
          "     [contains cycle]\n       [cycle]\n", [⟨"demo", "main.cpp", ["", ""]⟩]) := by
    decide +kernel
  obtain ⟨f, tally, hlog, hview⟩ := Forest.exists_of_ofLog view hread
  obtain ⟨hmodule, hview⟩ := Prod.mk.inj hview
  obtain ⟨htext, hcycles⟩ := Prod.mk.inj hview
  obtain ⟨m, hm, hnames⟩ := Option.map_eq_some_iff.1 hmodule
  have hname : "" ∈ m.places.map (·.header.shownPath) := hnames ▸ List.mem_cons_self
  obtain ⟨p, hp, hshown⟩ := List.mem_map.1 hname
  exact ⟨f, tally, hlog, ⟨m, hm, p, hp, hshown⟩, htext, hcycles⟩

end IncludeForest
