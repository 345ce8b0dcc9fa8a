import Mathlib.Data.List.Forall2
import IncludeForest.Proofs.Forest.Prefixes
import IncludeForest.Proofs.Scan.Accounting
import IncludeForest.Proofs.Scan.Tracing

/-!
# The paths of a finished log

While a log is read, every header is shown as its note wrote it. A module is then
its notes in the order of the log, path by path (`Module.IsAsWritten`), and a
scanner keeps this up with every line that it accepts
(`Scanner.IsAsWritten.of_reads`). It is not the invariant of `Forest.Records`, which
says nothing of what is shown and so outlasts a simplification.

When the log is at an end, the paths are simplified, and each of them loses the
prefix of its module. Nothing has been dropped before, so the prefix, which is
about what is compared, is also about what is shown.
-/

namespace IncludeForest

open IncludeTree Text Log

/-! ## Headers as they were written -/

namespace Module

variable {policy : PathPolicy} {paths : List String} {m : Module}

/-- **Whether a module shows some paths as they were written**, one header for each
of them. -/
def IsAsWritten (policy : PathPolicy) (paths : List String) (m : Module) : Prop :=
  m.places.map (fun p => (p.header.shownPath, p.header.comparedPath))
    = paths.map fun path => (path, policy.normalize path)

theorem isAsWritten_empty (policy : PathPolicy) : IsAsWritten policy [] {} :=
  rfl

/-- The header of a note is shown as its path was written. -/
theorem IsAsWritten.insertNote {rules : ForestRules} (h : m.IsAsWritten rules.policy paths)
    (level : Nat) (path : String) :
    (m.insertNote rules level path).1.IsAsWritten rules.policy (paths ++ [path]) := by
  let view (g : Header) := (g.shownPath, g.comparedPath)
  have hview (g : Header) : view (g.above (m.noteHeader rules level path)) = view g := rfl
  have hseen := congrArg (List.map Prod.snd) (map_level_view_places_insertNote hview level m.roots)
  rw [List.map_append, List.map_map, List.map_map] at hseen
  rw [IsAsWritten, List.map_append, ← h]
  exact hseen

/-- What is shown is what was written. -/
theorem IsAsWritten.map_shownPath (h : m.IsAsWritten policy paths) :
    m.places.map (·.header.shownPath) = paths := by
  have hshown := congrArg (List.map Prod.fst) h
  rw [List.map_map, List.map_map] at hshown
  exact hshown.trans (List.map_id paths)

/-- Nothing of the paths has been dropped. -/
theorem IsAsWritten.showsBehind (h : m.IsAsWritten policy paths) {p : Place} (hp : p ∈ m.places) :
    p.header.ShowsBehind policy "" := by
  have hmem : (p.header.shownPath, p.header.comparedPath)
      ∈ paths.map fun path => (path, policy.normalize path) :=
    h ▸ List.mem_map_of_mem (f := fun p : Place => (p.header.shownPath, p.header.comparedPath)) hp
  obtain ⟨path, -, hpath⟩ := List.mem_map.1 hmem
  obtain ⟨hshown, hcompared⟩ := Prod.mk.inj hpath
  rw [Header.ShowsBehind, String.empty_append, ← hcompared, ← hshown]

end Module

namespace Scanner

variable {filter : Option PathFilter} {log : List (List Char)} {line : List Char}
  {s s' : Scanner}

/-- **A scanner that shows a log as it was written**: every module shows the paths
of its notes. -/
def IsAsWritten (filter : Option PathFilter) (log : List (List Char)) (s : Scanner) : Prop :=
  ∀ id name m, s.forest.module? id name = some m →
    m.IsAsWritten s.forest.rules.policy ((notes filter id name log).map (·.path))

/-- **An accepted line is shown as it was written**, and the lines before it stay
so. -/
theorem IsAsWritten.of_reads (hfollows : s.Follows filter log) (h : s.IsAsWritten filter log)
    (hread : s.Reads line s' none) : s'.IsAsWritten filter (log ++ [line]) := by
  obtain ⟨rfl, htarget, hrecords⟩ := hfollows
  -- All but the announcement of a header leave the notes as they are.
  have hquiet (hno : ∀ id level path, announcement? s.filter line ≠ some (id, .header level path)) :
      s.IsAsWritten s.filter (log ++ [line]) := by
    intro id name m hm
    rw [notes_concat_of_ne (hno id)]
    exact h id name m hm
  cases hread with
  | withoutStream hline => exact hquiet (by simp [hline])
  | idle hline => exact hquiet (by simp [hline])
  | filtered hline => exact hquiet (by simp [hline])
  | project hline hstart =>
    intro i n m hm
    rw [Forest.module?_of_startProject hstart] at hm
    obtain ⟨-, rfl⟩ := Forest.startProject_eq_ok.1 hstart
    exact hquiet (by simp [hline]) i n m hm
  | @module id name forest hline hstart =>
    obtain ⟨hfree, hfound⟩ := Forest.module?_of_startModule hstart
    intro i n m hm
    obtain ⟨_, -, -, rfl⟩ := Forest.startModule_eq_ok.1 hstart
    rw [hfound] at hm
    by_cases hat : i = id ∧ n = name
    · obtain ⟨rfl, rfl⟩ := hat
      rw [if_pos ⟨rfl, rfl⟩] at hm
      cases hm
      have hnone : notes s.filter i n log = [] := List.map_eq_nil_iff.1 (hrecords.absent hfree)
      rw [notes_concat_of_ne (by simp [hline]), hnone]
      exact Module.isAsWritten_empty _
    · rw [if_neg hat] at hm
      exact hquiet (by simp [hline]) i n m hm
  | @header id level path forest outcome hline hinsert =>
    obtain ⟨target, htarget', -, hfound⟩ := Forest.module?_of_insertNote hinsert
    intro i n m hm
    obtain ⟨_, _, -, -, -, rfl⟩ := Forest.insertNote_eq_ok.1 hinsert
    rw [hfound] at hm
    rw [notes_concat_of_eq hline, ← htarget, List.map_append]
    by_cases hat : i = id ∧ n = s.target id
    · obtain ⟨rfl, rfl⟩ := hat
      rw [if_pos ⟨rfl, rfl⟩] at hm ⊢
      cases hm
      exact (h i _ target htarget').insertNote level path
    · rw [if_neg hat] at hm ⊢
      rw [List.map_nil, List.append_nil]
      exact h i n m hm

/-- **A log that has been accepted is shown as it was written.** -/
theorem isAsWritten_scan (rules : ForestRules) (filter : Option PathFilter)
    {log : List (List Char)} (h : (scan (.empty rules) filter log).2 = none) :
    (scan (.empty rules) filter log).1.IsAsWritten filter log :=
  (scan_induction (P := fun log s => s.Follows filter log ∧ s.IsAsWritten filter log)
    ⟨follows_start rules filter, nofun⟩
    (fun h hread => ⟨h.1.of_reads hread, h.2.of_reads h.1 hread⟩) log h).2

/-- **A module of a log that has been accepted**, before the last steps: its prefix is
exact, and nothing has been dropped. -/
theorem prefixExact_and_isAsWritten_scan {rules : ForestRules} {id : StreamId} {name : String}
    {m : Module} (haccepted : (scan (.empty rules) filter log).2 = none)
    (hm : (scan (.empty rules) filter log).1.forest.module? id name = some m) :
    m.PrefixExact rules ∧ m.IsAsWritten rules.policy ((notes filter id name log).map (·.path)) := by
  have hreachable := (accounts_scan rules filter haccepted).isReachable
  have hwritten := isAsWritten_scan rules filter haccepted id name m hm
  rw [hreachable.rules_eq] at hwritten
  exact ⟨hreachable.prefixExact id name m hm, hwritten⟩

end Scanner

/-! ## The last steps -/

/-- **What the last steps make of a module**: it is removed if it is empty, and
simplified if that is asked for. -/
theorem module?_finish (f : Forest) (tally : Tally) (id : StreamId) (name : String) :
    (finish f tally).1.module? id name
      = ((f.module? id name).filter (!·.isEmpty)).map fun m =>
          if f.rules.simplifyPaths then m.simplify else m := by
  have hrules : f.purge.1.rules = f.rules := rfl
  unfold finish
  dsimp only
  rw [hrules, ← Forest.module?_purge]
  cases f.rules.simplifyPaths with
  | true =>
    rw [if_pos rfl, Forest.module?_simplify]
    rfl
  | false =>
    rw [if_neg Bool.false_ne_true]
    exact Option.map_id'.symm

section

variable {rules : ForestRules} {filter : Option PathFilter} {log : List (List Char)}
  {tally : Tally} {id : StreamId} {name : String} {m : Module}

/-- **In a module of a finished log all headers lack the prefix of the module**, and nothing
more. Where paths are not simplified, there is none. -/
theorem showsBehind_of_finish (haccepted : (scan (.empty rules) filter log).2 = none)
    (hm : (finish (scan (.empty rules) filter log).1.forest tally).1.module? id name = some m)
    {p : Place} (hp : p ∈ m.places) : p.header.ShowsBehind rules.policy m.commonPrefix := by
  rw [module?_finish, (Scanner.accounts_scan rules filter haccepted).isReachable.rules_eq] at hm
  obtain ⟨before, hbefore, rfl⟩ := Option.map_eq_some_iff.1 hm
  obtain ⟨hexact, hwritten⟩ := Scanner.prefixExact_and_isAsWritten_scan haccepted
    (Option.filter_eq_some_iff.1 hbefore).1
  have hshows := fun p hp => hwritten.showsBehind (p := p) hp
  by_cases hon : rules.simplifyPaths = true
  · rw [if_pos hon, before.places_simplify] at hp
    obtain ⟨q, hq, rfl⟩ := List.mem_map.1 hp
    rw [if_pos hon, Place.header_map]
    exact (before.isShortened_simplify hexact hon hshows hq).showsBehind (hshows q hq)
  · rw [if_neg hon] at hp ⊢
    rw [hexact.eq_empty (Bool.eq_false_iff.2 hon)]
    exact hshows p hp

/-- They all lack one front. -/
theorem exists_front_of_finish (haccepted : (scan (.empty rules) filter log).2 = none)
    (hm : (finish (scan (.empty rules) filter log).1.forest tally).1.module? id name = some m) :
    ∃ front, ∀ p ∈ m.places, p.header.ShowsBehind rules.policy front :=
  ⟨m.commonPrefix, fun _ => showsBehind_of_finish haccepted hm⟩

/-- The headers of a finished log are compared by the paths of its notes. -/
theorem comparedPaths_of_finish (haccepted : (scan (.empty rules) filter log).2 = none)
    (hm : (finish (scan (.empty rules) filter log).1.forest tally).1.module? id name = some m) :
    m.comparedPaths
      = (notes filter id name log).map fun note => rules.policy.normalize note.path := by
  rw [module?_finish] at hm
  obtain ⟨before, hbefore, rfl⟩ := Option.map_eq_some_iff.1 hm
  obtain ⟨-, hwritten⟩ := Scanner.prefixExact_and_isAsWritten_scan haccepted
    (Option.filter_eq_some_iff.1 hbefore).1
  have hcompared := congrArg (List.map Prod.snd) hwritten
  rw [List.map_map, List.map_map, List.map_map] at hcompared
  have hsame (b : Bool) :
      (if b then before.simplify else before).comparedPaths = before.comparedPaths := by
    cases b
    · rfl
    · exact before.comparedPaths_simplify
  rw [hsame]
  exact hcompared

end

/-- **The common prefix and the paths that are shown are exact.** After every run,
the prefix of a module that has headers is the longest that their compared paths
all begin with, if paths are to be simplified, and there is none otherwise. So it
does not matter in which order and at which depths the headers came: two modules
with the same compared paths have the same prefix. When a log has been accepted,
the headers of a module are shown as its notes wrote them, and after the last steps
each has lost as many bytes as the prefix has, and nothing else is changed; where
paths are not to be simplified, nothing is. -/
theorem prefixes_and_shownPaths_exact (rules : ForestRules) :
    (∀ steps id name m, ((Forest.empty rules).performAll steps).1.module? id name = some m →
      (rules.simplifyPaths = true → m.isEmpty = false →
        IsLongestPrefix m.commonPrefix (m.places.map (·.header.comparedPath))) ∧
      (rules.simplifyPaths = false → m.commonPrefix = "")) ∧
    (∀ steps id name m steps' id' name' m',
      ((Forest.empty rules).performAll steps).1.module? id name = some m →
      ((Forest.empty rules).performAll steps').1.module? id' name' = some m' →
      m.isEmpty = false → m'.isEmpty = false →
      (∀ path, path ∈ m.places.map (·.header.comparedPath) ↔
        path ∈ m'.places.map (·.header.comparedPath)) →
      m.commonPrefix = m'.commonPrefix) ∧
    ∀ filter log, (scan (.empty rules) filter log).2 = none →
      let s := (scan (.empty rules) filter log).1
      ∀ id name m, s.forest.module? id name = some m → m.isEmpty = false →
        m.places.map (·.header.shownPath) = (notes filter id name log).map (·.path) ∧
        ∃ m', (finish s.forest s.tally).1.module? id name = some m' ∧
          m'.commonPrefix = m.commonPrefix ∧ m'.hasCycle = m.hasCycle ∧
          List.Forall₂ (fun p p' => p'.level = p.level ∧
            p.header.IsShortened rules.policy m.commonPrefix p'.header) m.places m'.places ∧
          (rules.simplifyPaths = false → m' = m) := by
  have hexact (steps : List Forest.Step) := (Forest.isReachable_performAll rules steps).prefixExact
  refine ⟨fun steps id name m hm => ?_, ?_, ?_⟩
  · exact ⟨(hexact steps id name m hm).isLongest, (hexact steps id name m hm).eq_empty⟩
  · intro steps id name m steps' id' name' m' hm hm' hne hne' hsame
    cases hon : rules.simplifyPaths with
    | true =>
      exact ((hexact steps id name m hm).isLongest hon hne).unique
        ((hexact steps' id' name' m' hm').isLongest hon hne') hsame
    | false =>
      rw [(hexact steps id name m hm).eq_empty hon, (hexact steps' id' name' m' hm').eq_empty hon]
  · intro filter log haccepted s id name m hm hne
    obtain ⟨hexact, hwritten⟩ := Scanner.prefixExact_and_isAsWritten_scan haccepted hm
    refine ⟨hwritten.map_shownPath, ?_⟩
    have hfound : (finish s.forest s.tally).1.module? id name
        = some (if rules.simplifyPaths then m.simplify else m) := by
      rw [module?_finish, hm, Option.filter_some_pos (by rw [hne]; rfl),
        (Scanner.accounts_scan rules filter haccepted).isReachable.rules_eq]
      rfl
    cases hon : rules.simplifyPaths with
    | true =>
      rw [hon, if_pos rfl] at hfound
      refine ⟨m.simplify, hfound, rfl, rfl, ?_, nofun⟩
      rw [m.places_simplify, List.forall₂_map_right_iff, List.forall₂_same]
      intro p hp
      rw [Place.level_map, Place.header_map]
      exact ⟨rfl, m.isShortened_simplify hexact hon (fun q hq => hwritten.showsBehind hq) hp⟩
    | false =>
      rw [hon, if_neg Bool.false_ne_true] at hfound
      refine ⟨m, hfound, rfl, rfl, ?_, fun _ => rfl⟩
      rw [List.forall₂_same, hexact.eq_empty hon]
      exact fun p _ => ⟨rfl, .refl _ _⟩

/-- Three headers in two orders and at different depths: they have one prefix. The
accented letter in it takes two bytes, and is cut off however the rest is written.
Where paths are not to be simplified, they are shown as they were written. -/
theorem prefixes_and_shownPaths_exact_accented :
    let rules : ForestRules := { policy := .caseInsensitive }
    let unsimplified : ForestRules := { simplifyPaths := false }
    let started : List Forest.Step := [.project 1 "demo", .module 1 "main.cpp"]
    let steps := started ++ [.note 1 "main.cpp" 0 "Inc\u00e9/A.h",
      .note 1 "main.cpp" 1 "INC\u00e9\\sub\\b.h", .note 1 "main.cpp" 2 "inc\u00e9/c.h"]
    let steps' := started ++ [.note 1 "main.cpp" 5 "inc\u00e9/c.h",
      .note 1 "main.cpp" 0 "INC\u00e9\\sub\\b.h", .note 1 "main.cpp" 0 "Inc\u00e9/A.h"]
    let log := [
      "1> Project: demo", "1> main.cpp", "1> Note: including file: Inc\u00e9/A.h",
      "1> Note: including file:  INC\u00e9\\sub\\b.h"].map String.toList
    let s := (scan (.empty rules) none log).1
    let s' := (scan (.empty unsimplified) none log).1
    (∃ m m', ((Forest.empty rules).performAll steps).1.module? 1 "main.cpp" = some m ∧
      ((Forest.empty rules).performAll steps').1.module? 1 "main.cpp" = some m' ∧
      m.commonPrefix = m'.commonPrefix ∧
      IsLongestPrefix "inc\u00e9\\" (m.places.map (·.header.comparedPath))) ∧
    (∃ m m', s.forest.module? 1 "main.cpp" = some m ∧
      (finish s.forest s.tally).1.module? 1 "main.cpp" = some m' ∧
      List.Forall₂ (fun p p' => p'.level = p.level ∧
        p.header.IsShortened rules.policy "inc\u00e9\\" p'.header) m.places m'.places) ∧
    (∃ m, ((Forest.empty unsimplified).performAll steps).1.module? 1 "main.cpp" = some m ∧
      m.commonPrefix = "") ∧
    ∃ m, (finish s'.forest s'.tally).1.module? 1 "main.cpp" = some m ∧
      m.places.map (·.header.shownPath) = (notes none 1 "main.cpp" log).map (·.path) := by
  intro rules unsimplified started steps steps' log s s'
  obtain ⟨hruns, hsame, hlogs⟩ := prefixes_and_shownPaths_exact rules
  obtain ⟨hruns', -, hlogs'⟩ := prefixes_and_shownPaths_exact unsimplified
  refine ⟨?_, ?_, ?_, ?_⟩
  · have hfound : (((Forest.empty rules).performAll steps).1.module? 1 "main.cpp").map
        (fun m => (m.isEmpty, m.commonPrefix, m.comparedPaths))
        = some (false, "inc\u00e9\\",
            ["inc\u00e9\\a.h", "inc\u00e9\\sub\\b.h", "inc\u00e9\\c.h"]) := by decide
    have hfound' : (((Forest.empty rules).performAll steps').1.module? 1 "main.cpp").map
        (fun m => (m.isEmpty, m.comparedPaths))
        = some (false, ["inc\u00e9\\c.h", "inc\u00e9\\sub\\b.h", "inc\u00e9\\a.h"]) := by
      decide
    obtain ⟨m, hm, hfacts⟩ := Option.map_eq_some_iff.1 hfound
    obtain ⟨m', hm', hfacts'⟩ := Option.map_eq_some_iff.1 hfound'
    obtain ⟨hne, hprefix, hpaths⟩ : _ ∧ _ ∧ _ := by simpa using hfacts
    obtain ⟨hne', hpaths'⟩ : _ ∧ _ := by simpa using hfacts'
    refine ⟨m, m', hm, hm', hsame steps 1 _ m steps' 1 _ m' hm hm' hne hne' fun path => ?_, ?_⟩
    · show path ∈ m.comparedPaths ↔ path ∈ m'.comparedPaths
      rw [hpaths, hpaths']
      exact List.mem_reverse.symm
    · rw [← hprefix]
      exact (hruns steps 1 _ m hm).1 rfl hne
  · have hfound : (s.forest.module? 1 "main.cpp").map (fun m => (m.isEmpty, m.commonPrefix))
        = some (false, "inc\u00e9\\") := by decide +kernel
    obtain ⟨m, hm, hfacts⟩ := Option.map_eq_some_iff.1 hfound
    obtain ⟨hne, hprefix⟩ := Prod.mk.inj hfacts
    obtain ⟨-, m', hm', -, -, hshort, -⟩ := hlogs none log (by decide +kernel) 1 "main.cpp" m hm hne
    exact ⟨m, m', hm, hm', hprefix ▸ hshort⟩
  · have hthere : (((Forest.empty unsimplified).performAll steps).1.module? 1 "main.cpp").isSome
        = true := by decide
    obtain ⟨m, hm⟩ := Option.isSome_iff_exists.1 hthere
    exact ⟨m, hm, (hruns' steps 1 _ m hm).2 rfl⟩
  · have hfound : (s'.forest.module? 1 "main.cpp").map (·.isEmpty) = some false := by decide +kernel
    obtain ⟨m, hm, hne⟩ := Option.map_eq_some_iff.1 hfound
    obtain ⟨hshown, m', hm', -, -, -, hunchanged⟩ :=
      hlogs' none log (by decide +kernel) 1 "main.cpp" m hm hne
    obtain rfl := hunchanged rfl
    exact ⟨m', hm', hshown⟩

end IncludeForest
