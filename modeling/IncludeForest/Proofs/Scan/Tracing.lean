import IncludeForest.Proofs.Forest.Cycles
import IncludeForest.Proofs.Log.Notes
import IncludeForest.Proofs.Scan.Run
import IncludeForest.Proofs.Tree.Ways

/-!
# Headers traced to the log

A header says nothing of the line it comes from. But a module has its headers in
the order of the log, so they are the notes of the module one by one, and the
lines of these notes are the lines of the headers. `Module.traces` writes them
down: every header with its line, and with the lines of the headers that it
stands below.

What is written there depends on the notes alone (`Module.Records.traces_eq`):
on their levels, by the way that `IncludeTree.waysAfter` follows, and for the
flags on their paths. `Scanner.Follows` ties the notes to the log. After every
line that is accepted, the forest of a scanner records the notes that the log
has for each module.
-/

namespace IncludeForest

open IncludeTree Log

/-- **A header traced to the log.** -/
structure Trace where
  /-- The line of its note. -/
  line : Nat
  /-- The header. -/
  header : Header
  /-- The lines of the notes of the headers it stands below, the root first. -/
  above : List Nat

namespace Module

/-- **The headers of a module traced to the log**, given the lines of its
notes. -/
def traces (m : Module) (lines : List Nat) : List Trace :=
  (ways (fun i h => (lines.getD i 0, h)) m.roots).map fun e => ⟨e.1.1, e.1.2, e.2.map (·.1)⟩

/-- What a note tells of its header: its line, and what its path is compared
as. -/
def told (rules : ForestRules) (note : Note) : Nat × String :=
  (note.line, rules.policy.normalize note.path)

/-- **Whether notes are those of a module**: its headers are what they tell, one
by one, and no two have the same line. -/
def IsTracedBy (m : Module) (rules : ForestRules) (notes : List Note) : Prop :=
  (m.traces (notes.map (·.line))).map (fun t => (t.line, t.header.comparedPath))
      = notes.map (told rules) ∧
    notes.Pairwise (·.line < ·.line)

/-- Every header is traced. -/
theorem map_header_traces (m : Module) (lines : List Nat) :
    (m.traces lines).map (·.header) = m.places.map (·.header) := by
  have hways : _ = ways (fun _ h => h) m.roots :=
    map_ways (·.2) (fun i h => (lines.getD i 0, h)) m.roots
  have hheaders := congrArg (List.map (·.1)) (hways.trans (ways_header m.roots))
  rw [List.map_map, List.map_map] at hheaders
  unfold traces
  rw [List.map_map]
  exact hheaders

variable {rules : ForestRules} {notes : List Note} {m : Module}

/-- The lines of the headers are those of the notes. -/
theorem IsTracedBy.map_line (h : m.IsTracedBy rules notes) :
    (m.traces (notes.map (·.line))).map (·.line) = notes.map (·.line) := by
  have hlines := congrArg (List.map (·.1)) h.1
  rwa [List.map_map, List.map_map] at hlines

/-- Entries that are looked up by number stand side by side. -/
theorem map_zipIdx_getD {α β γ : Type} (f : α → β) (d : γ) {as : List α} {cs : List γ}
    (h : as.length = cs.length) :
    as.zipIdx.map (fun (a, i) => (cs.getD i d, f a)) = cs.zip (as.map f) := by
  refine List.ext_getElem ?_ fun i hi hi' => ?_
  · simp [h]
  · have hlt : i < cs.length := by simpa [h] using hi
    simp [hlt]

/-- The headers of a module above one another, by what their notes tell. -/
theorem Records.ways_eq (h : m.Records rules (notes.map fun n => (n.level, n.path))) :
    ways (fun i g => ((notes.map (·.line)).getD i 0, g.comparedPath)) m.roots
      = waysAfter [] (notes.map fun n => (n.level, told rules n)) := by
  have hlevels := h.levels
  have hpaths := h.paths
  rw [List.map_map] at hlevels hpaths
  have hlength : m.places.length = (notes.map (·.line)).length := by
    have hlength := congrArg List.length hpaths
    rw [List.length_map, List.length_map] at hlength
    rw [hlength, List.length_map]
  have hlabels : m.places.zipIdx.map
      (fun e => ((notes.map (·.line)).getD e.2 0, e.1.header.comparedPath))
      = notes.map (told rules) := by
    refine (map_zipIdx_getD (·.header.comparedPath) 0 hlength).trans ?_
    show (notes.map (·.line)).zip (m.places.map (·.header.comparedPath)) = _
    rw [hpaths, List.zip_map']
    rfl
  rw [ways_eq_of_levels hlevels]
  show waysAfter [] (List.zip _ (m.places.zipIdx.map
    fun e => ((notes.map (·.line)).getD e.2 0, e.1.header.comparedPath))) = _
  rw [hlabels, List.zip_map']
  rfl

/-- Whether a header closes a cycle can be told from the headers above it. -/
theorem CyclesExact.closesCycle_of_mem_ways (hexact : m.CyclesExact) {line : Nat → Nat}
    {e : (Nat × Header) × List (Nat × Header)} (he : e ∈ ways (fun i g => (line i, g)) m.roots) :
    e.1.2.closesCycle = e.2.any (·.2.comparedPath == e.1.2.comparedPath) := by
  have hways : _ = ways (fun _ h => h) m.roots := map_ways (·.2) (fun i g => (line i, g)) m.roots
  rw [ways_header] at hways
  have hmem : (e.1.2, e.2.map (·.2)) ∈ m.places.map fun p => (p.header, p.above.reverse) :=
    hways ▸ List.mem_map_of_mem (f := fun e : (Nat × Header) × List (Nat × Header) =>
      (e.1.2, e.2.map (·.2))) he
  obtain ⟨p, hp, hpe⟩ := List.mem_map.1 hmem
  obtain ⟨hheader, habove⟩ := Prod.mk.inj hpe
  have hcloses := hexact.closes p hp
  rw [Place.repeats, ← List.any_reverse, habove, List.any_map] at hcloses
  rw [← hheader]
  exact hcloses

/-- **What a module traces back depends on its notes alone**: the lines and the
paths of its headers, which of them close a cycle, and which stand above
which. -/
theorem Records.traces_eq (h : m.Records rules (notes.map fun n => (n.level, n.path)))
    (hexact : m.CyclesExact) :
    (m.traces (notes.map (·.line))).map
        (fun t => (t.line, t.header.comparedPath, t.header.closesCycle, t.above))
      = (waysAfter [] (notes.map fun n => (n.level, told rules n))).map
        fun e => (e.1.1, e.1.2, e.2.any (·.2 == e.1.2), e.2.map (·.1)) := by
  have hpaths := map_ways (fun a : Nat × Header => (a.1, a.2.comparedPath))
    (fun i g => ((notes.map (·.line)).getD i 0, g)) m.roots
  unfold traces
  rw [← h.ways_eq, ← hpaths, List.map_map, List.map_map]
  refine List.map_congr_left fun e he => ?_
  have hflag := hexact.closesCycle_of_mem_ways he
  simp only [Function.comp_apply, hflag, List.any_map, List.map_map]
  rfl

/-- Every header is what its note tells. -/
theorem Records.isTracedBy (h : m.Records rules (notes.map fun n => (n.level, n.path)))
    (hexact : m.CyclesExact) (hlines : notes.Pairwise (·.line < ·.line)) :
    m.IsTracedBy rules notes := by
  have htraces := congrArg (List.map fun e => (e.1, e.2.1)) (h.traces_eq hexact)
  rw [List.map_map, List.map_map] at htraces
  have hways := map_fst_waysAfter [] (notes.map fun n => (n.level, told rules n))
  rw [List.map_map] at hways
  exact ⟨htraces.trans hways, hlines⟩

end Module

namespace Scanner

variable {filter : Option PathFilter} {log : List (List Char)} {line : List Char}
  {s s' : Scanner}

/-- **A scanner that follows a log**: it knows the last module of every stream,
and its forest records the notes of every module. -/
structure Follows (filter : Option PathFilter) (log : List (List Char)) (s : Scanner) : Prop where
  /-- It uses the filter. -/
  filter_eq : s.filter = filter
  /-- It knows which module a note belongs to. -/
  target (id : StreamId) : s.target id = latestModule filter id log
  /-- Its forest records the notes of the log. -/
  records : s.forest.Records fun id name =>
    (notes filter id name log).map fun n => (n.level, n.path)

/-- There is nothing to follow in no lines. -/
theorem follows_start (rules : ForestRules) (filter : Option PathFilter) :
    (start (.empty rules) filter).Follows filter [] :=
  ⟨rfl, fun _ => rfl, Forest.records_empty rules⟩

/-- **A scanner goes on to follow a log** with every line that it accepts. -/
theorem Follows.of_reads (h : s.Follows filter log) (hread : s.Reads line s' none) :
    s'.Follows filter (log ++ [line]) := by
  obtain ⟨rfl, htarget, hrecords⟩ := h
  -- All but the announcement of a header leave the notes as they are.
  have hnotes (hno : ∀ id level path, announcement? s.filter line ≠ some (id, .header level path)) :
      (fun id name => (notes s.filter id name (log ++ [line])).map fun n => (n.level, n.path))
        = fun id name => (notes s.filter id name log).map fun n => (n.level, n.path) := by
    funext id name
    rw [notes_concat_of_ne (hno id)]
  have hlatest (hno : ∀ id name, announcement? s.filter line ≠ some (id, .module name))
      (id : StreamId) : s.target id = latestModule s.filter id (log ++ [line]) := by
    rw [latestModule_concat_of_ne (hno id), htarget]
  cases hread with
  | withoutStream hline =>
    refine ⟨rfl, hlatest (by simp [hline]), ?_⟩
    rw [hnotes (by simp [hline])]
    exact hrecords
  | idle hline =>
    refine ⟨rfl, hlatest (by simp [hline]), ?_⟩
    rw [hnotes (by simp [hline])]
    exact hrecords
  | filtered hline =>
    refine ⟨rfl, hlatest (by simp [hline]), ?_⟩
    rw [hnotes (by simp [hline])]
    exact hrecords
  | project hline hstart =>
    refine ⟨rfl, hlatest (by simp [hline]), ?_⟩
    rw [hnotes (by simp [hline])]
    obtain ⟨-, rfl⟩ := Forest.startProject_eq_ok.1 hstart
    exact hrecords.of_module?_eq rfl (Forest.module?_of_startProject hstart)
  | @module id name forest hline hstart =>
    refine ⟨rfl, fun i => ?_, ?_⟩
    · show ((s.latest.insert id name).get? i).getD "" = _
      rw [SortedMap.get?_insert]
      by_cases hi : i = id
      · subst hi
        rw [if_pos rfl, Option.getD_some, latestModule_concat_self hline]
      · rw [if_neg hi, latestModule_concat_of_ne (by simp [hline, Ne.symm hi])]
        exact htarget i
    · rw [hnotes (by simp [hline])]
      obtain ⟨_, -, -, rfl⟩ := Forest.startModule_eq_ok.1 hstart
      exact hrecords.startModule hstart rfl
  | @header id level path forest outcome hline hinsert =>
    refine ⟨rfl, hlatest (by simp [hline]), ?_⟩
    have hadded : (fun i n => (notes s.filter i n (log ++ [line])).map fun n => (n.level, n.path))
        = fun i n => ((notes s.filter i n log).map fun n => (n.level, n.path))
          ++ if i = id ∧ n = s.target id then [(level, path)] else [] := by
      funext i n
      rw [notes_concat_of_eq hline, List.map_append, htarget]
      split <;> rfl
    rw [hadded]
    obtain ⟨_, _, -, -, -, rfl⟩ := Forest.insertNote_eq_ok.1 hinsert
    exact hrecords.insertNote hinsert rfl

/-- **A scanner follows the log that it has accepted.** -/
theorem follows_scan (rules : ForestRules) (filter : Option PathFilter) {log : List (List Char)}
    (h : (scan (.empty rules) filter log).2 = none) :
    (scan (.empty rules) filter log).1.Follows filter log :=
  scan_induction (follows_start rules filter) (fun h hread => h.of_reads hread) log h

end Scanner

end IncludeForest
