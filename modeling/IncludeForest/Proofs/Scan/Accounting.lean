import IncludeForest.Proofs.Forest.Totals
import IncludeForest.Proofs.Scan.Run

/-!
# Every line and every header is accounted for

A scan counts twice. The counters are added to line by line, while the log is
read; the figures of a report are computed from the forest that is left in the
end. Nothing but the definition of a scan ties one to the other.

Whatever a line does to a scanner (`Scanner.Reads`), it adds to the counters what
it adds to the forest. So the two agree after every line (`Scanner.Accounts`),
also where lines are refused in between, for a refused line adds nothing but
itself. The purge in the end takes away no header, and what it takes away it
counts.
-/

namespace IncludeForest

open IncludeTree

namespace Tally

/-- The lines that were counted for what they were. -/
def accounted (t : Tally) : Nat :=
  t.withoutStream + t.idle + t.filtered + t.projects + t.modules + t.headers

end Tally

namespace Scanner

variable {s s' : Scanner} {line : List Char} {refusal : Option ForestError} {rules : ForestRules}

/-! ## Lines -/

/-- Every line is counted as read. -/
theorem Reads.lines (h : s.Reads line s' refusal) : s'.tally.lines = s.tally.lines + 1 := by
  cases h <;> rfl

/-- Every line is counted for what it was, or is refused. -/
theorem Reads.accounted (h : s.Reads line s' refusal) :
    s'.tally.accounted + refusal.isSome.toNat = s.tally.accounted + 1 := by
  cases h with
  | refused => rfl
  | withoutStream | idle | filtered | project | module | header =>
    simp only [Tally.accounted, Tally.addLine, Tally.addWithoutStream, Tally.addIdle,
      Tally.addFiltered, Tally.addProject, Tally.addModule, Tally.addHeader, Option.isSome_none,
      Bool.toNat_false]
    omega

theorem lines_readAll (s : Scanner) (log : List (List Char)) :
    (s.readAll log).1.tally.lines = s.tally.lines + log.length := by
  induction log generalizing s with
  | nil => rfl
  | cons line log ih =>
    show ((s.readLine line).1.readAll log).1.tally.lines = _
    rw [ih, (s.reads_readLine line).lines, List.length_cons]
    omega

/-- **Every line of a log is counted for what it was**, or is refused. -/
theorem accounted_readAll (s : Scanner) (log : List (List Char)) :
    (s.readAll log).1.tally.accounted + (s.readAll log).2.countP (·.isSome)
      = s.tally.accounted + log.length := by
  induction log generalizing s with
  | nil => rfl
  | cons line log ih =>
    have hline := (s.reads_readLine line).accounted
    have hlog := ih (s.readLine line).1
    show ((s.readLine line).1.readAll log).1.tally.accounted
      + ((s.readLine line).2 :: ((s.readLine line).1.readAll log).2).countP (·.isSome) = _
    rw [List.countP_cons, List.length_cons]
    cases hrefusal : (s.readLine line).2 with
    | none =>
      rw [hrefusal] at hline
      simp only [Option.isSome_none, Bool.toNat_false, Bool.false_eq_true, if_false] at hline ⊢
      omega
    | some cause =>
      rw [hrefusal] at hline
      simp only [Option.isSome_some, Bool.toNat_true, if_true] at hline ⊢
      omega

/-! ## Headers -/

/-- **The counters of a scanner agree with its forest**, which some run of
operations leads to. -/
structure Accounts (rules : ForestRules) (s : Scanner) : Prop where
  /-- Operations lead to the forest. -/
  isReachable : s.forest.IsReachable rules
  /-- The projects that started are there. -/
  projects : s.forest.projects.size = s.tally.projects
  /-- The modules that started are there. -/
  modules : (s.forest.total fun _ => 1) = s.tally.modules
  /-- The headers that were inserted are there. -/
  headers : (s.forest.count fun _ => true) = s.tally.headers
  /-- Those that close a cycle do. -/
  cycles : s.forest.count (·.closesCycle) = s.tally.cycles
  /-- Those that are matched are. -/
  matched : s.forest.count (·.isMatched) = s.tally.matched

/-- At the beginning nothing is there and nothing is counted. -/
theorem accounts_start (rules : ForestRules) (filter : Option PathFilter) :
    (start (.empty rules) filter).Accounts rules :=
  ⟨Forest.isReachable_empty rules, rfl, rfl, rfl, rfl, rfl⟩

namespace Accounts

/-- **A line adds to the counters what it adds to the forest.** -/
theorem of_reads (h : s.Accounts rules) (hread : s.Reads line s' refusal) : s'.Accounts rules := by
  cases hread with
  | withoutStream | idle | filtered | refused =>
    exact ⟨h.isReachable, h.projects, h.modules, h.headers, h.cycles, h.matched⟩
  | project _ hstart =>
    refine ⟨h.isReachable.startProject hstart, ?_, ?_, ?_, ?_, ?_⟩
    · exact (Forest.size_startProject hstart).trans (congrArg (· + 1) h.projects)
    · exact (Forest.total_startProject hstart).trans h.modules
    · exact (Forest.total_startProject hstart).trans h.headers
    · exact (Forest.total_startProject hstart).trans h.cycles
    · exact (Forest.total_startProject hstart).trans h.matched
  | module _ hstart =>
    refine ⟨h.isReachable.startModule hstart, ?_, ?_, ?_, ?_, ?_⟩
    · exact (Forest.size_startModule hstart).trans h.projects
    · exact (Forest.total_startModule hstart).trans (congrArg (· + 1) h.modules)
    · exact (Forest.total_startModule hstart).trans h.headers
    · exact (Forest.total_startModule hstart).trans h.cycles
    · exact (Forest.total_startModule hstart).trans h.matched
  | header _ hinsert =>
    obtain ⟨leaf, rfl, hcount⟩ := Forest.count_insertNote hinsert
    refine ⟨h.isReachable.insertNote hinsert, ?_, ?_, ?_, ?_, ?_⟩
    · exact (Forest.size_insertNote hinsert).trans h.projects
    · obtain ⟨m, -, htotal⟩ := Forest.total_insertNote hinsert
      exact (Nat.add_right_cancel (htotal fun _ => 1)).trans h.modules
    · exact (hcount _ fun _ => rfl).trans (congrArg (· + 1) h.headers)
    · exact (hcount _ fun _ => rfl).trans (congrArg (· + leaf.closesCycle.toNat) h.cycles)
    · exact (hcount _ fun _ => rfl).trans (congrArg (· + leaf.isMatched.toNat) h.matched)

end Accounts

/-- **The counters agree with the forest** after every log. -/
theorem accounts_readAll (rules : ForestRules) (filter : Option PathFilter)
    (log : List (List Char)) :
    (((start (.empty rules) filter).readAll log).1).Accounts rules :=
  readAll_induction (fun h hread => h.of_reads hread) (accounts_start rules filter) log

/-- **The counters agree with the forest** when a log has been accepted. -/
theorem accounts_scan (rules : ForestRules) (filter : Option PathFilter) {log : List (List Char)}
    (h : (scan (.empty rules) filter log).2 = none) :
    (scan (.empty rules) filter log).1.Accounts rules :=
  scan_induction (P := fun _ s => s.Accounts rules) (accounts_start rules filter)
    (fun h hread => h.of_reads hread) log h

end Scanner

/-! ## The end of a log -/

section

variable {rules : ForestRules} {forest : Forest} {figure : Module → Nat} {mark : Header → Bool}

/-- The last steps lead to a forest that can be reached. -/
theorem isReachable_finish (h : forest.IsReachable rules) (tally : Tally) :
    (finish forest tally).1.IsReachable rules := by
  have hpurged : forest.purge.1.IsReachable rules := h.perform .purge
  unfold finish
  dsimp only
  split
  · exact hpurged.perform .simplify
  · exact hpurged

/-- Of the last steps only the purge changes how many projects there are. -/
theorem size_finish (forest : Forest) (tally : Tally) :
    (finish forest tally).1.projects.size = forest.purge.1.projects.size := by
  unfold finish
  dsimp only
  split
  · exact forest.purge.1.size_simplify
  · rfl

/-- Of the last steps only the purge changes a total that simplifying keeps. -/
theorem total_finish (h : ∀ m : Module, figure m.simplify = figure m) (forest : Forest)
    (tally : Tally) : (finish forest tally).1.total figure = forest.purge.1.total figure := by
  unfold finish
  dsimp only
  split
  · exact Forest.total_simplify h
  · rfl

/-- **The last steps take no header away**, and no mark that is not a matter of
what is shown. -/
theorem count_finish (hmark : ∀ (h : Header) (n : Nat), mark (h.dropFront n) = mark h)
    (forest : Forest) (tally : Tally) : (finish forest tally).1.count mark = forest.count mark := by
  unfold Forest.count
  rw [total_finish fun m => Stats.countAll_mapAll (fun h => hmark h _) m.roots,
    Forest.total_purge]
  intro m hempty
  rw [List.isEmpty_iff.1 hempty]
  rfl

end

/-- **Every line and every header is accounted for.** Whatever is read, and
wherever lines are refused: every line is counted once for what it was, or is
one of those that were refused; and when the work is finished, the figures of
the forest are the counters, the cycles reported are those counted, what is
missing was purged, and the depth is that of the deepest header. -/
theorem finish_readAll_accounted (rules : ForestRules) (filter : Option PathFilter)
    (log : List (List Char)) :
    let read := (Scanner.start (.empty rules) filter).readAll log
    let f := (finish read.1.forest read.1.tally).1
    let t := (finish read.1.forest read.1.tally).2
    let stats := Stats.ofForest f
    t.lines = log.length ∧
      t.lines = t.withoutStream + t.idle + t.filtered + t.projects + t.modules + t.headers
        + read.2.countP (·.isSome) ∧
      stats.headers = t.headers ∧
      stats.cycles = t.cycles ∧ (Cycle.ofForest f).length = t.cycles ∧
      stats.matched = t.matched ∧
      stats.projects + t.purgedProjects = t.projects ∧
      stats.modules + t.purgedModules = t.modules ∧
      stats.depth = ((f.places.map (·.level + 1)).max?).getD 0 := by
  intro read f t stats
  have hlines : t.lines = log.length :=
    (Scanner.lines_readAll _ log).trans (Nat.zero_add _)
  have haccounted : t.accounted + read.2.countP (·.isSome) = log.length :=
    (Scanner.accounted_readAll _ log).trans (Nat.zero_add _)
  obtain ⟨hreachable, hprojects, hmodules, hheaders, hcycles, hmatched⟩ :=
    Scanner.accounts_readAll rules filter log
  have hcloses : f.count (·.closesCycle) = t.cycles := by
    refine (count_finish (fun h n => ?_) read.1.forest read.1.tally).trans hcycles
    rw [Header.dropFront_eq]
  have hstats : stats = _ := f.stats_eq
  refine ⟨hlines, hlines.trans haccounted.symm, ?_, ?_, ?_, ?_, ?_, ?_, f.depth_stats⟩
  · rw [hstats]
    exact (count_finish (fun _ _ => rfl) read.1.forest read.1.tally).trans hheaders
  · rw [hstats]
    exact hcloses
  · exact (Forest.length_cycles (isReachable_finish hreachable _).cyclesExact).trans hcloses
  · rw [hstats]
    refine (count_finish (fun h n => ?_) read.1.forest read.1.tally).trans hmatched
    rw [Header.dropFront_eq]
    rfl
  · rw [hstats]
    show f.projects.size + read.1.forest.purge.2.projects = read.1.tally.projects
    rw [size_finish, read.1.forest.size_purge, hprojects]
  · rw [hstats]
    show f.total (fun _ => 1) + read.1.forest.purge.2.modules = read.1.tally.modules
    rw [total_finish fun _ => rfl, read.1.forest.total_one_purge, hmodules]

end IncludeForest
