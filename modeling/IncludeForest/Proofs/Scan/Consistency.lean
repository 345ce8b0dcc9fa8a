import Mathlib.Data.List.Induction
import IncludeForest.Proofs.Scan.Run

/-!
# The logs that are accepted

A log is consistent if its lines could have come from a build: a stream starts
one project, then modules with different names, and includes headers only while
it compiles something. `Consistent` says this of a line and the lines before
it, without a scanner: it only asks what those lines announce. `Contradicts`
gives the reason where it fails. Both look at all lines before, so they do not
depend on which of them were accepted.

A scanner knows less. Of the lines it has read it keeps, for every stream, a
project with its modules and the name of the last one. `Scanner.Reflects` is the
invariant that this suffices: a project is there if one has started, a module is
there if it has started, and the last one is missing only if none has. It holds
at the beginning, and every accepted line keeps it (`Scanner.Reflects.readLine`).
While it holds, the scanner refuses exactly the lines that contradict, for the
same reasons.
-/

namespace IncludeForest

namespace Log

section

variable (filter : Option PathFilter)

/-- Whether one of the lines announces this on the stream. -/
def Announces (log : List (List Char)) (id : StreamId) (announced : Announcement) : Prop :=
  ∃ line ∈ log, announcement? filter line = some (id, announced)

/-- Whether a project starts on the stream. -/
def StartsProject (log : List (List Char)) (id : StreamId) : Prop :=
  ∃ name, Announces filter log id (.project name)

/-- Whether the module starts on the stream. -/
def StartsModule (log : List (List Char)) (id : StreamId) (name : String) : Prop :=
  Announces filter log id (.module name)

/-- **A line that agrees with the lines before it.** -/
def Consistent (earlier : List (List Char)) (line : List Char) : Prop :=
  match announcement? filter line with
  | some (id, .project _) => ¬ StartsProject filter earlier id
  | some (id, .module name) =>
    StartsProject filter earlier id ∧ ¬ StartsModule filter earlier id name
  | some (id, .header _ _) =>
    StartsProject filter earlier id ∧ ∃ name, StartsModule filter earlier id name
  | _ => True

/-- **A line that contradicts the lines before it**, and why. -/
inductive Contradicts (earlier : List (List Char)) (line : List Char) : ForestError → Prop where
  /-- A second project. -/
  | projectTwice {id : StreamId} {name : String}
    (h : announcement? filter line = some (id, .project name))
    (hproject : StartsProject filter earlier id) :
    Contradicts earlier line (.duplicateProject id name)
  /-- A module without a project. -/
  | moduleOutside {id : StreamId} {name : String}
    (h : announcement? filter line = some (id, .module name))
    (hproject : ¬ StartsProject filter earlier id) :
    Contradicts earlier line (.unknownProject id)
  /-- A second module of one name. -/
  | moduleTwice {id : StreamId} {name : String}
    (h : announcement? filter line = some (id, .module name))
    (hproject : StartsProject filter earlier id)
    (hmodule : StartsModule filter earlier id name) :
    Contradicts earlier line (.duplicateModule id name)
  /-- A header without a project. -/
  | headerOutside {id : StreamId} {level : Nat} {path : String}
    (h : announcement? filter line = some (id, .header level path))
    (hproject : ¬ StartsProject filter earlier id) :
    Contradicts earlier line (.unknownProject id)
  /-- A header before any module. -/
  | headerBefore {id : StreamId} {level : Nat} {path : String}
    (h : announcement? filter line = some (id, .header level path))
    (hproject : StartsProject filter earlier id)
    (hmodule : ∀ name, ¬ StartsModule filter earlier id name) :
    Contradicts earlier line (.unknownModule id "")

/-- **A log whose lines all agree** with the lines before them. -/
def IsConsistent (log : List (List Char)) : Prop :=
  ∀ i (h : i < log.length), Consistent filter (log.take i) log[i]

end

variable {filter : Option PathFilter} {log earlier : List (List Char)} {line : List Char}

theorem announces_concat {id : StreamId} {announced : Announcement} :
    Announces filter (log ++ [line]) id announced ↔
      Announces filter log id announced ∨ announcement? filter line = some (id, announced) := by
  unfold Announces
  simp [or_and_right, exists_or]

theorem startsProject_concat {id : StreamId} :
    StartsProject filter (log ++ [line]) id ↔
      StartsProject filter log id ∨
        ∃ name, announcement? filter line = some (id, .project name) := by
  unfold StartsProject
  simp only [announces_concat, exists_or]

theorem startsModule_concat {id : StreamId} {name : String} :
    StartsModule filter (log ++ [line]) id name ↔
      StartsModule filter log id name ∨ announcement? filter line = some (id, .module name) :=
  announces_concat

theorem isConsistent_concat :
    IsConsistent filter (log ++ [line]) ↔ IsConsistent filter log ∧ Consistent filter log line := by
  refine ⟨fun h => ⟨fun i hi => ?_, ?_⟩, fun h i hi => ?_⟩
  · have hline := h i (by rw [List.length_append]; omega)
    rwa [List.take_append_of_le_length (Nat.le_of_lt hi), List.getElem_append_left hi] at hline
  · have hline := h log.length (by simp)
    rwa [List.take_left, List.getElem_concat_length rfl] at hline
  · by_cases hlog : i < log.length
    · rw [List.take_append_of_le_length (Nat.le_of_lt hlog), List.getElem_append_left hlog]
      exact h.1 i hlog
    · obtain rfl : i = log.length := by rw [List.length_append, List.length_singleton] at hi; omega
      rw [List.take_left, List.getElem_concat_length rfl]
      exact h.2

/-- A line that contradicts does not agree. -/
theorem Contradicts.not_consistent {cause : ForestError}
    (h : Contradicts filter earlier line cause) : ¬ Consistent filter earlier line := by
  unfold Consistent
  cases h with
  | projectTwice h hproject => rw [h]; exact not_not_intro hproject
  | moduleOutside h hproject => rw [h]; exact fun hline => hproject hline.1
  | moduleTwice h _ hmodule => rw [h]; exact fun hline => hline.2 hmodule
  | headerOutside h hproject => rw [h]; exact fun hline => hproject hline.1
  | headerBefore h _ hmodule =>
    rw [h]
    rintro ⟨-, name, hname⟩
    exact hmodule name hname

/-- No line before the first contradiction is one. -/
theorem Contradicts.first_unique {i j : Nat} {hi : i < log.length} {hj : j < log.length}
    {cause cause' : ForestError} (h : Contradicts filter (log.take i) log[i] cause)
    (hbefore : IsConsistent filter (log.take i))
    (h' : Contradicts filter (log.take j) log[j] cause')
    (hbefore' : IsConsistent filter (log.take j)) : i = j := by
  -- The earlier of two would stand in the consistent log before the later.
  have hle {i j : Nat} {hi : i < log.length} {cause : ForestError}
      (h : Contradicts filter (log.take i) log[i] cause)
      (hbefore : IsConsistent filter (log.take j)) : j ≤ i := by
    by_contra hij
    rw [Nat.not_le] at hij
    have hline := hbefore i (by rw [List.length_take]; omega)
    rw [List.take_take, Nat.min_eq_left (Nat.le_of_lt hij), List.getElem_take] at hline
    exact h.not_consistent hline
  exact Nat.le_antisymm (hle h' hbefore) (hle h hbefore')

/-- A line contradicts for one reason. -/
theorem Contradicts.unique {cause cause' : ForestError}
    (h : Contradicts filter earlier line cause) (h' : Contradicts filter earlier line cause') :
    cause = cause' := by
  cases h <;> cases h' <;> simp_all

end Log

open Log

variable {filter : Option PathFilter} {log : List (List Char)} {line : List Char} {id : StreamId}

namespace StreamState

/-- **What a scanner keeps for a stream suffices**: it tells which project and
modules have started, and which module was the last of them. -/
structure Reflects (filter : Option PathFilter) (log : List (List Char)) (id : StreamId)
    (st : StreamState) : Prop where
  /-- The project is there if one has started. -/
  project : st.project.isSome ↔ StartsProject filter log id
  /-- A module is there if it has started. -/
  modules (name : String) :
    (st.module? name).isSome ↔ StartsModule filter log id name
  /-- There is a last module if any has started. -/
  latest : st.latest.isSome ↔ ∃ name, StartsModule filter log id name
  /-- The last module is one of those that are there. -/
  latest_modules {name : String} (h : st.latest = some name) : StartsModule filter log id name

namespace Reflects

variable {st : StreamState} {announced : Announcement} {rules : ForestRules}

/-- A line that starts nothing on the stream changes nothing. -/
theorem concat_of_starts_nothing (h : st.Reflects filter log id)
    (hproject : ∀ name, announcement? filter line ≠ some (id, .project name))
    (hmodule : ∀ name, announcement? filter line ≠ some (id, .module name)) :
    st.Reflects filter (log ++ [line]) id := by
  refine ⟨?_, fun name => ?_, ?_, fun hname => ?_⟩
  · simpa [startsProject_concat, hproject] using h.project
  · simpa [startsModule_concat, hmodule] using h.modules name
  · simpa [startsModule_concat, hmodule] using h.latest
  · exact startsModule_concat.2 (.inl (h.latest_modules hname))

/-- A line of another stream changes nothing. -/
theorem concat_ne (h : st.Reflects filter log id) (hline : streamOf? line ≠ some id) :
    st.Reflects filter (log ++ [line]) id := by
  have hother (announced : Announcement) : announcement? filter line ≠ some (id, announced) := by
    intro hann
    rw [streamOf?_eq filter, hann] at hline
    exact hline rfl
  exact h.concat_of_starts_nothing (fun _ => hother _) fun _ => hother _

/-- **What is refused contradicts**, for the reason that is given. -/
theorem contradicts (h : st.Reflects filter log id)
    (hline : announcement? filter line = some (id, announced)) {cause : ForestError}
    (hcause : st.change? rules id announced = .error cause) :
    Contradicts filter log line cause := by
  have hnone (hproject : st.project = none) : ¬ StartsProject filter log id := by
    rw [← h.project, hproject]
    exact Bool.false_ne_true
  cases announced with
  | project name =>
    obtain ⟨hproject, rfl⟩ := change?_project_eq_error hcause
    exact .projectTwice hline (h.project.1 hproject)
  | module name =>
    obtain ⟨hproject, rfl⟩ | ⟨hproject, hmodule, rfl⟩ := change?_module_eq_error hcause
    · exact .moduleOutside hline (hnone hproject)
    · exact .moduleTwice hline (h.project.1 hproject) ((h.modules name).1 hmodule)
  | header level path =>
    obtain ⟨hproject, rfl⟩ | ⟨hproject, hmodule, rfl⟩ := change?_header_eq_error hcause
    · exact .headerOutside hline (hnone hproject)
    · -- The last module would be there, so there has been none.
      cases hlatest : st.latest with
      | some name =>
        have hthere := (h.modules name).2 (h.latest_modules hlatest)
        rw [hlatest, Option.getD_some] at hmodule
        rw [hmodule] at hthere
        cases hthere
      | none =>
        refine .headerBefore hline (h.project.1 hproject) fun name hname => ?_
        have hsome := h.latest.2 ⟨name, hname⟩
        rw [hlatest] at hsome
        cases hsome
  | filtered => cases hcause
  | nothing => cases hcause

/-- **What is accepted agrees.** -/
theorem consistent (h : st.Reflects filter log id)
    (hline : announcement? filter line = some (id, announced)) {c : Change}
    (hchange : st.change? rules id announced = .ok c) : Consistent filter log line := by
  unfold Consistent
  rw [hline]
  cases announced with
  | project name =>
    obtain ⟨hproject, -⟩ := change?_project_eq_ok hchange
    show ¬ StartsProject filter log id
    rw [← h.project, hproject]
    exact Bool.false_ne_true
  | module name =>
    obtain ⟨p, hproject, hmodule, -⟩ := change?_module_eq_ok hchange
    refine ⟨h.project.1 (by rw [hproject]; rfl), ?_⟩
    rw [← h.modules, module?, hproject, Option.bind_some, hmodule]
    exact Bool.false_ne_true
  | header level path =>
    obtain ⟨p, m, hproject, hmodule, -⟩ := change?_header_eq_ok hchange
    refine ⟨h.project.1 (by rw [hproject]; rfl), st.latest.getD "", ?_⟩
    rw [← h.modules, module?, hproject, Option.bind_some, hmodule]
    rfl
  | filtered => trivial
  | nothing => trivial

/-- **What is accepted is remembered**: the state goes on to suffice. -/
theorem after (h : st.Reflects filter log id)
    (hline : announcement? filter line = some (id, announced)) {c : Change}
    (hchange : st.change? rules id announced = .ok c) :
    (st.after c).Reflects filter (log ++ [line]) id := by
  have hstarts {n : String} (h : StartsModule filter log id n) :
      StartsModule filter (log ++ [line]) id n := startsModule_concat.2 (.inl h)
  cases announced with
  | project name =>
    obtain ⟨hproject, hafter⟩ := change?_project_eq_ok hchange
    rw [hafter]
    refine ⟨?_, fun n => ?_, ?_, fun hn => hstarts (h.latest_modules hn)⟩
    · simp [startsProject_concat, hline]
    · simpa [startsModule_concat, hline, module?, hproject] using h.modules n
    · simpa [startsModule_concat, hline] using h.latest
  | module name =>
    obtain ⟨p, hproject, -, hafter⟩ := change?_module_eq_ok hchange
    rw [hafter]
    refine ⟨?_, fun n => ?_, ?_, fun hn => ?_⟩
    · simpa [startsProject_concat, hline, hproject] using h.project
    · have hmodule := h.modules n
      rw [module?, hproject, Option.bind_some] at hmodule
      by_cases hn : n = name
      · simp [startsModule_concat, hline, module?, hn]
      · simp [startsModule_concat, hline, module?, SortedMap.get?_insert, hn, Ne.symm hn, hmodule]
    · simp only [startsModule_concat, hline, Option.isSome_some, true_iff]
      exact ⟨name, .inr rfl⟩
    · obtain rfl := Option.some.inj hn
      exact startsModule_concat.2 (.inr hline)
  | header level path =>
    obtain ⟨p, m, hproject, hmodule, hafter⟩ := change?_header_eq_ok hchange
    rw [hafter]
    refine ⟨?_, fun n => ?_, ?_, fun hn => hstarts (h.latest_modules hn)⟩
    · simpa [startsProject_concat, hline, hproject] using h.project
    · have hthere := h.modules n
      rw [module?, hproject, Option.bind_some] at hthere
      by_cases hn : n = st.latest.getD ""
      · rw [hn, hmodule] at hthere
        simpa [startsModule_concat, hline, module?, hn] using hthere
      · simpa [startsModule_concat, hline, module?, SortedMap.get?_insert, hn] using hthere
    · simpa [startsModule_concat, hline] using h.latest
  | filtered =>
    cases hchange
    exact h.concat_of_starts_nothing (by simp [hline]) (by simp [hline])
  | nothing =>
    cases hchange
    exact h.concat_of_starts_nothing (by simp [hline]) (by simp [hline])

end Reflects

end StreamState

namespace Scanner

variable {s : Scanner}

/-- **A scanner that remembers enough** of the lines it has read. -/
structure Reflects (filter : Option PathFilter) (log : List (List Char)) (s : Scanner) : Prop where
  /-- It uses the filter. -/
  filter_eq : s.filter = filter
  /-- It remembers enough of every stream. -/
  streams (id : StreamId) : (s.stateAt (some id)).Reflects filter log id

/-- Nothing has to be remembered of no lines. -/
theorem reflects_start (rules : ForestRules) (filter : Option PathFilter) :
    (start (.empty rules) filter).Reflects filter [] := by
  refine ⟨rfl, fun id => ⟨?_, fun name => ?_, ?_, nofun⟩⟩ <;>
    simp [stateAt, start, Forest.empty, StreamState.module?, StartsProject, StartsModule, Announces]

namespace Reflects

/-- **A line is refused only if it contradicts.** -/
theorem contradicts (h : s.Reflects filter log) {cause : ForestError}
    (hcause : (s.readLine line).2 = some cause) : Contradicts filter log line cause := by
  rw [readLine_eq] at hcause
  obtain ⟨id, announced, hline, hchange, -⟩ := StreamState.react_eq_some hcause
  rw [h.filter_eq] at hline
  rw [streamOf?_eq filter, hline] at hchange
  exact (h.streams id).contradicts hline hchange

/-- **A line is accepted only if it agrees.** -/
theorem consistent (h : s.Reflects filter log) (haccepted : (s.readLine line).2 = none) :
    Consistent filter log line := by
  rw [readLine_eq] at haccepted
  cases hline : announcement? filter line with
  | none => unfold Consistent; rw [hline]; trivial
  | some found =>
    obtain ⟨id, announced⟩ := found
    obtain ⟨c, hchange, -⟩ := StreamState.react_eq_none haccepted (h.filter_eq ▸ hline)
    rw [streamOf?_eq filter, hline] at hchange
    exact (h.streams id).consistent hline hchange

/-- **An accepted line is remembered.** -/
theorem readLine (h : s.Reflects filter log) (haccepted : (s.readLine line).2 = none) :
    (s.readLine line).1.Reflects filter (log ++ [line]) := by
  rw [readLine_eq] at haccepted ⊢
  refine ⟨h.filter_eq, fun id => ?_⟩
  by_cases hstream : streamOf? line = some id
  · obtain ⟨announced, hline⟩ : ∃ announced, announcement? filter line = some (id, announced) := by
      rw [streamOf?_eq filter, Option.map_eq_some_iff] at hstream
      obtain ⟨⟨_, announced⟩, hline, rfl⟩ := hstream
      exact ⟨announced, hline⟩
    obtain ⟨c, hchange, hafter⟩ := StreamState.react_eq_none haccepted (h.filter_eq ▸ hline)
    rw [hstream] at hchange hafter ⊢
    rw [stateAt_apply_self]
    unfold reaction
    rw [hstream, hafter]
    exact (h.streams id).after hline hchange
  · show StreamState.Reflects filter (log ++ [line]) id (stateAt (s.apply _ _) (some id))
    rw [stateAt_apply_ne s (Ne.symm hstream)]
    exact (h.streams id).concat_ne hstream

end Reflects

end Scanner

/-! ## Whole logs -/

/-- **How a scan ends**: it has read all of a consistent log, or it has stopped
at a line that contradicts the consistent log before it. -/
theorem scan_ends (rules : ForestRules) (filter : Option PathFilter) (log : List (List Char)) :
    ((scan (.empty rules) filter log).2 = none ∧ IsConsistent filter log ∧
        (scan (.empty rules) filter log).1.Reflects filter log) ∨
      ∃ i, ∃ h : i < log.length, ∃ cause,
        (scan (.empty rules) filter log).2 = some ⟨i + 1, cause⟩ ∧
          IsConsistent filter (log.take i) ∧ Contradicts filter (log.take i) log[i] cause ∧
          (scan (.empty rules) filter (log.take i)).2 = none ∧
          (scan (.empty rules) filter log).1.forest
            = (scan (.empty rules) filter (log.take i)).1.forest := by
  induction log using List.reverseRecOn with
  | nil =>
    exact .inl ⟨rfl, fun _ hi => absurd hi (Nat.not_lt_zero _), Scanner.reflects_start rules filter⟩
  | append_singleton log line ih =>
    obtain ⟨hend, hconsistent, hreflects⟩ | ⟨i, hi, cause, hstop, hrest⟩ := ih
    · rw [scan_concat hend]
      cases hline : ((scan (.empty rules) filter log).1.readLine line).2 with
      | none =>
        exact .inl ⟨rfl, isConsistent_concat.2 ⟨hconsistent, hreflects.consistent hline⟩,
          hreflects.readLine hline⟩
      | some cause =>
        refine .inr ⟨log.length, by simp, cause, rfl, ?_⟩
        rw [List.take_left, List.getElem_concat_length rfl]
        exact ⟨hconsistent, hreflects.contradicts hline, hend,
          Scanner.forest_readLine_of_refused _ hline⟩
    · rw [scan_concat_of_refused hstop]
      refine .inr ⟨i, by rw [List.length_append]; omega, cause, hstop, ?_⟩
      rw [List.take_append_of_le_length (Nat.le_of_lt hi), List.getElem_append_left hi]
      exact hrest

/-- A scanner that has accepted a log remembers enough of it. -/
theorem reflects_scan {rules : ForestRules} (h : (scan (.empty rules) filter log).2 = none) :
    (scan (.empty rules) filter log).1.Reflects filter log := by
  obtain ⟨-, -, hreflects⟩ | ⟨i, hi, cause, hstop, -⟩ := scan_ends rules filter log
  · exact hreflects
  · rw [h] at hstop
    cases hstop

/-- **Exactly the consistent logs are accepted.** A scan that starts from
nothing gets to the end of a log if and only if every line agrees with those
before it. It stops at a line, for a reason, if and only if this is the first
line that does not agree, and this is why. The forest is then the one of the
lines before. -/
theorem scan_eq_none_iff_isConsistent (rules : ForestRules) (filter : Option PathFilter)
    (log : List (List Char)) :
    ((scan (.empty rules) filter log).2 = none ↔ IsConsistent filter log) ∧
      (∀ number cause, (scan (.empty rules) filter log).2 = some ⟨number, cause⟩ ↔
        ∃ i, ∃ h : i < log.length, number = i + 1 ∧ IsConsistent filter (log.take i) ∧
          Contradicts filter (log.take i) log[i] cause) ∧
      ∀ e, (scan (.empty rules) filter log).2 = some e →
        (scan (.empty rules) filter (log.take (e.line - 1))).2 = none ∧
          (scan (.empty rules) filter log).1.forest
            = (scan (.empty rules) filter (log.take (e.line - 1))).1.forest := by
  obtain ⟨hend, hconsistent, -⟩ | ⟨i, hi, cause, hstop, hbefore, hcause, haccepted, hforest⟩ :=
    scan_ends rules filter log
  · rw [hend]
    refine ⟨iff_of_true rfl hconsistent, fun number cause => ⟨nofun, ?_⟩, nofun⟩
    rintro ⟨i, hi, -, -, hcause⟩
    exact absurd (hconsistent i hi) hcause.not_consistent
  · rw [hstop]
    refine ⟨iff_of_false nofun fun h => hcause.not_consistent (h i hi),
      fun number cause' => ⟨?_, ?_⟩, ?_⟩
    · rintro ⟨⟩
      exact ⟨i, hi, rfl, hbefore, hcause⟩
    · rintro ⟨j, hj, rfl, hbefore', hcause'⟩
      obtain rfl : i = j := hcause.first_unique hbefore hcause' hbefore'
      rw [hcause.unique hcause']
    · rintro e ⟨⟩
      exact ⟨haccepted, hforest⟩

end IncludeForest
