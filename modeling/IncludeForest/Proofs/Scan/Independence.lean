import IncludeForest.Proofs.Log.Reordering
import IncludeForest.Proofs.Scan.Run

/-!
# Streams do not interfere

The lines of a log come in the order in which a machine happened to print them,
and a scan must not depend on it. Since a line reads and writes the state of
its own stream only, two neighbouring lines of different streams can change
places (`Scanner.readLine_comm`), and neither changes how the other is answered
(`Scanner.refusal_readLine`) – also if one of them, or both, are refused.

A reordering of a log is many such exchanges. So the scanner ends up the same,
and every stream gets the same answers in the same order. A scan that stops at
the first refused line stops in both logs or in neither; where it stops may
differ, since another line may come first.
-/

namespace IncludeForest

namespace Scanner

/-! ## Neighbouring lines -/

variable {line other : List Char}

/-- **A line does not change the reaction to another stream's line.** -/
theorem reaction_readLine (s : Scanner) (h : Log.streamOf? other ≠ Log.streamOf? line) :
    (s.readLine line).1.reaction other = s.reaction other := by
  rw [readLine_eq s line]
  unfold reaction
  rw [stateAt_apply_ne s h, rules_apply, filter_apply]

/-- A line does not change how another stream's line is answered. -/
theorem refusal_readLine (s : Scanner) (h : Log.streamOf? other ≠ Log.streamOf? line) :
    ((s.readLine line).1.readLine other).2 = (s.readLine other).2 := by
  rw [readLine_eq _ other, readLine_eq s other, reaction_readLine s h]

/-- **Lines of different streams can be read in either order.** -/
theorem readLine_comm (s : Scanner) (h : Log.streamOf? other ≠ Log.streamOf? line) :
    ((s.readLine line).1.readLine other).1 = ((s.readLine other).1.readLine line).1 := by
  rw [readLine_eq (s.readLine line).1, readLine_eq (s.readLine other).1, reaction_readLine s h,
    reaction_readLine s h.symm, readLine_eq s line, readLine_eq s other]
  exact apply_comm s h.symm _ _

/-! ## Whole logs -/

/-- A reordered log leads to the same scanner, and no stream is answered
differently. -/
theorem readAll_of_reordering {log log' : List (List Char)}
    (h : Log.Reordering Log.streamOf? log log') (s : Scanner) :
    (s.readAll log).1 = (s.readAll log').1 ∧
      Log.Reordering (fun answered => Log.streamOf? answered.1)
        (s.transcript log) (s.transcript log') := by
  -- The scanner varies, since what is exchanged stands behind other lines.
  induction h generalizing s with
  | refl log => exact ⟨rfl, .refl _⟩
  | cons line _ ih =>
    obtain ⟨hscanner, hanswers⟩ := ih (s.readLine line).1
    exact ⟨hscanner, hanswers.cons _⟩
  | @swap line other hne log =>
    have hcomm := readLine_comm s hne.symm
    refine ⟨congrArg (fun s => (s.readAll log).1) hcomm, ?_⟩
    rw [transcript_cons, transcript_cons, transcript_cons, transcript_cons, hcomm,
      refusal_readLine s hne, refusal_readLine s hne.symm]
    refine .swap ?_ _
    exact hne
  | trans _ _ ih ih' =>
    exact ⟨(ih s).1.trans (ih' s).1, (ih s).2.trans (ih' s).2⟩

/-- **Streams do not interfere.** Two logs that have the same lines of every
stream in the same order, and the same lines without a stream, lead to the same
forest and the same counters. Every stream is answered alike in both, line by
line, and the scan of the one gets to its end if and only if that of the other
does. -/
theorem readAll_eq_of_same_streams (forest : Forest) (filter : Option PathFilter)
    {log log' : List (List Char)}
    (h : ∀ source, log.filter (Log.streamOf? · = source) = log'.filter (Log.streamOf? · = source)) :
    let s := start forest filter
    (s.readAll log).1.forest = (s.readAll log').1.forest ∧
      (s.readAll log).1.tally = (s.readAll log').1.tally ∧
      (∀ source,
        (s.transcript log).filter (fun answered => Log.streamOf? answered.1 = source)
          = (s.transcript log').filter (fun answered => Log.streamOf? answered.1 = source)) ∧
      ((scan forest filter log).2 = none ↔ (scan forest filter log').2 = none) := by
  intro s
  obtain ⟨hscanner, hanswers⟩ := readAll_of_reordering (Log.reordering_iff.2 h) s
  refine ⟨congrArg (·.forest) hscanner, congrArg (·.tally) hscanner, hanswers.filter_eq, ?_⟩
  unfold scan
  rw [readLines_eq_none_iff, readLines_eq_none_iff]
  -- Being answered without a refusal is about the answers, not about their order.
  have hperm := hanswers.perm
  exact ⟨fun hall a ha => hall a (hperm.mem_iff.2 ha), fun hall a ha => hall a (hperm.mem_iff.1 ha)⟩

/-- Two streams and a line of neither, in two orders. The second project of
stream 1 is refused in both, as the fourth line or as the third. -/
theorem readAll_eq_of_same_streams_refused :
    let first := ["1>Project: a", "2>Project: b", "link", "1>Project: c", "2>main.cpp"]
    let second := ["2>Project: b", "1>Project: a", "1>Project: c", "2>main.cpp", "link"]
    let log := first.map String.toList
    let log' := second.map String.toList
    let s := start (.empty {}) none
    (s.readAll log).1.forest = (s.readAll log').1.forest ∧
      (s.transcript log).filter (fun answered => Log.streamOf? answered.1 = some 1)
        = (s.transcript log').filter (fun answered => Log.streamOf? answered.1 = some 1) ∧
      (s.readAll log).2 = [none, none, none, some (.duplicateProject 1 "c"), none] ∧
      (s.readAll log').2 = [none, none, some (.duplicateProject 1 "c"), none, none] := by
  intro first second log log' s
  have hlog : Log.Reordering Log.streamOf? log log' :=
    (Log.Reordering.swap (by decide) _).trans <| .cons _ <| .cons _ <|
      (Log.Reordering.swap (by decide) _).trans <| .cons _ <| .swap (by decide) _
  have h := readAll_eq_of_same_streams (.empty {}) none hlog.filter_eq
  exact ⟨h.1, h.2.2.1 (some 1), by decide, by decide⟩

end Scanner

end IncludeForest
