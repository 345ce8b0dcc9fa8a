import Mathlib.Data.List.Induction
import IncludeForest.Proofs.Scan.Locality

/-!
# Reading line after line

There are two ways to read a log. `readAll` reads all of it and notes for every
line why it was refused, if it was; `transcript` has the lines beside these
answers. `readLines` stops at the first line that is refused. As long as none
is, the two are the same, so the second gets to the end exactly if the first
notes no refusal.

`Scanner.Reads` says what a line can do to a scanner: of seven things, one. What
all of them keep holds after every log (`readAll_induction`), and what the
accepted ones keep after every log that is accepted (`scan_induction`). The
equations are what an induction over a log needs: from the front (`transcript_cons`,
`readLines_cons`) or from the end (`scan_concat`).
-/

namespace IncludeForest

namespace Scanner

/-- **What reading a line can do to a scanner**, and why the line was refused,
if it was. -/
inductive Reads (s : Scanner) (line : List Char) : Scanner → Option ForestError → Prop where
  /-- The line belongs to no stream. -/
  | withoutStream (hline : Log.announcement? s.filter line = none) :
      s.Reads line { s with tally := s.tally.addLine.addWithoutStream } none
  /-- The line announces nothing. -/
  | idle {id : StreamId} (hline : Log.announcement? s.filter line = some (id, .nothing)) :
      s.Reads line { s with tally := s.tally.addLine.addIdle } none
  /-- The line is a note that the filter drops. -/
  | filtered {id : StreamId} (hline : Log.announcement? s.filter line = some (id, .filtered)) :
      s.Reads line { s with tally := s.tally.addLine.addFiltered } none
  /-- A project starts. -/
  | project {id : StreamId} {name : String} {forest : Forest}
      (hline : Log.announcement? s.filter line = some (id, .project name))
      (h : s.forest.startProject id name = .ok forest) :
      s.Reads line { s with forest := forest, tally := s.tally.addLine.addProject } none
  /-- A module starts. -/
  | module {id : StreamId} {name : String} {forest : Forest}
      (hline : Log.announcement? s.filter line = some (id, .module name))
      (h : s.forest.startModule id name = .ok forest) :
      s.Reads line
        { s with
          forest := forest
          latest := s.latest.insert id name
          tally := s.tally.addLine.addModule } none
  /-- A note is inserted. -/
  | header {id : StreamId} {level : Nat} {path : String} {forest : Forest} {outcome : Insertion}
      (hline : Log.announcement? s.filter line = some (id, .header level path))
      (h : s.forest.insertNote id (s.target id) level path = .ok (forest, outcome)) :
      s.Reads line { s with forest := forest, tally := s.tally.addLine.addHeader outcome } none
  /-- The line is refused. -/
  | refused (cause : ForestError) : s.Reads line { s with tally := s.tally.addLine } (some cause)

/-- **Reading a line does one of these.** -/
theorem reads_readLine (s : Scanner) (line : List Char) :
    s.Reads line (s.readLine line).1 (s.readLine line).2 := by
  unfold readLine hear
  dsimp only
  cases hline : Log.announcement? s.filter line with
  | none => exact .withoutStream hline
  | some found =>
    obtain ⟨id, announced⟩ := found
    unfold perform
    -- In the first three cases it is the forest that accepts or refuses.
    cases announced with
    | project name =>
      dsimp only
      cases h : s.forest.startProject id name with
      | ok forest => exact .project hline h
      | error cause => exact .refused cause
    | module name =>
      dsimp only
      cases h : s.forest.startModule id name with
      | ok forest => exact .module hline h
      | error cause => exact .refused cause
    | header level path =>
      have htarget : Scanner.target { s with tally := s.tally.addLine } id = s.target id := rfl
      dsimp only
      rw [htarget]
      cases h : s.forest.insertNote id (s.target id) level path with
      | ok inserted => exact .header hline h
      | error cause => exact .refused cause
    | filtered => exact .filtered hline
    | nothing => exact .idle hline

/-- **What holds and is kept by every line holds after every log.** -/
theorem readAll_induction {P : Scanner → Prop}
    (hread : ∀ {s s' : Scanner} {line : List Char} {refusal : Option ForestError},
      P s → s.Reads line s' refusal → P s') {s : Scanner} (h : P s) (log : List (List Char)) :
    P (s.readAll log).1 := by
  induction log generalizing s with
  | nil => exact h
  | cons line log ih => exact ih (hread h (s.reads_readLine line))

/-- A refused line leaves the forest as it was. -/
theorem forest_readLine_of_refused (s : Scanner) {line : List Char} {cause : ForestError}
    (h : (s.readLine line).2 = some cause) :
    (s.readLine line).1.forest = s.forest := by
  rw [readLine_eq] at h ⊢
  obtain ⟨id, announced, -, -, hchange⟩ := StreamState.react_eq_some h
  show putProject s.forest (Log.streamOf? line) (s.reaction line).1.project = s.forest
  unfold reaction
  rw [hchange]
  cases Log.streamOf? line <;> rfl

/-- **Every line of a log beside its answer**: why it was refused, if it was. -/
def transcript (s : Scanner) (log : List (List Char)) : List (List Char × Option ForestError) :=
  log.zip (s.readAll log).2

theorem transcript_cons (s : Scanner) (line : List Char) (log : List (List Char)) :
    s.transcript (line :: log)
      = (line, (s.readLine line).2) :: (s.readLine line).1.transcript log := rfl

theorem readLines_cons (s : Scanner) (number : Nat) (line : List Char) (log : List (List Char)) :
    s.readLines number (line :: log) =
      match (s.readLine line).2 with
      | some cause => ((s.readLine line).1, some ⟨number, cause⟩)
      | none => (s.readLine line).1.readLines (number + 1) log := by
  rw [readLines]
  obtain ⟨s', _ | cause⟩ := s.readLine line <;> rfl

/-- The scan of some lines gets to their end exactly if reading all of them
refuses none. -/
theorem readLines_eq_none_iff (s : Scanner) (number : Nat) (log : List (List Char)) :
    (s.readLines number log).2 = none ↔ ∀ answered ∈ s.transcript log, answered.2 = none := by
  induction log generalizing s number with
  | nil => exact ⟨fun _ => nofun, fun _ => rfl⟩
  | cons line log ih =>
    rw [transcript_cons, List.forall_mem_cons, readLines_cons, ← ih _ (number + 1)]
    cases (s.readLine line).2 with
    | some cause => exact ⟨nofun, fun h => nomatch h.1⟩
    | none => exact ⟨fun h => ⟨rfl, h⟩, fun h => h.2⟩

/-- Reading one line more, when the lines before it have been read or one of
them has been refused. -/
theorem readLines_concat (s : Scanner) (number : Nat) (log : List (List Char)) (line : List Char) :
    s.readLines number (log ++ [line]) =
      match s.readLines number log with
      | (s', some e) => (s', some e)
      | (s', none) => s'.readLines (number + log.length) [line] := by
  induction log generalizing s number with
  | nil => rfl
  | cons first log ih =>
    have hnumber : number + 1 + log.length = number + (first :: log).length := by
      rw [List.length_cons]
      omega
    rw [List.cons_append, readLines_cons, readLines_cons, ih, hnumber]
    cases (s.readLine first).2 <;> rfl

end Scanner

/-- **The scan of one line more**, when none before it is refused. -/
theorem scan_concat {forest : Forest} {filter : Option PathFilter} {log : List (List Char)}
    (h : (scan forest filter log).2 = none) (line : List Char) :
    scan forest filter (log ++ [line]) =
      (((scan forest filter log).1.readLine line).1,
        ((scan forest filter log).1.readLine line).2.map (LogError.mk (log.length + 1) ·)) := by
  unfold scan at h ⊢
  rw [Scanner.readLines_concat]
  generalize (Scanner.start forest filter).readLines 1 log = result at h ⊢
  obtain ⟨s, refusal⟩ := result
  obtain rfl : refusal = none := h
  dsimp only
  rw [Scanner.readLines_cons, Nat.add_comm 1]
  cases (s.readLine line).2 <;> rfl

/-- A scan that has stopped does not go on. -/
theorem scan_concat_of_refused {forest : Forest} {filter : Option PathFilter}
    {log : List (List Char)} {e : LogError} (h : (scan forest filter log).2 = some e)
    (line : List Char) : scan forest filter (log ++ [line]) = scan forest filter log := by
  unfold scan at h ⊢
  rw [Scanner.readLines_concat]
  generalize (Scanner.start forest filter).readLines 1 log = result at h ⊢
  obtain ⟨s, refusal⟩ := result
  obtain rfl : refusal = some e := h
  rfl

/-- **What holds at the beginning and is kept by every accepted line** holds when
a log has been accepted. -/
theorem scan_induction {forest : Forest} {filter : Option PathFilter}
    {P : List (List Char) → Scanner → Prop} (hstart : P [] (.start forest filter))
    (hread : ∀ {log : List (List Char)} {s s' : Scanner} {line : List Char},
      P log s → s.Reads line s' none → P (log ++ [line]) s')
    (log : List (List Char)) (h : (scan forest filter log).2 = none) :
    P log (scan forest filter log).1 := by
  induction log using List.reverseRecOn with
  | nil => exact hstart
  | append_singleton log line ih =>
    cases hbefore : (scan forest filter log).2 with
    | some e =>
      rw [scan_concat_of_refused hbefore, hbefore] at h
      cases h
    | none =>
      rw [scan_concat hbefore] at h ⊢
      have hline := (scan forest filter log).1.reads_readLine line
      rw [Option.map_eq_none_iff.1 h] at hline
      exact hread (ih hbefore) hline

end IncludeForest
