import IncludeForest.Proofs.Log.Notes
import IncludeForest.Proofs.Scan.Accounting

/-!
# Lines that could be missing

Two kinds of lines write nothing but a count: those that are refused, and those
that a filter drops. A log without them should lead to the same forest, and all
the other lines should be answered alike. It is not enough that the forest stays
as it was. A refused module line could still have become the one that later
notes belong to, and a dropped note could have been told from the others by
something that also goes wrong for lines that are kept.

`Scanner.counting` is the scanner after such a line: the same but for the
counters. Counters are added to and never read, so a scanner that has counted
more reads every line the same way (`Scanner.readAll_counting`) – also if it
uses another filter, as long as both make the same of the lines. From there each
kind of lines can be deleted by one induction over the log.
-/

namespace IncludeForest

open Log

namespace Log

/-- **Whether a filter drops a line.** -/
def isDropped (f : PathFilter) (line : List Char) : Bool :=
  (announcement? (some f) line).any (·.2 == .filtered)

variable {f f' : PathFilter} {line : List Char}

theorem isDropped_iff :
    isDropped f line = true ↔ ∃ id, announcement? (some f) line = some (id, .filtered) := by
  unfold isDropped
  simp only [Option.any_eq_true, beq_iff_eq, Prod.exists, ↓existsAndEq, and_true]

/-- A line that a filter does not drop announces what it does without a
filter. -/
theorem announcement?_of_isDropped_eq_false (h : isDropped f line = false) :
    announcement? (some f) line = announcement? none line := by
  cases hsplit : splitStream? line with
  | none =>
    unfold announcement?
    rw [hsplit]
    rfl
  | some found =>
    obtain ⟨id, rest⟩ := found
    have hline (filter : Option PathFilter) :
        announcement? filter line = some (id, .ofRest filter rest) :=
      announcement?_eq_some_iff.2 ⟨rest, hsplit, rfl⟩
    rw [hline, hline]
    obtain ⟨announced, -, hannounced⟩ | ⟨raw, hraw⟩ := ofRest_cases rest
    · rw [hannounced, hannounced]
    · have hkept : ¬ f.accepts raw = true := by
        intro haccepts
        have hdropped : isDropped f line = true :=
          isDropped_iff.2 ⟨id, by rw [hline, hraw, ofNote_some, if_pos haccepts]⟩
        rw [hdropped] at h
        cases h
      rw [hraw, hraw, ofNote_some, if_neg hkept]

/-- Without a filter no note is dropped. -/
theorem ofNote_none_ne_filtered (raw : List Char) : Announcement.ofNote none raw ≠ .filtered := by
  obtain hraw | ⟨level, path, hraw, -⟩ := ofNote_none raw <;> rw [hraw] <;> nofun

/-- Without a filter no line is announced as dropped. -/
theorem announcement?_none_ne_filtered {id : StreamId} :
    announcement? none line ≠ some (id, .filtered) := by
  rw [Ne, announcement?_eq_some_iff]
  rintro ⟨rest, -, hrest⟩
  unfold Announcement.ofRest at hrest
  split at hrest
  · cases hrest
  · split at hrest
    · cases hrest
    · cases hnote : announcedNote? rest with
      | none =>
        rw [hnote] at hrest
        cases hrest
      | some raw =>
        rw [hnote] at hrest
        exact ofNote_none_ne_filtered raw hrest

/-- **A filter with more patterns drops more lines.** -/
theorem isDropped_mono (hsub : f.patterns ⊆ f'.patterns) (h : isDropped f line = true) :
    isDropped f' line = true := by
  obtain ⟨id, hline⟩ := isDropped_iff.1 h
  obtain ⟨rest, hsplit, hrest⟩ := announcement?_eq_some_iff.1 hline
  refine isDropped_iff.2 ⟨id, announcement?_eq_some_iff.2 ⟨rest, hsplit, ?_⟩⟩
  obtain ⟨announced, -, hannounced⟩ | ⟨raw, hraw⟩ := ofRest_cases rest
  · rwa [hannounced] at hrest ⊢
  · rw [hraw, ofNote_some] at hrest ⊢
    cases haccepts : f.accepts raw with
    | true =>
      obtain ⟨p, hp, hmatch⟩ := List.any_eq_true.1 haccepts
      exact if_pos (List.any_eq_true.2 ⟨p, hsub hp, hmatch⟩)
    | false =>
      -- Not the filter but the note itself would have to say that it is dropped.
      rw [haccepts, if_neg Bool.false_ne_true] at hrest
      exact absurd hrest (ofNote_none_ne_filtered raw)

end Log

namespace Scanner

/-! ## More counted -/

/-- **The scanner with another filter, and with more counted.** -/
def counting (s : Scanner) (filter : Option PathFilter) (t : Tally) : Scanner :=
  { s with filter := filter, tally := s.tally + t }

variable (s : Scanner) (filter : Option PathFilter)

theorem counting_counting (filter' : Option PathFilter) (t u : Tally) :
    (s.counting filter' t).counting filter u = s.counting filter (t + u) := by
  unfold counting
  dsimp only
  rw [Tally.add_assoc]

/-- **What has been counted is not read**, nor is the filter but for what it
makes of the line. -/
theorem readLine_counting (t : Tally) {line : List Char}
    (h : announcement? filter line = announcement? s.filter line) :
    (s.counting filter t).readLine line
      = ((s.readLine line).1.counting filter t, (s.readLine line).2) := by
  have hreaction : (s.counting filter t).reaction line = s.reaction line := by
    show (s.stateAt (streamOf? line)).react s.forest.rules filter line = _
    unfold reaction StreamState.react
    rw [h]
  rw [readLine_eq, readLine_eq, hreaction]
  refine Prod.ext ?_ rfl
  show Scanner.mk _ filter _ (s.tally + t + (s.reaction line).1.counted)
    = Scanner.mk _ filter _ (s.tally + (s.reaction line).1.counted + t)
  rw [Tally.add_right_comm]
  rfl

/-- **A scanner that has counted more** reads a log to the same end, and gives
the same answers. -/
theorem readAll_counting (t : Tally) {log : List (List Char)}
    (h : ∀ line ∈ log, announcement? filter line = announcement? s.filter line) :
    (s.counting filter t).readAll log
      = ((s.readAll log).1.counting filter t, (s.readAll log).2) := by
  induction log generalizing s with
  | nil => rfl
  | cons line log ih =>
    obtain ⟨hline, hlog⟩ := List.forall_mem_cons.1 h
    rw [readAll, readAll, s.readLine_counting filter t hline]
    dsimp only
    rw [ih (s.readLine line).1 (s.filter_readLine line ▸ hlog)]

/-! ## Lines that are refused -/

/-- A refused line is counted, and that is all. -/
theorem readLine_of_refused {line : List Char} {cause : ForestError}
    (h : (s.readLine line).2 = some cause) :
    (s.readLine line).1 = s.counting s.filter { lines := 1 } := by
  have hread := s.reads_readLine line
  rw [h] at hread
  generalize (s.readLine line).1 = s' at hread ⊢
  cases hread
  rfl

/-- **The lines of a log that are not refused.** -/
def accepted (log : List (List Char)) : List (List Char) :=
  ((s.transcript log).filter (·.2.isNone)).map (·.1)

/-- How many lines of a log are refused. -/
def refused (log : List (List Char)) : Nat :=
  (s.readAll log).2.countP (·.isSome)

theorem accepted_cons_of_none {line : List Char} (h : (s.readLine line).2 = none)
    (log : List (List Char)) :
    s.accepted (line :: log) = line :: (s.readLine line).1.accepted log := by
  unfold accepted
  rw [transcript_cons, List.filter_cons_of_pos (by rw [h]; rfl), List.map_cons]

/-- A refused line changes nothing about which lines are accepted behind it. -/
theorem accepted_cons_of_some {line : List Char} {cause : ForestError}
    (h : (s.readLine line).2 = some cause) (log : List (List Char)) :
    s.accepted (line :: log) = s.accepted log := by
  unfold accepted
  rw [transcript_cons, List.filter_cons_of_neg (by rw [h]; exact Bool.false_ne_true),
    s.readLine_of_refused h]
  unfold transcript
  rw [s.readAll_counting s.filter _ fun _ _ => rfl]

/-- **Refused lines can be deleted**: the others are accepted then too, and lead
to the same scanner, but for the count of lines. -/
theorem readAll_accepted (log : List (List Char)) :
    (∀ refusal ∈ (s.readAll (s.accepted log)).2, refusal = none) ∧
      (s.readAll log).1
        = (s.readAll (s.accepted log)).1.counting s.filter { lines := s.refused log } := by
  induction log generalizing s with
  | nil => exact ⟨nofun, rfl⟩
  | cons line log ih =>
    have hcount : s.refused (line :: log)
        = (s.readLine line).1.refused log + (s.readLine line).2.isSome.toNat := by
      show ((s.readLine line).2 :: ((s.readLine line).1.readAll log).2).countP (·.isSome) = _
      rw [List.countP_cons]
      cases (s.readLine line).2 <;> rfl
    have hread : (s.readAll (line :: log)).1 = ((s.readLine line).1.readAll log).1 := rfl
    rw [hread, hcount]
    cases hrefusal : (s.readLine line).2 with
    | none =>
      obtain ⟨hnone, hscanner⟩ := ih (s.readLine line).1
      rw [accepted_cons_of_none s hrefusal, ← s.filter_readLine line]
      exact ⟨List.forall_mem_cons.2 ⟨hrefusal, hnone⟩, hscanner⟩
    | some cause =>
      obtain ⟨hnone, hscanner⟩ := ih s
      have hrefused : (s.counting s.filter { lines := 1 }).refused log = s.refused log := by
        unfold refused
        rw [s.readAll_counting s.filter _ fun _ _ => rfl]
      rw [accepted_cons_of_some s hrefusal, s.readLine_of_refused hrefusal, hrefused,
        s.readAll_counting s.filter _ fun _ _ => rfl, hscanner, counting_counting]
      exact ⟨hnone, rfl⟩

/-- **A refused line leaves no trace.** From a log that is read to its end,
whatever is refused, delete the lines that were refused. Then none is refused,
the forest is the same, every stream started the same module last, and the
counters are the same, but that fewer lines were read, by as many as were
deleted. -/
theorem readAll_of_refused_deleted (forest : Forest) (filter : Option PathFilter)
    (log : List (List Char)) :
    let s := start forest filter
    let kept := ((s.transcript log).filter (·.2.isNone)).map (·.1)
    let deleted := (s.readAll log).2.countP (·.isSome)
    kept.length + deleted = log.length ∧
      (∀ refusal ∈ (s.readAll kept).2, refusal = none) ∧
      (s.readAll kept).1.forest = (s.readAll log).1.forest ∧
      (s.readAll kept).1.latest = (s.readAll log).1.latest ∧
      (s.readAll log).1.tally =
        { (s.readAll kept).1.tally with
          lines := (s.readAll kept).1.tally.lines + deleted } := by
  intro s kept deleted
  obtain ⟨hnone, hscanner⟩ := s.readAll_accepted log
  have htally := congrArg (·.tally) hscanner
  refine ⟨?_, hnone, congrArg (·.forest) hscanner.symm, congrArg (·.latest) hscanner.symm, htally⟩
  have hlines : (s.readAll log).1.tally.lines = (s.readAll kept).1.tally.lines + deleted :=
    congrArg (·.lines) htally
  rw [lines_readAll, lines_readAll] at hlines
  omega

/-! ## Lines that a filter drops -/

variable {f : PathFilter}

/-- A dropped line is counted as read and as dropped, and that is all. -/
theorem readLine_of_isDropped {line : List Char} (h : isDropped f line = true) :
    (s.counting (some f) {}).readLine line
      = (s.counting (some f) { lines := 1, filtered := 1 }, none) := by
  obtain ⟨id, hline⟩ := isDropped_iff.1 h
  have hreaction : (s.counting (some f) {}).reaction line
      = ({ counted := { lines := 1, filtered := 1 } }, none) := by
    show (s.stateAt (streamOf? line)).react s.forest.rules (some f) line = _
    unfold StreamState.react
    rw [hline]
    rfl
  rw [readLine_eq, hreaction]
  cases streamOf? line <;> rfl

/-- **To filter a log is to delete the lines that the filter drops.** -/
theorem readAll_kept (hs : s.filter = none) (log : List (List Char)) :
    let kept := log.filter fun line => !isDropped f line
    let dropped := log.countP (isDropped f)
    let filtering := s.counting (some f) {}
    (filtering.readAll log).1
        = (s.readAll kept).1.counting (some f) { lines := dropped, filtered := dropped } ∧
      (filtering.transcript log).filter (fun answered => !isDropped f answered.1)
        = s.transcript kept ∧
      ∀ answered ∈ filtering.transcript log, isDropped f answered.1 = true → answered.2 = none := by
  induction log generalizing s with
  | nil => exact ⟨rfl, rfl, nofun⟩
  | cons line log ih =>
    intro kept dropped filtering
    have hread : (filtering.readAll (line :: log)).1
        = ((filtering.readLine line).1.readAll log).1 := rfl
    rw [hread, transcript_cons]
    cases hline : isDropped f line with
    | true =>
      obtain ⟨hscanner, htranscript, hanswers⟩ := ih s hs
      have hkept : kept = log.filter fun line => !isDropped f line :=
        List.filter_cons_of_neg (by simp [hline])
      have hdropped : dropped = log.countP (isDropped f) + 1 := List.countP_cons_of_pos hline
      -- The dropped line is counted, and the rest is read as if it were not there.
      have hmore : filtering.readLine line
          = (filtering.counting (some f) { lines := 1, filtered := 1 }, none) :=
        s.readLine_of_isDropped hline
      have hrest : (filtering.counting (some f) { lines := 1, filtered := 1 }).readAll log = _ :=
        filtering.readAll_counting (some f) { lines := 1, filtered := 1 } fun _ _ => rfl
      have hsame : (filtering.counting (some f) { lines := 1, filtered := 1 }).transcript log
          = filtering.transcript log := by
        unfold transcript
        rw [hrest]
      rw [hmore]
      dsimp only
      rw [hrest, hsame, hkept, hdropped, List.filter_cons_of_neg (by simp [hline])]
      refine ⟨?_, htranscript, List.forall_mem_cons.2 ⟨fun _ => rfl, hanswers⟩⟩
      rw [hscanner, counting_counting]
      rfl
    | false =>
      obtain ⟨hscanner, htranscript, hanswers⟩ :=
        ih (s.readLine line).1 ((s.filter_readLine line).trans hs)
      have hkept : kept = line :: log.filter fun line => !isDropped f line :=
        List.filter_cons_of_pos (by simp [hline])
      have hdropped : dropped = log.countP (isDropped f) :=
        List.countP_cons_of_neg (by simp [hline])
      have hmore : filtering.readLine line
          = ((s.readLine line).1.counting (some f) {}, (s.readLine line).2) :=
        s.readLine_counting (some f) {}
          (hs ▸ announcement?_of_isDropped_eq_false hline)
      rw [hmore, hkept, hdropped, List.filter_cons_of_pos (by simp [hline]), transcript_cons,
        htranscript]
      refine ⟨hscanner, rfl, List.forall_mem_cons.2 ⟨fun hdrop => ?_, hanswers⟩⟩
      rw [hline] at hdrop
      cases hdrop

/-- Without a filter no line is counted as dropped. -/
theorem filtered_readAll_of_filter_eq_none (h : s.filter = none ∧ s.tally.filtered = 0)
    (log : List (List Char)) :
    (s.readAll log).1.filter = none ∧ (s.readAll log).1.tally.filtered = 0 := by
  refine readAll_induction (P := fun s => s.filter = none ∧ s.tally.filtered = 0) ?_ h log
  intro s s' line refusal h hread
  cases hread with
  | filtered hline =>
    rw [h.1] at hline
    exact absurd hline announcement?_none_ne_filtered
  | withoutStream | idle | project | module | header | refused => exact h

/-- **A filter acts as if the lines that it drops were deleted.** Every line is
either dropped, or announces what it does without the filter. With the filter a
log leads to the forest that the log without the dropped lines leads to when
there is no filter; the other lines are answered alike, and no dropped line is
refused; the dropped lines are counted as read and as dropped, and all other
counters are the same. A filter with more patterns drops more lines, and those
that it does not drop announce what they did. -/
theorem readAll_of_dropped_deleted (forest : Forest) (f : PathFilter) (log : List (List Char)) :
    let s := start forest (some f)
    let s' := start forest none
    let kept := log.filter fun line => !isDropped f line
    let dropped := log.countP (isDropped f)
    (∀ line, (∃ id, announcement? (some f) line = some (id, .filtered)) ∨
      announcement? (some f) line = announcement? none line) ∧
    (s.readAll log).1.forest = (s'.readAll kept).1.forest ∧
    (s.transcript log).filter (fun answered => !isDropped f answered.1) = s'.transcript kept ∧
    (∀ answered ∈ s.transcript log, isDropped f answered.1 = true → answered.2 = none) ∧
    (s.readAll log).1.tally =
      { (s'.readAll kept).1.tally with
        lines := (s'.readAll kept).1.tally.lines + dropped
        filtered := dropped } ∧
    ∀ f' : PathFilter, f.patterns ⊆ f'.patterns → ∀ line,
      (isDropped f line = true → isDropped f' line = true) ∧
        (isDropped f' line = false → announcement? (some f') line = announcement? (some f) line) := by
  intro s s' kept dropped
  obtain ⟨hscanner, htranscript, hanswers⟩ := s'.readAll_kept (f := f) rfl log
  refine ⟨fun line => ?_, congrArg (·.forest) hscanner, htranscript, hanswers, ?_, ?_⟩
  · cases hline : isDropped f line with
    | true => exact .inl (isDropped_iff.1 hline)
    | false => exact .inr (announcement?_of_isDropped_eq_false hline)
  · have hnone := (s'.filtered_readAll_of_filter_eq_none ⟨rfl, rfl⟩ kept).2
    have htally : (s.readAll log).1.tally
        = (s'.readAll kept).1.tally + { lines := dropped, filtered := dropped } :=
      congrArg (·.tally) hscanner
    rw [htally]
    show Tally.mk _ _ _ ((s'.readAll kept).1.tally.filtered + dropped) _ _ _ _ _ _ _ = _
    rw [hnone, Nat.zero_add]
    rfl
  · intro f' hsub line
    refine ⟨isDropped_mono hsub, fun hline => ?_⟩
    have hline' : isDropped f line = false := by
      refine Bool.eq_false_iff.2 fun hdropped => ?_
      rw [isDropped_mono hsub hdropped] at hline
      cases hline
    rw [announcement?_of_isDropped_eq_false hline, announcement?_of_isDropped_eq_false hline']

/-- Two filters, and a log with a note that both drop, one that only the second
drops, and one that none does. -/
theorem readAll_of_dropped_deleted_twice :
    let pattern (word : String) : Pattern := .sequence (word.toList.map fun c => .char (.range c c))
    let f : PathFilter := ⟨[pattern "std"]⟩
    let f' : PathFilter := ⟨[pattern "std", pattern "sys"]⟩
    let line (rest : String) := ("1> Note: including file: " ++ rest).toList
    f.patterns ⊆ f'.patterns ∧
      isDropped f (line "std.h") = true ∧ isDropped f' (line "std.h") = true ∧
      isDropped f (line "sys.h") = false ∧ isDropped f' (line "sys.h") = true ∧
      isDropped f' (line " a.h") = false ∧
      announcement? (some f') (line " a.h") = announcement? (some f) (line " a.h") ∧
      announcement? (some f) (line " a.h") = some (1, .header 1 "a.h") := by
  intro pattern f f' line
  have hsub : f.patterns ⊆ f'.patterns := fun p hp =>
    List.mem_cons.2 (.inl (List.mem_singleton.1 hp))
  obtain ⟨-, -, -, -, -, hmore⟩ := readAll_of_dropped_deleted (.empty {}) f []
  have hdropped : isDropped f (line "std.h") = true := by decide +kernel
  have hkept : isDropped f' (line " a.h") = false := by decide +kernel
  exact ⟨hsub, hdropped, (hmore f' hsub _).1 hdropped, by decide +kernel, by decide +kernel, hkept,
    (hmore f' hsub _).2 hkept, by decide +kernel⟩

end Scanner

end IncludeForest
