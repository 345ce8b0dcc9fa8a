import IncludeForest.Proofs.Forest.Run
import IncludeForest.Proofs.View.Entries
import IncludeForest.Proofs.View.Sequences
import IncludeForest.View.Outline

/-!
# Styles change nothing that is shown

A line with styles is the line without them, and sequences; and every style is taken
back on its line. Both follow for whatever is written from two conditions on its
segments: their styles are made of sequences, and their texts hold none
(`Segment.IsClean`). For the second, no painted text may end a line.

That the styles of the outline are made of sequences is to be seen from where its lines
are put together. That the texts hold none is to be seen from what the lines say, since
no text of a segment holds what the line does not, however the path of a header is cut.
A line says a name, markers and a count, and no character of the latter two is one that
would not be shown (`Entry.mem_name_of_mem_plainText`). So `styles_exact` has
conditions on the names only.
-/

namespace IncludeForest.View

open Text

/-! ## Segments and lines -/

/-- Whether a style is made of sequences. -/
def Style.IsMade (style : Style) : Prop :=
  ∀ code ∈ style.codes, IsSequence code.toList

/-- **Whether a segment can be told from its style.** -/
structure Segment.IsClean (s : Segment) : Prop where
  /-- The style is made of sequences. -/
  codes : s.style.IsMade
  /-- The text holds none. -/
  text : escape ∉ s.text.toList

/-- Whether a segment that is painted ends no line. -/
def Segment.StaysOnLine (s : Segment) : Prop :=
  s.style.codes ≠ [] → '\n' ∉ s.text.toList

/-- A segment is written as its text, or with its style around it. -/
theorem Segment.write_true (s : Segment) :
    s.write true = s.text ∨
      s.style.codes ≠ [] ∧ s.write true = String.join s.style.codes ++ s.text ++ reset := by
  unfold Segment.write
  split
  · next h => exact .inr ⟨fun hnone => h.2.1 (List.isEmpty_iff.2 hnone), rfl⟩
  · exact .inl rfl

/-- **A painted segment is its text, and sequences.** -/
theorem Segment.IsClean.paints {s : Segment} (hs : s.IsClean) :
    Paints (s.write true).toList (s.write false).toList := by
  rw [s.write_false]
  rcases s.write_true with h | ⟨-, h⟩
  · rw [h]
    exact .of_plain hs.text
  · rw [h, String.toList_append, String.toList_append]
    have hpainted := ((Paints.of_codes hs.codes).append (.of_plain hs.text)).append
      (.of_sequence isSequence_reset)
    rwa [List.nil_append, List.append_nil] at hpainted

/-- **A painted segment takes its style back.** -/
theorem Segment.IsClean.keepsClosed {s : Segment} (hs : s.IsClean) (hline : s.StaysOnLine) :
    KeepsClosed (s.write true).toList := by
  rcases s.write_true with h | ⟨hcodes, h⟩
  · rw [h]
    exact .of_plain hs.text
  · intro rest hrest
    rw [h, String.toList_append, String.toList_append, List.append_assoc, List.append_assoc]
    have hreset : Closed (reset.toList ++ rest) :=
      closed_sequence_append isSequence_reset (absurd rfl) hrest
    exact (closed_join_append hs.codes ⟨s.text.toList, rest, rfl, hline hcodes⟩
      (closed_append hs.text hreset)).2

theorem escape_notMem_spaces (n : Nat) : escape ∉ (String.ofList (List.replicate n ' ')).toList := by
  rw [String.toList_ofList]
  exact fun hmem => absurd (List.eq_of_mem_replicate hmem) (by decide)

/-- **Lines without styles are lines with styles that leave them out.** -/
theorem paints_write {lines : List Line} (h : ∀ line ∈ lines, ∀ s ∈ line.segments, s.IsClean) :
    Paints (write true lines).toList (write false lines).toList := by
  refine Paints.join fun line hline => ?_
  unfold Line.write
  rw [String.toList_append, String.toList_append, String.toList_append, String.toList_append]
  have hsegments := Paints.join fun s hs => (h line hline s hs).paints
  exact ((Paints.of_plain (escape_notMem_spaces _)).append hsegments).append
    (.of_plain (by decide))

/-- **No style reaches beyond its line.** -/
theorem keepsClosed_write {lines : List Line}
    (h : ∀ line ∈ lines, ∀ s ∈ line.segments, s.IsClean ∧ s.StaysOnLine) :
    KeepsClosed (write true lines).toList := by
  refine KeepsClosed.join fun line hline => ?_
  unfold Line.write
  rw [String.toList_append, String.toList_append]
  have hsegments := KeepsClosed.join fun s hs =>
    (h line hline s hs).1.keepsClosed (h line hline s hs).2
  exact ((KeepsClosed.of_plain (escape_notMem_spaces _)).append hsegments).append
    (.of_plain (by decide))

/-! ## The styles of the outline -/

namespace Style

theorem isMade_plain : Style.plain.IsMade :=
  nofun

/-- A style of one sequence is made of it. -/
theorem isMade_singleton {code : String} (hcode : IsSequence code.toList) :
    (Style.mk [code]).IsMade :=
  fun _ h => List.mem_singleton.1 h ▸ hcode

theorem isMade_cycle : Style.cycle.IsMade :=
  isMade_singleton ⟨['3', '1'], rfl, List.all_eq_true.1 rfl⟩

theorem isMade_cyclePath : Style.cyclePath.IsMade :=
  isMade_singleton ⟨['3', '3'], rfl, List.all_eq_true.1 rfl⟩

theorem isMade_dim : Style.dim.IsMade :=
  isMade_singleton ⟨['2'], rfl, List.all_eq_true.1 rfl⟩

theorem IsMade.hit {around : Style} (h : around.IsMade) : (Style.hit around).IsMade :=
  List.forall_mem_cons.2 ⟨⟨['1', ';', '4'], rfl, List.all_eq_true.1 rfl⟩, h⟩

end Style

theorem isMade_headerStyle (h : Header) : (headerStyle h).IsMade := by
  unfold headerStyle
  split
  · exact Style.isMade_cycle
  · split
    · exact Style.isMade_cyclePath
    · exact Style.isMade_plain

theorem isMade_marker (text : String) : ∀ s ∈ marker text, s.style.IsMade :=
  List.forall_mem_cons.2 ⟨Style.isMade_plain, List.forall_mem_singleton.2 Style.isMade_dim⟩

theorem isMade_markers (candidates : List (Bool × String)) :
    ∀ s ∈ markers candidates, s.style.IsMade := by
  intro s hs
  obtain ⟨candidate, -, hs⟩ := List.mem_flatMap.1 hs
  exact isMade_marker candidate.2 s hs

theorem isMade_headerName (h : Header) : ∀ s ∈ headerName h, s.style.IsMade := by
  have hstyle := isMade_headerStyle h
  have hwhole : ∀ s ∈ [Segment.mk h.shownPath (headerStyle h)], s.style.IsMade :=
    List.forall_mem_singleton.2 hstyle
  unfold headerName
  dsimp only
  split
  · exact hwhole
  · split
    · exact hwhole
    · split
      · exact hwhole
      · exact List.forall_mem_cons.2 ⟨hstyle,
          List.forall_mem_cons.2 ⟨hstyle.hit, List.forall_mem_singleton.2 hstyle⟩⟩

/-- **The styles on an entry's line are made of sequences.** -/
theorem Entry.isMade_line (autoExpand : Bool) (e : Entry) :
    ∀ s ∈ (e.line autoExpand).segments, s.style.IsMade := by
  have hcontainer (name : String) (containsCycle : Bool) :
      ∀ s ∈ containerSegments name containsCycle, s.style.IsMade := by
    refine List.forall_mem_cons.2 ⟨?_, isMade_markers _⟩
    dsimp only
    split
    · exact Style.isMade_cyclePath
    · exact Style.isMade_plain
  have hsegments : ∀ s ∈ e.segments, s.style.IsMade := by
    cases e with
    | project p => exact hcontainer p.name p.hasCycle
    | module p name m => exact hcontainer name m.hasCycle
    | header p name m place =>
      exact List.forall_mem_append.2 ⟨isMade_headerName place.header, isMade_markers _⟩
  refine List.forall_mem_append.2 ⟨hsegments, ?_⟩
  cases e.count? autoExpand with
  | none => exact nofun
  | some count => exact isMade_marker _

/-! ## The texts of the outline -/

/-- Whether all characters of a text are shown. -/
def IsShown (text : String) : Prop :=
  ∀ d ∈ text.toList, ' ' ≤ d

theorem isShown_of_all {text : String} (h : (text.toList.all fun d => decide (' ' ≤ d)) = true) :
    IsShown text :=
  fun d hd => of_decide_eq_true (List.all_eq_true.1 h d hd)

theorem IsShown.append {text more : String} (h : IsShown text) (h' : IsShown more) :
    IsShown (text ++ more) := by
  unfold IsShown
  rw [String.toList_append]
  exact List.forall_mem_append.2 ⟨h, h'⟩

theorem IsShown.ite {text other : String} (h : IsShown text) (h' : IsShown other) (holds : Bool) :
    IsShown (if holds then text else other) := by
  cases holds with
  | true => exact h
  | false => exact h'

/-- All characters of the markers are shown. -/
theorem Entry.isShown_marks (e : Entry) : IsShown e.marks := by
  have hnone : IsShown "" := nofun
  have hcycle : IsShown " [cycle]" := isShown_of_all rfl
  have hcontains : IsShown " [contains cycle]" := isShown_of_all rfl
  have hmatch : IsShown " [match]" := isShown_of_all rfl
  cases e with
  | project p => exact hcontains.ite hnone p.hasCycle
  | module p name m => exact hcontains.ite hnone m.hasCycle
  | header p name m place =>
    have hcontaining := hcontains.ite hnone place.header.containsCycle
    exact (hcycle.ite hcontaining place.header.closesCycle).append
      (hmatch.ite hnone place.header.isMatched)

/-- All characters of a count are shown. -/
theorem isShown_count (count : Nat) : IsShown (" (+" ++ toString count ++ ")") := by
  have hdigits : IsShown (toString count) := by
    intro d hd
    have hrepr : toString count = String.ofList (Nat.toDigits 10 count) :=
      Nat.repr_eq_ofList_toDigits
    rw [hrepr, String.toList_ofList] at hd
    have hzero := (Bool.and_eq_true_iff.1 (isAsciiDigit_of_mem_toDigits hd)).1
    exact Char.le_trans (by decide) (of_decide_eq_true hzero)
  exact ((isShown_of_all rfl).append hdigits).append (isShown_of_all rfl)

/-- **A character that would not be shown is on an entry's line only in the name.** -/
theorem Entry.mem_name_of_mem_plainText {autoExpand : Bool} {e : Entry} {c : Char} (hc : c < ' ')
    (h : c ∈ (plainText (e.line autoExpand).segments).toList) : c ∈ e.name.toList := by
  have hshown {text : String} (htext : IsShown text) : c ∉ text.toList :=
    fun hmem => absurd (htext c hmem) (Char.not_le.2 hc)
  rw [e.plainText_line, String.toList_append, String.toList_append, List.mem_append,
    List.mem_append] at h
  rcases h with (hname | hmark) | hcount
  · exact hname
  · exact absurd hmark (hshown e.isShown_marks)
  · cases hfolded : e.count? autoExpand with
    | none =>
      rw [hfolded] at hcount
      cases hcount
    | some count =>
      rw [hfolded] at hcount
      exact absurd hcount (hshown (isShown_count count))

/-! ## The outline and the cycles -/

/-- Every line of the outline is that of an entry. -/
theorem exists_entry_of_mem_outline {autoExpand : Bool} {f : Forest} {line : Line}
    (h : line ∈ outline autoExpand f) : ∃ e ∈ Entry.ofForest f, e.line autoExpand = line := by
  rw [outline_eq] at h
  obtain ⟨e, he, hline⟩ := List.mem_map.1 h
  exact ⟨e, List.mem_of_mem_filter he, hline⟩

/-- The outline is clean if no name holds the escape character. -/
theorem isClean_outline {f : Forest} (h : ∀ e ∈ Entry.ofForest f, escape ∉ e.name.toList)
    (autoExpand : Bool) : ∀ line ∈ outline autoExpand f, ∀ s ∈ line.segments, s.IsClean := by
  intro line hline s hs
  obtain ⟨e, he, rfl⟩ := exists_entry_of_mem_outline hline
  exact ⟨e.isMade_line autoExpand s hs,
    fun hmem => h e he (Entry.mem_name_of_mem_plainText (by decide) (mem_plainText hs hmem))⟩

/-- The segments of the outline stay on their lines if no name ends one. -/
theorem staysOnLine_outline {f : Forest} (h : ∀ e ∈ Entry.ofForest f, '\n' ∉ e.name.toList)
    (autoExpand : Bool) : ∀ line ∈ outline autoExpand f, ∀ s ∈ line.segments, s.StaysOnLine := by
  intro line hline s hs _ hmem
  obtain ⟨e, he, rfl⟩ := exists_entry_of_mem_outline hline
  exact h e he (Entry.mem_name_of_mem_plainText (by decide) (mem_plainText hs hmem))

/-- The line of a cycle is clean if what it names is, and paints nothing of it. -/
theorem isClean_cycleLine {c : Cycle} (hproject : escape ∉ c.project.toList)
    (hmodule : escape ∉ c.module.toList) (hchain : ∀ path ∈ c.chain, escape ∉ path.toList) :
    ∀ s ∈ (cycleLine c).segments, s.IsClean ∧ s.StaysOnLine := by
  have hpaths : escape ∉ (" -> ".intercalate c.chain).toList := by
    rw [String.toList_intercalate]
    intro hmem
    rcases mem_or_mem_of_mem_intercalate hmem with hbetween | ⟨path, hpath, hmem⟩
    · exact absurd hbetween (by decide)
    · obtain ⟨text, htext, rfl⟩ := List.mem_map.1 hpath
      exact hchain text htext hmem
  have hnames : escape ∉
      (": " ++ c.project ++ "/" ++ c.module ++ ": " ++ " -> ".intercalate c.chain).toList := by
    simp only [String.toList_append, List.mem_append, not_or]
    exact ⟨⟨⟨⟨⟨by decide, hproject⟩, by decide⟩, hmodule⟩, by decide⟩, hpaths⟩
  refine List.forall_mem_cons.2 ⟨⟨⟨Style.isMade_plain, by decide⟩, absurd rfl⟩, ?_⟩
  refine List.forall_mem_cons.2 ⟨⟨⟨Style.isMade_cycle, by decide⟩, fun _ => by decide⟩, ?_⟩
  exact List.forall_mem_singleton.2 ⟨⟨Style.isMade_plain, hnames⟩, absurd rfl⟩

/-- **What is written of a forest and of its cycles is the same with styles and without.**
If no name holds the escape character, the outline with styles is the outline without
them when its sequences are dropped, and if no name ends a line either, every style is
taken back on its line. The same is true of a report of cycles whose names and paths do
not hold the escape character; it paints none of them, so its styles are taken back
whatever they are. -/
theorem styles_exact (f : Forest) (autoExpand : Bool) :
    ((∀ e ∈ Entry.ofForest f, escape ∉ e.name.toList) →
      dropSequences (forestText { autoExpand, color := true } f).toList
          = (forestText { autoExpand, color := false } f).toList ∧
        ((∀ e ∈ Entry.ofForest f, '\n' ∉ e.name.toList) →
          Closed (forestText { autoExpand, color := true } f).toList)) ∧
    ∀ cycles : List Cycle,
      (∀ c ∈ cycles, escape ∉ c.project.toList ∧ escape ∉ c.module.toList ∧
        ∀ path ∈ c.chain, escape ∉ path.toList) →
      dropSequences (cyclesText true cycles).toList = (cyclesText false cycles).toList ∧
        Closed (cyclesText true cycles).toList := by
  refine ⟨fun hnames => ?_, fun cycles hcycles => ?_⟩
  · have hclean := isClean_outline hnames autoExpand
    refine ⟨(paints_write hclean).dropSequences_eq, fun hends => ?_⟩
    have hstays := staysOnLine_outline hends autoExpand
    exact (keepsClosed_write fun line hline s hs =>
      ⟨hclean line hline s hs, hstays line hline s hs⟩).closed
  · have hclean : ∀ line ∈ cycles.map cycleLine, ∀ s ∈ line.segments,
        s.IsClean ∧ s.StaysOnLine := by
      intro line hline
      obtain ⟨c, hc, rfl⟩ := List.mem_map.1 hline
      obtain ⟨hproject, hmodule, hchain⟩ := hcycles c hc
      exact isClean_cycleLine hproject hmodule hchain
    exact ⟨(paints_write fun line hline s hs => (hclean line hline s hs).1).dropSequences_eq,
      (keepsClosed_write hclean).closed⟩

/-- A header is cut in three where the search found it, and shown in one piece. -/
theorem styles_exact_hit :
    let rules : ForestRules := { policy := .identity, query := "a" }
    let steps : List Forest.Step :=
      [.project 1 "demo", .module 1 "main.cpp", .note 1 "main.cpp" 0 "inc/a.h"]
    let f := ((Forest.empty rules).performAll steps).1
    let painted := (forestText { autoExpand := true, color := true } f).toList
    let cycles : List Cycle := [⟨"demo", "main.cpp", ["a.h", "b.h", "a.h"]⟩]
    painted = "demo\n  main.cpp\n    inc/\x1b[1;4ma\x1b[0m.h \x1b[2m[match]\x1b[0m\n".toList ∧
      dropSequences painted = "demo\n  main.cpp\n    inc/a.h [match]\n".toList ∧
      Closed painted ∧
      dropSequences (cyclesText true cycles).toList
        = " * cycle detected: demo/main.cpp: a.h -> b.h -> a.h\n".toList ∧
      Closed (cyclesText true cycles).toList := by
  intro rules steps f painted cycles
  have hplain : (forestText { autoExpand := true, color := false } f).toList
      = "demo\n  main.cpp\n    inc/a.h [match]\n".toList := by decide +kernel
  have hcycle : (cyclesText false cycles).toList
      = " * cycle detected: demo/main.cpp: a.h -> b.h -> a.h\n".toList := by decide +kernel
  obtain ⟨houtline, hcycles⟩ := styles_exact f true
  obtain ⟨hdrop, hclosed⟩ := houtline (by decide +kernel)
  obtain ⟨hdropped, htaken⟩ := hcycles cycles (by decide +kernel)
  exact ⟨by decide +kernel, hdrop.trans hplain, hclosed (by decide +kernel), hdropped.trans hcycle,
    htaken⟩

end IncludeForest.View
