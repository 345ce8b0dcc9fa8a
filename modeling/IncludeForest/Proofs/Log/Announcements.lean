import IncludeForest.Proofs.Log.Grammar
import IncludeForest.Proofs.Log.Notes
import IncludeForest.Proofs.Log.StreamLine

/-!
# What a line announces

Three tests are made of the rest of a line, one after the other, and the first that has
an answer decides. `Announcement.Describes` says what each answer means without them:
it describes a line, and says what is not in the line only where the tests before would
have had an answer. Of the five announcements exactly one describes a line
(`Announcement.describes_ofRest` and `Announcement.Describes.eq_ofRest`), and this is
the one that is made.

That a project is looked for before a note does make a difference, since a path can
hold the label of a project. It makes none when a module is looked for
(`Announcement.ofTests_insertIdx`). Both a project and a note hold a colon, and a
module's name does not.
-/

namespace IncludeForest

namespace Log

open Text

variable {filter : Option PathFilter} {rest : List Char}

/-! ## What an announcement says of a line -/

/-- **Whether a text is a note** of that many spaces and that path. -/
structure CarriesNote (text : List Char) (level : Nat) (path : List Char) : Prop where
  /-- The phrase, the spaces and the path make up the text. -/
  text_eq : text = includeLabel ++ (List.replicate level ' ' ++ path)
  /-- The spaces end where the path begins. -/
  head?_ne : path.head? ≠ some ' '

/-- **What is true of the rest of a line that announces something.** A project is named
in it, at the first label that a word follows. Where no project is named, a module is
announced by its name alone, and a header by the phrase, the spaces and a path; but if
there is a filter that accepts the spaces and the path, or the spaces if there is no
path, all that is said is that it does. Nothing is announced by any other line. -/
def Announcement.Describes (filter : Option PathFilter) (rest : List Char) : Announcement → Prop
  | .project name => GivesProject rest name.toList
  | .module name => ¬ NamesProject rest ∧ GivesModule rest name.toList
  | .header level path => ¬ NamesProject rest ∧ CarriesNote rest level path.toList ∧
      path.toList ≠ [] ∧ isFiltered filter (List.replicate level ' ' ++ path.toList) = false
  | .filtered => ¬ NamesProject rest ∧ ∃ level path, CarriesNote rest level path ∧
      (path ≠ [] ∨ 1 ≤ level) ∧ isFiltered filter (List.replicate level ' ' ++ path) = true
  | .nothing => ¬ NamesProject rest ∧ (∀ name, ¬ GivesModule rest name) ∧
      ∀ level path, CarriesNote rest level path →
        path = [] ∧ (level = 0 ∨ isFiltered filter (List.replicate level ' ') = false)

/-- Every note is one of some spaces and some path. -/
theorem carriesNote_depthAndPath (raw : List Char) :
    CarriesNote (includeLabel ++ raw) (depthAndPath raw).1 (depthAndPath raw).2 := by
  refine ⟨by rw [replicate_depth_append_path], fun hhead => ?_⟩
  have hspace := head?_dropWhile (· == ' ') raw ' ' hhead
  cases hspace

namespace CarriesNote

variable {level level' : Nat} {path path' : List Char}

/-- **A note has its spaces and its path in one way only.** -/
theorem unique (h : CarriesNote rest level path) (h' : CarriesNote rest level' path') :
    level = level' ∧ path = path' := by
  have hraw := List.append_cancel_left (h.text_eq.symm.trans h'.text_eq)
  have hparts := congrArg depthAndPath hraw
  rw [depthAndPath_append h.head?_ne, depthAndPath_append h'.head?_ne] at hparts
  exact Prod.mk.inj hparts

/-- A note announces no module. -/
theorem announcedModule?_eq_none (h : CarriesNote rest level path) :
    announcedModule? rest = none := by
  rw [h.text_eq]
  exact announcedModule?_of_colon (List.mem_append_left _ (by decide))

/-- **A note in which no project is named announces what it carries**, if it carries
something. -/
theorem ofRest_eq (h : CarriesNote rest level path) (hproject : ¬ NamesProject rest)
    (hnewline : '\n' ∉ rest) (hne : path ≠ [] ∨ 1 ≤ level) (filter : Option PathFilter) :
    Announcement.ofRest filter rest =
      if isFiltered filter (List.replicate level ' ' ++ path) then .filtered
      else if path = [] then .nothing else .header level (String.ofList path) := by
  have hraw : List.replicate level ' ' ++ path ≠ [] := by
    rw [Ne, List.append_eq_nil_iff, List.replicate_eq_nil_iff, not_and_or]
    exact hne.symm.imp_left Nat.one_le_iff_ne_zero.1
  have hnote : announcedNote? rest = some (List.replicate level ' ' ++ path) :=
    announcedNote?_eq_some_iff.2 ⟨h.text_eq, hraw,
      fun hmem => hnewline (h.text_eq ▸ List.mem_append_right _ hmem)⟩
  unfold Announcement.ofRest
  rw [announcedProject?_eq_none_iff.2 hproject, h.announcedModule?_eq_none, hnote,
    ← ofNote_append h.head?_ne]
  rfl

end CarriesNote

/-- A line that names no project and no module and carries no note announces nothing. -/
theorem ofRest_eq_nothing (hproject : ¬ NamesProject rest)
    (hmodule : ∀ name, ¬ GivesModule rest name)
    (hnote : ∀ level path, CarriesNote rest level path → path = [] ∧ level = 0)
    (filter : Option PathFilter) : Announcement.ofRest filter rest = .nothing := by
  have hmodule : announcedModule? rest = none :=
    Option.eq_none_iff_forall_ne_some.2 fun name h =>
      hmodule name (announcedModule?_eq_some_iff.1 h)
  have hnote : announcedNote? rest = none := by
    refine Option.eq_none_iff_forall_ne_some.2 fun raw h => ?_
    obtain ⟨rfl, hne, -⟩ := announcedNote?_eq_some_iff.1 h
    obtain ⟨hpath, hlevel⟩ := hnote _ _ (carriesNote_depthAndPath raw)
    refine hne ?_
    rw [← replicate_depth_append_path raw, hpath, hlevel]
    rfl
  unfold Announcement.ofRest
  rw [announcedProject?_eq_none_iff.2 hproject, hmodule, hnote]
  rfl

namespace Announcement

/-- **What is announced describes the line.** -/
theorem describes_ofRest (hnewline : '\n' ∉ rest) (filter : Option PathFilter) :
    (ofRest filter rest).Describes filter rest := by
  by_cases hproject : NamesProject rest
  · obtain ⟨name, hname⟩ := Option.ne_none_iff_exists'.1
      (mt announcedProject?_eq_none_iff.1 (not_not_intro hproject))
    unfold ofRest
    rw [hname]
    show GivesProject rest (String.ofList name).toList
    rw [String.toList_ofList]
    exact announcedProject?_eq_some_iff.1 hname
  by_cases hmodule : ∃ name, GivesModule rest name
  · obtain ⟨name, hname⟩ := hmodule
    unfold ofRest
    rw [announcedProject?_eq_none_iff.2 hproject, announcedModule?_eq_some_iff.2 hname]
    refine ⟨hproject, ?_⟩
    rw [String.toList_ofList]
    exact hname
  by_cases hnote : ∃ level path, CarriesNote rest level path ∧ (path ≠ [] ∨ 1 ≤ level)
  · obtain ⟨level, path, hnote, hne⟩ := hnote
    rw [hnote.ofRest_eq hproject hnewline hne]
    cases hfiltered : isFiltered filter (List.replicate level ' ' ++ path) with
    | true => exact ⟨hproject, level, path, hnote, hne, hfiltered⟩
    | false =>
      rw [if_neg Bool.false_ne_true]
      by_cases hpath : path = []
      · rw [if_pos hpath]
        refine ⟨hproject, not_exists.1 hmodule, fun level' path' hnote' => ?_⟩
        obtain ⟨rfl, rfl⟩ := hnote.unique hnote'
        rw [hpath, List.append_nil] at hfiltered
        exact ⟨hpath, .inr hfiltered⟩
      · rw [if_neg hpath]
        refine ⟨hproject, ?_⟩
        rw [String.toList_ofList]
        exact ⟨hnote, hpath, hfiltered⟩
  · have hnone (level : Nat) (path : List Char) (h : CarriesNote rest level path) :
        path = [] ∧ level = 0 := by
      refine ⟨by_contra fun hpath => hnote ⟨level, path, h, .inl hpath⟩, ?_⟩
      exact Nat.eq_zero_of_not_pos fun hlevel => hnote ⟨level, path, h, .inr hlevel⟩
    rw [ofRest_eq_nothing hproject (not_exists.1 hmodule) hnone]
    exact ⟨hproject, not_exists.1 hmodule,
      fun level path h => (hnone level path h).imp_right .inl⟩

/-- **What describes the line is announced.** -/
theorem Describes.eq_ofRest (hnewline : '\n' ∉ rest) {announced : Announcement}
    (h : announced.Describes filter rest) : ofRest filter rest = announced := by
  cases announced with
  | project name =>
    unfold ofRest
    rw [announcedProject?_eq_some_iff.2 h]
    show Announcement.project (String.ofList name.toList) = _
    rw [String.ofList_toList]
  | module name =>
    unfold ofRest
    rw [announcedProject?_eq_none_iff.2 h.1, announcedModule?_eq_some_iff.2 h.2]
    show Announcement.module (String.ofList name.toList) = _
    rw [String.ofList_toList]
  | header level path =>
    obtain ⟨hproject, hnote, hpath, hfiltered⟩ := h
    rw [hnote.ofRest_eq hproject hnewline (.inl hpath), hfiltered, if_neg Bool.false_ne_true,
      if_neg hpath, String.ofList_toList]
  | filtered =>
    obtain ⟨hproject, level, path, hnote, hne, hfiltered⟩ := h
    rw [hnote.ofRest_eq hproject hnewline hne, hfiltered, if_pos rfl]
  | nothing =>
    obtain ⟨hproject, hmodule, hnote⟩ := h
    by_cases hspaces : ∃ level, CarriesNote rest level [] ∧ 1 ≤ level
    · obtain ⟨level, hcarries, hlevel⟩ := hspaces
      have hfiltered := (hnote level [] hcarries).2.resolve_left (Nat.one_le_iff_ne_zero.1 hlevel)
      rw [hcarries.ofRest_eq hproject hnewline (.inr hlevel), List.append_nil, hfiltered,
        if_neg Bool.false_ne_true, if_pos rfl]
    · refine ofRest_eq_nothing hproject hmodule (fun level path hcarries => ?_) filter
      obtain rfl := (hnote level path hcarries).1
      exact ⟨rfl, Nat.eq_zero_of_not_pos fun hlevel => hspaces ⟨level, hcarries, hlevel⟩⟩

/-! ## The order of the tests -/

/-- **What the first test says that has an answer**, and nothing if none has. -/
def ofTests (tests : List (List Char → Option Announcement)) (rest : List Char) : Announcement :=
  (tests.findSome? (· rest)).getD .nothing

/-- The test for a project. -/
def projectTest (rest : List Char) : Option Announcement :=
  (announcedProject? rest).map fun name => .project (String.ofList name)

/-- The test for a module. -/
def moduleTest (rest : List Char) : Option Announcement :=
  (announcedModule? rest).map fun name => .module (String.ofList name)

/-- The test for a note. -/
def noteTest (filter : Option PathFilter) (rest : List Char) : Option Announcement :=
  (announcedNote? rest).map (.ofNote filter)

/-- **A text that announces a module announces neither a project nor a note.** -/
theorem of_announcedModule? {name : List Char} (h : announcedModule? rest = some name) :
    announcedProject? rest = none ∧ announcedNote? rest = none := by
  have hcolon : ':' ∉ rest := fun hcolon => by
    rw [announcedModule?_of_colon hcolon] at h
    cases h
  refine ⟨announcedProject?_eq_none_iff.2 (not_namesProject_of_colon hcolon), ?_⟩
  refine Option.eq_none_iff_forall_ne_some.2 fun raw hnote => hcolon ?_
  rw [(announcedNote?_eq_some_iff.1 hnote).1]
  exact List.mem_append_left _ (by decide)

theorem ofTests_cons (test : List Char → Option Announcement)
    (tests : List (List Char → Option Announcement)) (rest : List Char) :
    ofTests (test :: tests) rest = (test rest).getD (ofTests tests rest) := by
  unfold ofTests
  rw [List.findSome?_cons]
  cases test rest <;> rfl

/-- The tests are made for a project, a module and a note, in this order. -/
theorem ofTests_eq_ofRest (filter : Option PathFilter) (rest : List Char) :
    ofTests [projectTest, moduleTest, noteTest filter] rest = ofRest filter rest := by
  rw [ofTests_cons, ofTests_cons, ofTests_cons]
  unfold projectTest moduleTest noteTest ofRest
  cases announcedProject? rest with
  | some name => rfl
  | none => cases announcedModule? rest <;> rfl

/-- **A module can be looked for first, second or last.** -/
theorem ofTests_insertIdx (filter : Option PathFilter) (rest : List Char) (place : Fin 3) :
    ofTests ([projectTest, noteTest filter].insertIdx place moduleTest) rest
      = ofRest filter rest := by
  rw [← ofTests_eq_ofRest]
  cases hmodule : announcedModule? rest with
  | none =>
    -- The test for a module has no answer and can be left out.
    have hskip : moduleTest rest = none := by rw [moduleTest, hmodule, Option.map_none]
    match place with
    | 0 | 1 | 2 => simp [ofTests_cons, hskip]
  | some name =>
    -- It is the only test that has an answer.
    obtain ⟨hproject, hnote⟩ := of_announcedModule? hmodule
    have hproject : projectTest rest = none := by rw [projectTest, hproject, Option.map_none]
    have hnote : noteTest filter rest = none := by rw [noteTest, hnote, Option.map_none]
    match place with
    | 0 | 1 | 2 => simp [ofTests_cons, hproject, hnote]

end Announcement

/-- **What a line of a stream announces, and nothing else, describes what stands behind
its angle** (`Announcement.Describes`): the name of a project, or if there is none, the
name of a module, or if there is none, a header with its depth and its path, that there
is one and the filter accepts it, or nothing. There always is one announcement, and it
is made on the line's stream. A text that announces a module announces neither a project
nor a note, with any filter, and so the test for a module can be the first, the second
or the last. -/
theorem announcement?_exact (filter : Option PathFilter) {line rest : List Char} {id : StreamId}
    (h : splitStream? line = some (id, rest)) :
    (∃ announced, announcement? filter line = some (id, announced)) ∧
    (∀ i announced, announcement? filter line = some (i, announced) ↔
      i = id ∧ announced.Describes filter rest) ∧
    (∀ text name, announcedModule? text = some name →
      announcedProject? text = none ∧ announcedNote? text = none) ∧
    ∀ text (place : Fin 3),
      Announcement.ofTests
          ([Announcement.projectTest, Announcement.noteTest filter].insertIdx place
            Announcement.moduleTest) text
        = Announcement.ofRest filter text := by
  have hnewline : '\n' ∉ rest := by
    obtain ⟨l, -, -, rfl⟩ := StreamLine.exists_of_splitStream? h
    exact l.isRest.newline
  have hmade : announcement? filter line = some (id, .ofRest filter rest) :=
    announcement?_eq_some_iff.2 ⟨rest, h, rfl⟩
  refine ⟨⟨_, hmade⟩, fun i announced => ?_, fun _ _ => Announcement.of_announcedModule?,
    Announcement.ofTests_insertIdx filter⟩
  rw [hmade, Option.some_inj, Prod.mk.injEq, eq_comm (a := id)]
  refine and_congr_right fun _ => ⟨?_, Announcement.Describes.eq_ofRest hnewline⟩
  rintro rfl
  exact Announcement.describes_ofRest hnewline filter

/-- A note of spaces alone has no path, and says that it is filtered all the same where
the filter accepts the spaces. The one that ends the phrase is not among them. -/
theorem announcement?_exact_spaces :
    let filter : PathFilter := ⟨["^  $"].filterMap Pattern.parse?⟩
    let rest := "Note: including file:   ".toList
    let line := "\t007> ".toList ++ rest
    splitStream? line = some (7, rest) ∧ announcement? (some filter) line = some (7, .filtered) ∧
      Announcement.Describes (some filter) rest .filtered := by
  intro filter rest line
  have hsplit : splitStream? line = some (7, rest) := by decide
  have hmade : announcement? (some filter) line = some (7, .filtered) := by decide +kernel
  obtain ⟨-, hdescribes, -⟩ := announcement?_exact (some filter) hsplit
  exact ⟨hsplit, hmade, ((hdescribes 7 .filtered).1 hmade).2⟩

end Log

end IncludeForest
