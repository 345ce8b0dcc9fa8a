import Mathlib.Data.List.Basic
import Mathlib.Data.List.Induction
import IncludeForest.Proofs.Log.Streams

/-!
# The notes of a module

A note names no module. It belongs to the one that its stream started last, and
that can be told from the lines before it. `notes` lists what a log says about a
module: its notes with the numbers of their lines, which tell apart notes that
say the same.

A filter drops notes and nothing else, and whether it drops one is a matter of
that note alone. So the notes that are left are a part of all notes
(`notes_some`), each under the number it had.
-/

namespace IncludeForest

namespace Log

/-- **A note of a log.** -/
structure Note where
  /-- The number of its line, from 1. -/
  line : Nat
  /-- How deep its header was included. -/
  level : Nat
  /-- The path of its header. -/
  path : String
  deriving DecidableEq, Repr

/-- Whether a filter leaves the note in the log. It sees the spaces that count
the depth. -/
def Note.isKept (filter : PathFilter) (note : Note) : Bool :=
  !filter.accepts (List.replicate note.level ' ' ++ note.path.toList)

/-- The module that an announcement starts, if it starts one. -/
def startedModule? : Announcement → Option String
  | .module name => some name
  | _ => none

section

variable (filter : Option PathFilter) (id : StreamId) (name : String)

/-- **The module that a stream started last**; the empty name if it started
none. -/
def latestModule (log : List (List Char)) : String :=
  (((announcementsOn filter id log).filterMap startedModule?).getLast?).getD ""

/-- **The note that a line adds to a module**, behind the lines before it. -/
def noteOf? (earlier : List (List Char)) (line : List Char) : Option Note :=
  match announcement? filter line with
  | some (i, .header level path) =>
    if i = id ∧ latestModule filter id earlier = name then some ⟨earlier.length + 1, level, path⟩
    else none
  | _ => none

/-- **The notes of a module** in the order of the log. -/
def notes (log : List (List Char)) : List Note :=
  (List.range log.length).filterMap fun i => log[i]?.bind (noteOf? filter id name (log.take i))

end

variable {filter : Option PathFilter} {id : StreamId} {name : String} {log : List (List Char)}
  {line : List Char}

/-! ## One line more -/

theorem announcementsOn_concat (log : List (List Char)) (line : List Char) :
    announcementsOn filter id (log ++ [line])
      = announcementsOn filter id log ++ announcementsOn filter id [line] :=
  List.filterMap_append

/-- A line that starts no module leaves the last one what it was. -/
theorem latestModule_concat_of_ne (h : ∀ name, announcement? filter line ≠ some (id, .module name))
    (log : List (List Char)) :
    latestModule filter id (log ++ [line]) = latestModule filter id log := by
  have hnone : (announcementsOn filter id [line]).filterMap startedModule? = [] := by
    unfold announcementsOn
    cases hline : announcement? filter line with
    | none => simp [hline]
    | some found =>
      obtain ⟨i, announced⟩ := found
      by_cases hi : i = id
      · subst hi
        cases announced with
        | module name => exact absurd hline (h name)
        | project | header | filtered | nothing => simp [hline, startedModule?]
      · simp [hline, hi]
  unfold latestModule
  rw [announcementsOn_concat, List.filterMap_append, hnone, List.append_nil]

/-- A module that starts is the last one. -/
theorem latestModule_concat_self (h : announcement? filter line = some (id, .module name))
    (log : List (List Char)) : latestModule filter id (log ++ [line]) = name := by
  have hone : (announcementsOn filter id [line]).filterMap startedModule? = [name] := by
    simp [announcementsOn, h, startedModule?]
  unfold latestModule
  rw [announcementsOn_concat, List.filterMap_append, hone, List.getLast?_concat, Option.getD_some]

/-- **A line more, a note more at most.** -/
theorem notes_concat (log : List (List Char)) (line : List Char) :
    notes filter id name (log ++ [line])
      = notes filter id name log ++ (noteOf? filter id name log line).toList := by
  unfold notes
  rw [List.length_append, List.length_singleton, List.range_succ, List.filterMap_append]
  congr 1
  · refine List.filterMap_congr fun i hi => ?_
    have hi := List.mem_range.1 hi
    rw [List.getElem?_append_left hi, List.take_append_of_le_length (Nat.le_of_lt hi)]
  · rw [List.filterMap_cons, List.filterMap_nil, List.getElem?_concat_length, Option.bind_some,
      List.take_left]
    cases noteOf? filter id name log line <;> rfl

/-- **Which note a line adds to a module.** -/
theorem noteOf?_eq_some_iff {note : Note} :
    noteOf? filter id name log line = some note ↔
      announcement? filter line = some (id, .header note.level note.path) ∧
        latestModule filter id log = name ∧ note.line = log.length + 1 := by
  obtain ⟨number, level, path⟩ := note
  unfold noteOf?
  split
  · next i level' path' hline =>
    rw [hline]
    split
    · next hat =>
      obtain ⟨rfl, hname⟩ := hat
      constructor
      · rintro ⟨⟩
        exact ⟨rfl, hname, rfl⟩
      · rintro ⟨⟨⟩, -, rfl⟩
        rfl
    · next hat =>
      refine iff_of_false nofun ?_
      rintro ⟨⟨⟩, hname, -⟩
      exact hat ⟨rfl, hname⟩
  · next hline => exact iff_of_false nofun fun h => hline _ _ _ h.1

/-- A line that announces no header adds no note. -/
theorem notes_concat_of_ne
    (h : ∀ level path, announcement? filter line ≠ some (id, .header level path))
    (log : List (List Char)) : notes filter id name (log ++ [line]) = notes filter id name log := by
  have hnone : noteOf? filter id name log line = none := by
    refine Option.eq_none_iff_forall_ne_some.2 fun note hnote => ?_
    exact h note.level note.path (noteOf?_eq_some_iff.1 hnote).1
  rw [notes_concat, hnone, Option.toList_none, List.append_nil]

/-- A line that announces a header adds its note to the last module. -/
theorem notes_concat_of_eq {level : Nat} {path : String} {i : StreamId}
    (h : announcement? filter line = some (i, .header level path)) (log : List (List Char)) :
    notes filter id name (log ++ [line]) = notes filter id name log
      ++ if id = i ∧ name = latestModule filter i log then [⟨log.length + 1, level, path⟩]
        else [] := by
  have hiff : i = id ∧ latestModule filter id log = name ↔
      id = i ∧ name = latestModule filter i log := by
    constructor <;> rintro ⟨rfl, rfl⟩ <;> exact ⟨rfl, rfl⟩
  rw [notes_concat]
  unfold noteOf?
  rw [h]
  dsimp only
  rw [if_congr hiff rfl rfl]
  split <;> rfl

/-- No note stands behind the last line. -/
theorem line_le_of_mem_notes {note : Note} (h : note ∈ notes filter id name log) :
    note.line ≤ log.length := by
  obtain ⟨i, hi, hnote⟩ := List.mem_filterMap.1 h
  obtain ⟨line, -, hnote⟩ := Option.bind_eq_some_iff.1 hnote
  obtain ⟨-, -, hline⟩ := noteOf?_eq_some_iff.1 hnote
  have hi := List.mem_range.1 hi
  rw [List.length_take, Nat.min_eq_left (Nat.le_of_lt hi)] at hline
  omega

/-- **Notes of one module stand on different lines**, in the order of the log. -/
theorem pairwise_notes (log : List (List Char)) :
    (notes filter id name log).Pairwise (·.line < ·.line) := by
  induction log using List.reverseRecOn with
  | nil => exact .nil
  | append_singleton log line ih =>
    rw [notes_concat, List.pairwise_append]
    refine ⟨ih, ?_, fun note hnote last hlast => ?_⟩
    · cases noteOf? filter id name log line with
      | none => exact .nil
      | some note => exact List.pairwise_singleton _ note
    · have hle := line_le_of_mem_notes hnote
      obtain ⟨-, -, hline⟩ := noteOf?_eq_some_iff.1 (Option.mem_toList.1 hlast)
      omega

/-! ## With and without a filter -/

section

variable {f : PathFilter} {rest : List Char}

/-- A note announces a header or nothing. -/
theorem ofNote_none (raw : List Char) :
    Announcement.ofNote none raw = .nothing ∨
      ∃ level path, Announcement.ofNote none raw = .header level path ∧
        List.replicate level ' ' ++ path.toList = raw := by
  have hraw := replicate_depth_append_path raw
  have hfilter : isFiltered none raw = false := rfl
  unfold Announcement.ofNote
  rw [hfilter, if_neg Bool.false_ne_true]
  generalize depthAndPath raw = found at hraw ⊢
  obtain ⟨level, path⟩ := found
  cases path with
  | nil => exact .inl rfl
  | cons c path => exact .inr ⟨level, String.ofList (c :: path), rfl, by rwa [String.toList_ofList]⟩

/-- A note of a header is the path behind as many spaces as the header is
deep. -/
theorem replicate_append_of_ofNote_none {raw : List Char} {level : Nat} {path : String}
    (h : Announcement.ofNote none raw = .header level path) :
    List.replicate level ' ' ++ path.toList = raw := by
  obtain hraw | ⟨level', path', hraw, hspaces⟩ := ofNote_none raw
  · rw [hraw] at h
    cases h
  · rw [hraw] at h
    cases h
    exact hspaces

/-- **Only a note can be dropped**: whatever else a line announces, it announces
with every filter and with none. -/
theorem ofRest_cases (rest : List Char) :
    (∃ announced, (∀ level path, announced ≠ .header level path) ∧
        ∀ filter, Announcement.ofRest filter rest = announced) ∨
      ∃ raw, ∀ filter, Announcement.ofRest filter rest = Announcement.ofNote filter raw := by
  unfold Announcement.ofRest
  cases announcedProject? rest with
  | some name => exact .inl ⟨.project (String.ofList name), nofun, fun _ => rfl⟩
  | none =>
    cases announcedModule? rest with
    | some name => exact .inl ⟨.module (String.ofList name), nofun, fun _ => rfl⟩
    | none =>
      cases announcedNote? rest with
      | some raw => exact .inr ⟨raw, fun _ => rfl⟩
      | none => exact .inl ⟨.nothing, nofun, fun _ => rfl⟩

/-- With a filter, a note that it accepts is dropped. -/
theorem ofNote_some (f : PathFilter) (raw : List Char) :
    Announcement.ofNote (some f) raw
      = if f.accepts raw = true then .filtered else Announcement.ofNote none raw := rfl

/-- A filter drops no module, and adds none. -/
theorem ofRest_eq_module_iff :
    Announcement.ofRest (some f) rest = .module name ↔
      Announcement.ofRest none rest = .module name := by
  obtain ⟨announced, -, h⟩ | ⟨raw, h⟩ := ofRest_cases rest
  · rw [h, h]
  · have hnone : Announcement.ofNote none raw ≠ .module name := by
      obtain hraw | ⟨level, path, hraw, -⟩ := ofNote_none raw <;> rw [hraw] <;> nofun
    rw [h, h, ofNote_some]
    refine iff_of_false ?_ hnone
    split
    · nofun
    · exact hnone

/-- **A filter drops the headers that it accepts**, and adds none. -/
theorem ofRest_eq_header_iff {level : Nat} {path : String} :
    Announcement.ofRest (some f) rest = .header level path ↔
      Announcement.ofRest none rest = .header level path ∧
        f.accepts (List.replicate level ' ' ++ path.toList) = false := by
  obtain ⟨announced, hannounced, h⟩ | ⟨raw, h⟩ := ofRest_cases rest
  · rw [h, h]
    exact iff_of_false (hannounced level path) fun hheader => hannounced level path hheader.1
  · rw [h, h, ofNote_some]
    cases haccepts : f.accepts raw with
    | true =>
      refine iff_of_false nofun ?_
      rintro ⟨hheader, hkept⟩
      rw [replicate_append_of_ofNote_none hheader, haccepts] at hkept
      cases hkept
    | false =>
      rw [if_neg Bool.false_ne_true]
      refine ⟨fun hheader => ⟨hheader, ?_⟩, And.left⟩
      rw [replicate_append_of_ofNote_none hheader]
      exact haccepts

theorem announcement?_eq_some_iff {filter : Option PathFilter} {announced : Announcement} :
    announcement? filter line = some (id, announced) ↔
      ∃ rest, splitStream? line = some (id, rest) ∧
        Announcement.ofRest filter rest = announced := by
  unfold announcement?
  rw [Option.map_eq_some_iff]
  constructor
  · rintro ⟨⟨i, rest⟩, hsplit, ⟨⟩⟩
    exact ⟨rest, hsplit, rfl⟩
  · rintro ⟨rest, hsplit, rfl⟩
    exact ⟨(id, rest), hsplit, rfl⟩

/-- A module is announced with a filter if it is without. -/
theorem announcement?_eq_module_iff :
    announcement? (some f) line = some (id, .module name) ↔
      announcement? none line = some (id, .module name) := by
  simp only [announcement?_eq_some_iff, ofRest_eq_module_iff]

/-- The last module is the same with a filter and without. -/
theorem latestModule_some (log : List (List Char)) :
    latestModule (some f) id log = latestModule none id log := by
  induction log using List.reverseRecOn with
  | nil => rfl
  | append_singleton log line ih =>
    by_cases hline : ∃ name, announcement? none line = some (id, .module name)
    · obtain ⟨name, hline⟩ := hline
      rw [latestModule_concat_self (announcement?_eq_module_iff.2 hline),
        latestModule_concat_self hline]
    · rw [not_exists] at hline
      rw [latestModule_concat_of_ne fun name h => hline name (announcement?_eq_module_iff.1 h),
        latestModule_concat_of_ne hline, ih]

/-- **A filter leaves the notes that it does not accept**, on the lines where
they were. -/
theorem notes_some (log : List (List Char)) :
    notes (some f) id name log = (notes none id name log).filter (·.isKept f) := by
  have hnote (earlier : List (List Char)) (line : List Char) :
      noteOf? (some f) id name earlier line
        = (noteOf? none id name earlier line).filter (·.isKept f) := by
    refine Option.ext fun note => ?_
    rw [Option.filter_eq_some_iff, noteOf?_eq_some_iff, noteOf?_eq_some_iff, latestModule_some]
    simp only [announcement?_eq_some_iff, ofRest_eq_header_iff, Note.isKept, Bool.not_eq_true']
    constructor
    · rintro ⟨⟨rest, hsplit, hheader, hkept⟩, hrest⟩
      exact ⟨⟨⟨rest, hsplit, hheader⟩, hrest⟩, hkept⟩
    · rintro ⟨⟨⟨rest, hsplit, hheader⟩, hrest⟩, hkept⟩
      exact ⟨⟨rest, hsplit, hheader, hkept⟩, hrest⟩
  induction log using List.reverseRecOn with
  | nil => rfl
  | append_singleton log line ih =>
    rw [notes_concat, notes_concat, List.filter_append, ih, hnote]
    cases noteOf? none id name log line with
    | none => rfl
    | some note => cases hkept : note.isKept f <;> simp [hkept]

end

/-! ## Every note has a path -/

/-- A note announces no header by an empty path. -/
theorem ne_empty_of_ofNote {raw : List Char} {level : Nat} {path : String}
    (h : Announcement.ofNote filter raw = .header level path) : path ≠ "" := by
  unfold Announcement.ofNote at h
  split at h
  · cases h
  · generalize depthAndPath raw = found at h
    obtain ⟨spaces, _ | ⟨c, rest⟩⟩ := found
    · cases h
    · obtain ⟨-, rfl⟩ := Announcement.header.inj h
      exact fun hempty => List.cons_ne_nil c rest (String.ofList_eq_empty_iff.1 hempty)

/-- **No header is announced by an empty path.** -/
theorem ne_empty_of_announcement? {level : Nat} {path : String}
    (h : announcement? filter line = some (id, .header level path)) : path ≠ "" := by
  obtain ⟨rest, -, hrest⟩ := announcement?_eq_some_iff.1 h
  obtain ⟨announced, hannounced, hall⟩ | ⟨raw, hall⟩ := ofRest_cases rest
  · exact absurd ((hall filter).symm.trans hrest) (hannounced level path)
  · exact ne_empty_of_ofNote ((hall filter).symm.trans hrest)

/-- The path of a note is not empty. -/
theorem path_ne_empty_of_mem_notes {note : Note} (h : note ∈ notes filter id name log) :
    note.path ≠ "" := by
  obtain ⟨i, -, hnote⟩ := List.mem_filterMap.1 h
  obtain ⟨line, -, hnote⟩ := Option.bind_eq_some_iff.1 hnote
  exact ne_empty_of_announcement? (noteOf?_eq_some_iff.1 hnote).1

end Log

end IncludeForest
