import IncludeForest.Proofs.Log.Grammar
import IncludeForest.Proofs.Log.Streams
import IncludeForest.Proofs.Tree.Outline
import IncludeForest.SortedMap

/-!
# Logs that are printed from trees

A **listing** says what a build consists of: for some streams a project, for
each project its modules in order, and for each module the trees of the paths
it includes. Names and paths carry the proof that a line can be read back that
holds them, and no two modules of a project have the same name.

`Listing.print` is what each stream prints: its project, and then each module
with the outline of its trees. A machine that builds several projects at once
writes these lines in any order that keeps each stream's own
(`IsInterleaving`).

What a line is printed for is what it announces (`announcement?_streamLine` and
the statements behind it), so what a log announces on a stream is what the
listing says of it (`announcements_of_isInterleaving`).
-/

namespace IncludeForest

namespace Log

open Text PathTree

/-! ## Printed lines -/

/-- **A line of a stream**, as a build prints it. -/
def streamLine (id : StreamId) (rest : List Char) : List Char :=
  Nat.toDigits 10 id.toNat ++ '>' :: ' ' :: rest

/-- What announces a project. -/
def projectRest (name : String) : List Char :=
  projectLabel ++ ([' '] ++ name.toList)

/-- What announces a header. -/
def noteRest (level : Nat) (path : String) : List Char :=
  includeLabel ++ (List.replicate level ' ' ++ path.toList)

/-- **A printed line is one of its stream.** -/
theorem announcement?_streamLine (filter : Option PathFilter) (id : StreamId) {rest : List Char}
    (h : IsRest rest) :
    announcement? filter (streamLine id rest) = some (id, .ofRest filter rest) := by
  have hvalue : decimalValue (Nat.toDigits 10 id.toNat) < UInt32.size := by
    rw [decimalValue_toDigits]
    exact id.toNat_lt_size
  have hsplit : splitStream? ([] ++ (Nat.toDigits 10 id.toNat ++ '>' :: ([' '] ++ rest))) = _ :=
    splitStream?_append nofun Nat.toDigits_ne_nil (fun d => isAsciiDigit_of_mem_toDigits) hvalue
      (List.forall_mem_singleton.2 (by decide)) h
  rw [decimalValue_toDigits, UInt32.ofNat_toNat] at hsplit
  exact congrArg (Option.map fun found => (found.1, Announcement.ofRest filter found.2)) hsplit

theorem isRest_projectRest {name : String} (h : IsName name.toList) :
    IsRest (projectRest name) := by
  refine ⟨List.cons_ne_nil _ _, ?_, ?_⟩
  · rintro c ⟨⟩
    decide
  · unfold projectRest
    rw [List.mem_append, List.mem_append]
    rintro (hlabel | hspace | hname)
    · revert hlabel
      decide
    · revert hspace
      decide
    · exact Bool.false_ne_true (h.word _ hname)

theorem isRest_of_isDottedName {name : List Char} (h : IsDottedName name) : IsRest name :=
  ⟨h.ne_nil, fun _ hc => h.isBlank_eq_false (List.mem_of_mem_head? hc),
    h.notMem (by decide) (by decide)⟩

theorem isRest_noteRest (level : Nat) {path : String} (h : IsNotePath path.toList) :
    IsRest (noteRest level path) := by
  refine ⟨List.cons_ne_nil _ _, ?_, ?_⟩
  · rintro c ⟨⟩
    decide
  · unfold noteRest
    rw [List.mem_append, List.mem_append]
    rintro (hlabel | hspace | hpath)
    · revert hlabel
      decide
    · cases List.eq_of_mem_replicate hspace
    · exact h.newline hpath

/-- What announces a project is read as such. -/
theorem announcement?_projectRest (filter : Option PathFilter) (id : StreamId) {name : String}
    (h : IsName name.toList) :
    announcement? filter (streamLine id (projectRest name)) = some (id, .project name) := by
  rw [announcement?_streamLine filter id (isRest_projectRest h)]
  unfold Announcement.ofRest projectRest
  rw [announcedProject?_append h (List.forall_mem_singleton.2 (by decide))]
  dsimp only
  rw [String.ofList_toList]

/-- What announces a module is read as such. -/
theorem announcement?_moduleName (filter : Option PathFilter) (id : StreamId) {name : String}
    (h : IsDottedName name.toList) :
    announcement? filter (streamLine id name.toList) = some (id, .module name) := by
  rw [announcement?_streamLine filter id (isRest_of_isDottedName h)]
  have hproject : announcedProject? name.toList = none := announcedProject?_eq_none_iff.2
    (not_namesProject_of_colon (h.notMem (by decide) (by decide)))
  unfold Announcement.ofRest
  rw [hproject, announcedModule?_of_isDottedName h]
  dsimp only
  rw [String.ofList_toList]

/-- **What announces a header is read as such**, unless the filter accepts it. -/
theorem announcement?_noteRest (filter : Option PathFilter) (id : StreamId) (level : Nat)
    {path : String} (h : IsNotePath path.toList) :
    announcement? filter (streamLine id (noteRest level path)) =
      some (id, if isFiltered filter (List.replicate level ' ' ++ path.toList) then .filtered
        else .header level path) := by
  rw [announcement?_streamLine filter id (isRest_noteRest level h)]
  have hproject : announcedProject? (noteRest level path) = none := by
    rw [announcedProject?_eq_none_iff]
    unfold noteRest
    rw [namesProject_append (by decide), namesProject_append fun hp => by
      cases List.eq_of_mem_replicate hp]
    exact h.project
  have hmodule : announcedModule? (noteRest level path) = none :=
    announcedModule?_of_colon (List.mem_append_left _ (by decide))
  have hnote : announcedNote? (noteRest level path)
      = some (List.replicate level ' ' ++ path.toList) := by
    rw [announcedNote?_eq_some_iff]
    refine ⟨rfl, fun hnil => h.ne_nil (List.append_eq_nil_iff.1 hnil).2, fun hnewline => ?_⟩
    obtain hspace | hpath := List.mem_append.1 hnewline
    · cases List.eq_of_mem_replicate hspace
    · exact h.newline hpath
  unfold Announcement.ofRest
  rw [hproject, hmodule, hnote]
  show some (id, Announcement.ofNote filter _) = _
  rw [ofNote_append h.head?_ne, if_neg h.ne_nil, String.ofList_toList]

/-! ## Listings -/

/-- **A module to be printed.** -/
structure ModuleListing where
  /-- Its name. -/
  name : String
  /-- The trees of the paths it includes. -/
  trees : List PathTree
  /-- The name is that of a source file. -/
  isDottedName : IsDottedName name.toList
  /-- Every path can be read back. -/
  isNotePath : ∀ note ∈ outlineAll 0 trees, IsNotePath note.2.toList

/-- **A project to be printed.** -/
structure ProjectListing where
  /-- Its name. -/
  name : String
  /-- Its modules, in the order in which they are compiled. -/
  modules : List ModuleListing
  /-- The name is a word. -/
  isName : IsName name.toList
  /-- Every module is compiled once. -/
  nodup : (modules.map (·.name)).Nodup

/-- **What a build consists of**: a project for each of its streams. -/
abbrev Listing := SortedMap StreamId ProjectListing

/-- What stands behind the angle of a module's lines. -/
def ModuleListing.rests (m : ModuleListing) : List (List Char) :=
  m.name.toList :: (outlineAll 0 m.trees).map fun note => noteRest note.1 note.2

/-- What stands behind the angle of a project's lines. -/
def ProjectListing.rests (p : ProjectListing) : List (List Char) :=
  projectRest p.name :: p.modules.flatMap (·.rests)

/-- **The module of that name**, if there is one. -/
def ProjectListing.module? (p : ProjectListing) (name : String) : Option ModuleListing :=
  p.modules.find? (·.name = name)

/-- **What a stream prints.** -/
def Listing.print (listing : Listing) (id : StreamId) : List (List Char) :=
  ((listing.get? id).elim [] (·.rests)).map (streamLine id)

/-- **A log of several streams**: each line was printed by one of them, and each
stream has printed its lines in order. -/
def IsInterleaving (parts : StreamId → List (List Char)) (log : List (List Char)) : Prop :=
  ∃ printed : List (StreamId × List Char), log = printed.map (·.2) ∧
    ∀ id, (printed.filter (·.1 = id)).map (·.2) = parts id

/-! ## What a log announces on a stream -/

/-- What a module's lines announce. -/
def ModuleListing.announcements (m : ModuleListing) : List Announcement :=
  .module m.name :: (outlineAll 0 m.trees).map fun note => .header note.1 note.2

/-- What a project's lines announce. -/
def ProjectListing.announcements (p : ProjectListing) : List Announcement :=
  .project p.name :: p.modules.flatMap (·.announcements)

/-- Every line of a module is read as what it was printed for. -/
theorem announcement?_moduleRests (id : StreamId) (m : ModuleListing) :
    m.rests.map (fun rest => announcement? none (streamLine id rest))
      = m.announcements.map fun announced => some (id, announced) := by
  unfold ModuleListing.rests ModuleListing.announcements
  rw [List.map_cons, List.map_cons, List.map_map, List.map_map,
    announcement?_moduleName none id m.isDottedName]
  refine congrArg _ (List.map_congr_left fun note hnote => ?_)
  exact announcement?_noteRest none id note.1 (m.isNotePath note hnote)

/-- **Every line of a project is read as what it was printed for.** -/
theorem announcement?_projectRests (id : StreamId) (p : ProjectListing) :
    p.rests.map (fun rest => announcement? none (streamLine id rest))
      = p.announcements.map fun announced => some (id, announced) := by
  unfold ProjectListing.rests ProjectListing.announcements
  rw [List.map_cons, List.map_cons, List.map_flatMap, List.map_flatMap,
    announcement?_projectRest none id p.isName]
  refine congrArg (fun f => _ :: p.modules.flatMap f) ?_
  funext m
  exact announcement?_moduleRests id m

/-- What a stream prints announces what the listing says of it. -/
theorem announcementsOn_print (listing : Listing) (id : StreamId) :
    announcementsOn none id (listing.print id) = (listing.get? id).elim [] (·.announcements) := by
  unfold announcementsOn Listing.print
  cases listing.get? id with
  | none => rfl
  | some p =>
    have hread := congrArg (List.filterMap fun found? => found?.bind fun found =>
      if found.1 = id then some found.2 else none) (announcement?_projectRests id p)
    rw [List.filterMap_map, List.filterMap_map] at hread
    rw [Option.elim_some, Option.elim_some, List.filterMap_map]
    refine hread.trans ?_
    have hsome : (fun announced : Announcement => (some (id, announced)).bind fun found =>
        if found.1 = id then some found.2 else none) = some := by
      funext announced
      exact if_pos rfl
    exact (congrArg (List.filterMap · _) hsome).trans List.filterMap_some

/-- A printed line is one of the stream that printed it. -/
theorem exists_announcement?_of_mem_print {listing : Listing} {id : StreamId} {line : List Char}
    (h : line ∈ listing.print id) :
    ∃ announced, announcement? none line = some (id, announced) := by
  unfold Listing.print at h
  obtain ⟨rest, hrest, rfl⟩ := List.mem_map.1 h
  cases hp : listing.get? id with
  | none =>
    rw [hp] at hrest
    cases hrest
  | some p =>
    rw [hp, Option.elim_some] at hrest
    have hmem : announcement? none (streamLine id rest)
        ∈ p.announcements.map fun announced => some (id, announced) := by
      rw [← announcement?_projectRests id p]
      exact List.mem_map_of_mem hrest
    obtain ⟨announced, -, hread⟩ := List.mem_map.1 hmem
    exact ⟨announced, hread.symm⟩

/-- **A log announces on every stream what the listing says of it**, however the
streams' lines come. -/
theorem announcementsOn_of_isInterleaving {listing : Listing} {log : List (List Char)}
    (h : IsInterleaving listing.print log) (id : StreamId) :
    announcementsOn none id log = (listing.get? id).elim [] (·.announcements) := by
  obtain ⟨printed, rfl, hparts⟩ := h
  have hown (e : StreamId × List Char) (he : e ∈ printed) :
      ∃ announced, announcement? none e.2 = some (e.1, announced) := by
    have hline : e.2 ∈ listing.print e.1 := by
      rw [← hparts e.1]
      exact List.mem_map_of_mem (List.mem_filter.2 ⟨he, decide_eq_true rfl⟩)
    exact exists_announcement?_of_mem_print hline
  rw [← announcementsOn_print, ← hparts id]
  unfold announcementsOn
  rw [List.filterMap_map, List.filterMap_map, List.filterMap_filter]
  refine List.filterMap_congr fun e he => ?_
  -- A line of another stream announces nothing on this one.
  obtain ⟨announced, hread⟩ := hown e he
  rw [Function.comp_apply, hread, Option.bind_some]
  by_cases hid : e.1 = id
  · rw [if_pos hid, if_pos (decide_eq_true hid)]
  · rw [if_neg hid, if_neg (by rwa [decide_eq_true_eq])]

end Log

end IncludeForest
