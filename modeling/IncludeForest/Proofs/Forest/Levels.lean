import IncludeForest.Proofs.Forest.Run
import IncludeForest.Proofs.Tree.Depths

/-!
# A module is the indentation of its notes

The trees of a module say no more than the notes that went to it: read in the
order of the log, its headers are the notes, path by path, and stand at the
depths that `IncludeTree.depths` makes of their levels. This holds after every
run, whatever was refused on the way, whatever happened to other modules, and
however often the forest was purged or simplified.

`Module.Records` is the invariant of one module. It needs one fact more than
it is about, that there is as much room below the last way down as below the
last header. `Forest.Records` says it of all modules at once, together with
the fact that a module that is not there has taken no note: a purge removes
only modules that have none, so a module that starts anew starts where its
notes do.
-/

namespace IncludeForest

open IncludeTree

/-- What can be seen of a place without the flags of its header: how deep it
stands and what its path is compared as. -/
def IncludeTree.Place.entry (p : Place) : Nat × String :=
  (p.level, p.header.comparedPath)

namespace Module

/-- **The trees of the module are those of the notes.** -/
structure Records (rules : ForestRules) (notes : List (Nat × String)) (m : Module) : Prop where
  /-- The headers stand where their levels put them. -/
  levels : m.places.map (·.level) = depths (notes.map (·.1))
  /-- The headers are the notes, in the same order. -/
  paths : m.places.map (·.header.comparedPath) = notes.map fun note => rules.policy.normalize note.2
  /-- A note can stand below the last header. -/
  lastWay : lastWay m.roots = room (notes.map (·.1))

/-- The levels and the paths are what the entries consist of. -/
theorem levels_and_paths_of_entries {m n : Module}
    (h : m.places.map Place.entry = n.places.map Place.entry) :
    m.places.map (·.level) = n.places.map (·.level) ∧
      m.places.map (·.header.comparedPath) = n.places.map (·.header.comparedPath) := by
  have hfst := congrArg (List.map Prod.fst) h
  have hsnd := congrArg (List.map Prod.snd) h
  rw [List.map_map, List.map_map] at hfst hsnd
  exact ⟨hfst, hsnd⟩

/-- A module that has just started records no note. -/
theorem records_empty (rules : ForestRules) : Records rules [] {} :=
  ⟨rfl, rfl, rfl⟩

/-- **A note appends one header**, as deep as its level or as the last way
down allows. -/
theorem entries_insertNote (m : Module) (rules : ForestRules) (level : Nat) (path : String) :
    (m.insertNote rules level path).1.places.map Place.entry
      = m.places.map Place.entry
        ++ [(min level (IncludeTree.lastWay m.roots), rules.policy.normalize path)] :=
  map_level_view_places_insertNote (fun _ => rfl) level m.roots

/-- The header that a note appends includes nothing. -/
theorem exists_entry_insertNote (m : Module) (rules : ForestRules) (level : Nat) (path : String) :
    ∃ p, p.tree.children = [] ∧
      (m.insertNote rules level path).1.places.getLast? = some p ∧
      (m.insertNote rules level path).1.places.map Place.entry
        = m.places.map Place.entry ++ [p.entry] := by
  obtain ⟨p, hlast, htree⟩ : ∃ p, (m.insertNote rules level path).1.places.getLast? = some p ∧
      p.tree.children = [] := by
    unfold places insertNote
    obtain ⟨p, hp, htree⟩ := Option.map_eq_some_iff.1
      (getLast?_places_insertNote _ level m.roots)
    exact ⟨p, hp, by rw [htree, IncludeTree.leaf, children_node]⟩
  have hentries := m.entries_insertNote rules level path
  have hentry := congrArg List.getLast? hentries
  rw [List.getLast?_map, hlast, List.getLast?_concat, Option.map_some] at hentry
  exact ⟨p, htree, hlast, by rw [hentries, Option.some.inj hentry]⟩

namespace Records

variable {rules : ForestRules} {notes : List (Nat × String)} {m : Module}

/-- The module with one note more records one note more. -/
theorem insertNote (h : m.Records rules notes) (level : Nat) (path : String) :
    (m.insertNote rules level path).1.Records rules (notes ++ [(level, path)]) := by
  have hentries := m.entries_insertNote rules level path
  have hlevels := congrArg (List.map Prod.fst) hentries
  have hpaths := congrArg (List.map Prod.snd) hentries
  rw [List.map_append, List.map_map, List.map_map] at hlevels hpaths
  constructor
  · rw [List.map_append, List.map_singleton, depths_concat, ← h.levels, ← h.lastWay]
    exact hlevels
  · rw [List.map_append, ← h.paths]
    exact hpaths
  · rw [List.map_append, List.map_singleton, room_concat, ← h.lastWay]
    exact lastWay_insertNote _ level m.roots

/-- The simplified module records the same notes, for they are compared by
the paths that stay. -/
theorem simplify (h : m.Records rules notes) : m.simplify.Records rules notes := by
  have hentries : m.simplify.places.map Place.entry = m.places.map Place.entry := by
    unfold places Module.simplify Place.entry
    rw [map_level_view (·.comparedPath), map_level_view (·.comparedPath),
      seen_places_mapAll fun g => g.comparedPath_dropFront _]
  obtain ⟨hlevels, hpaths⟩ := levels_and_paths_of_entries hentries
  exact ⟨hlevels.trans h.levels, hpaths.trans h.paths, (lastWay_mapAll _ m.roots).trans h.lastWay⟩

/-- An empty module records no note. -/
theorem notes_eq_nil (h : m.Records rules notes) (hempty : m.isEmpty = true) : notes = [] := by
  have hroots : m.roots = [] := List.isEmpty_iff.1 hempty
  have hpaths := h.paths
  rw [places, hroots] at hpaths
  exact List.map_eq_nil_iff.1 hpaths.symm

end Records

end Module

namespace Forest

/-- **The notes that went to a module**: of the steps of a run, those that are
addressed to it and were not refused, by level and path. -/
def notesTo (id : StreamId) (name : String) (steps : List Step)
    (answers : List (Except ForestError Answer)) : List (Nat × String) :=
  (steps.zip answers).filterMap fun
    | (.note i n level path, .ok _) => if i = id ∧ n = name then some (level, path) else none
    | _ => none

/-- **Every module records its notes**, and no note went to a module that is
not there. -/
structure Records (f : Forest) (notes : StreamId → String → List (Nat × String)) : Prop where
  /-- A module that is there records its notes. -/
  module {id : StreamId} {name : String} {m : Module} (h : f.module? id name = some m) :
    m.Records f.rules (notes id name)
  /-- A module that is not there has none. -/
  absent {id : StreamId} {name : String} (h : f.module? id name = none) : notes id name = []

/-- The forest in which nothing has happened records nothing. -/
theorem records_empty (rules : ForestRules) : (empty rules).Records fun _ _ => [] :=
  ⟨nofun, fun _ => rfl⟩

/-- The notes of a run are those of its first step and those of the rest. -/
theorem notesTo_cons (id : StreamId) (name : String) (step : Step) (steps : List Step)
    (answer : Except ForestError Answer) (answers : List (Except ForestError Answer)) :
    notesTo id name (step :: steps) (answer :: answers)
      = notesTo id name [step] [answer] ++ notesTo id name steps answers := by
  show List.filterMap _ ([(step, answer)] ++ steps.zip answers) = _
  rw [List.filterMap_append]
  rfl

/-- A note that is inserted is the one note of its step to its module, and to
no other. -/
theorem notesTo_note (i id : StreamId) (n name : String) (level : Nat) (path : String)
    (answer : Answer) :
    notesTo i n [.note id name level path] [.ok answer]
      = if i = id ∧ n = name then [(level, path)] else [] := by
  unfold notesTo
  by_cases h : i = id ∧ n = name
  · obtain ⟨rfl, rfl⟩ := h
    simp
  · have h' : ¬(id = i ∧ name = n) := fun h' => h ⟨h'.1.symm, h'.2.symm⟩
    simp [h, h']

namespace Records

variable {f : Forest} {notes : StreamId → String → List (Nat × String)}

/-- What a forest records depends on nothing but the rules and the modules
that are found in it. -/
theorem of_module?_eq {f' : Forest} (h : f.Records notes) (hrules : f'.rules = f.rules)
    (hfound : ∀ i n, f'.module? i n = f.module? i n) : f'.Records notes :=
  ⟨fun hm => hrules ▸ h.module (hfound _ _ ▸ hm), fun hm => h.absent (hfound _ _ ▸ hm)⟩

/-- A module that starts records no note, for none went to it before. -/
theorem startModule (h : f.Records notes) {f' : Forest} {id : StreamId} {name : String}
    (hstart : f.startModule id name = .ok f') (hrules : f'.rules = f.rules) :
    f'.Records notes := by
  obtain ⟨hfree, hfound⟩ := module?_of_startModule hstart
  refine ⟨fun {i n m} hm => ?_, fun {i n} hm => ?_⟩
  · rw [hfound] at hm
    by_cases hat : i = id ∧ n = name
    · obtain ⟨rfl, rfl⟩ := hat
      rw [if_pos ⟨rfl, rfl⟩] at hm
      cases hm
      rw [h.absent hfree]
      exact Module.records_empty _
    · rw [if_neg hat] at hm
      exact hrules ▸ h.module hm
  · rw [hfound] at hm
    by_cases hat : i = id ∧ n = name
    · rw [if_pos hat] at hm
      cases hm
    · rw [if_neg hat] at hm
      exact h.absent hm

/-- A note that is inserted is recorded by its module and by no other. -/
theorem insertNote (h : f.Records notes) {f' : Forest} {id : StreamId} {name : String}
    {level : Nat} {path : String} {outcome : Insertion}
    (hinsert : f.insertNote id name level path = .ok (f', outcome)) (hrules : f'.rules = f.rules) :
    f'.Records fun i n => notes i n ++ if i = id ∧ n = name then [(level, path)] else [] := by
  obtain ⟨target, htarget, -, hfound⟩ := module?_of_insertNote hinsert
  refine ⟨fun {i n m} hm => ?_, fun {i n} hm => ?_⟩
  · rw [hfound] at hm
    rw [hrules]
    by_cases hat : i = id ∧ n = name
    · obtain ⟨rfl, rfl⟩ := hat
      rw [if_pos ⟨rfl, rfl⟩] at hm ⊢
      cases hm
      exact (h.module htarget).insertNote level path
    · rw [if_neg hat] at hm ⊢
      rw [List.append_nil]
      exact h.module hm
  · rw [hfound] at hm
    by_cases hat : i = id ∧ n = name
    · rw [if_pos hat] at hm
      cases hm
    · rw [if_neg hat] at hm ⊢
      rw [List.append_nil, h.absent hm]

/-- What is purged has recorded nothing. -/
theorem purge (h : f.Records notes) : f.purge.1.Records notes := by
  refine ⟨fun {i n m} hm => ?_, fun {i n} hm => ?_⟩
  · rw [module?_purge, Option.filter_eq_some_iff] at hm
    exact h.module hm.1
  · rw [module?_purge, Option.filter_eq_none_iff] at hm
    cases hbefore : f.module? i n with
    | none => exact h.absent hbefore
    | some m =>
      have hempty : m.isEmpty = true := by simpa using hm m hbefore
      exact (h.module hbefore).notes_eq_nil hempty

/-- The simplified forest records the same notes. -/
theorem simplify (h : f.Records notes) : f.simplify.Records notes := by
  refine ⟨fun {i n m} hm => ?_, fun {i n} hm => ?_⟩
  · rw [module?_simplify] at hm
    obtain ⟨m', hm', rfl⟩ := Option.map_eq_some_iff.1 hm
    exact (h.module hm').simplify
  · rw [module?_simplify, Option.map_eq_none_iff] at hm
    exact h.absent hm

/-- **A step adds to what is recorded the note it inserts**, if it inserts
one. -/
theorem perform (h : f.Records notes) (step : Step) :
    (f.perform step).1.Records fun i n =>
      notes i n ++ notesTo i n [step] [(f.perform step).2] := by
  have hrules := rules_perform f step
  -- All steps but an accepted note add nothing to the notes of any module.
  have hquiet {f' : Forest} {answer : Except ForestError Answer} (h' : f'.Records notes)
      (hnone : ∀ i n, notesTo i n [step] [answer] = []) :
      f'.Records fun i n => notes i n ++ notesTo i n [step] [answer] := by
    have hsame : (fun i n => notes i n ++ notesTo i n [step] [answer]) = notes := by
      funext i n
      rw [hnone, List.append_nil]
    rw [hsame]
    exact h'
  cases step with
  | project id name =>
    unfold Forest.perform at hrules ⊢
    dsimp only at hrules ⊢
    split
    · next f' hstart =>
      rw [hstart] at hrules
      exact hquiet (h.of_module?_eq hrules (module?_of_startProject hstart)) fun _ _ => rfl
    · exact hquiet h fun _ _ => rfl
  | module id name =>
    unfold Forest.perform at hrules ⊢
    dsimp only at hrules ⊢
    split
    · next f' hstart =>
      rw [hstart] at hrules
      exact hquiet (h.startModule hstart hrules) fun _ _ => rfl
    · exact hquiet h fun _ _ => rfl
  | note id name level path =>
    unfold Forest.perform at hrules ⊢
    dsimp only at hrules ⊢
    split
    · next f' outcome hinsert =>
      rw [hinsert] at hrules
      simp only [notesTo_note]
      exact h.insertNote hinsert hrules
    · exact hquiet h fun _ _ => rfl
  | purge => exact hquiet h.purge fun _ _ => rfl
  | simplify => exact hquiet h.simplify fun _ _ => rfl

/-- **A run adds to what is recorded the notes it inserts.** -/
theorem performAll (h : f.Records notes) (steps : List Step) :
    (f.performAll steps).1.Records fun i n =>
      notes i n ++ notesTo i n steps (f.performAll steps).2 := by
  induction steps generalizing f notes with
  | nil =>
    have hsame : (fun i n => notes i n ++ notesTo i n [] []) = notes := by
      funext i n
      exact List.append_nil _
    show f.Records fun i n => notes i n ++ notesTo i n [] []
    rw [hsame]
    exact h
  | cons step steps ih =>
    have hsplit : (fun i n => notes i n ++ notesTo i n (step :: steps)
          ((f.perform step).2 :: ((f.perform step).1.performAll steps).2))
        = fun i n => (notes i n ++ notesTo i n [step] [(f.perform step).2])
          ++ notesTo i n steps ((f.perform step).1.performAll steps).2 := by
      funext i n
      rw [notesTo_cons, List.append_assoc]
    show ((f.perform step).1.performAll steps).1.Records fun i n => notes i n ++
      notesTo i n (step :: steps) ((f.perform step).2 :: ((f.perform step).1.performAll steps).2)
    rw [hsplit]
    exact ih (h.perform step)

end Records

/-- **A module is the indentation of its notes.** After every run, the headers
of a module in the order of the log are the notes that went to it, path by
path, and stand at the depths that their levels allow. The next note, whatever
its level, appends one header that includes nothing, and what is done elsewhere
changes nothing of the module. -/
theorem places_performAll (rules : ForestRules) (steps : List Step) {id : StreamId}
    {name : String} {m : Module}
    (h : ((empty rules).performAll steps).1.module? id name = some m) :
    let f := ((empty rules).performAll steps).1
    let notes := notesTo id name steps ((empty rules).performAll steps).2
    m.places.map (·.level) = depths (notes.map (·.1)) ∧
      m.places.map (·.header.comparedPath)
        = notes.map (fun note => rules.policy.normalize note.2) ∧
      (∀ level path, ∃ f' outcome m' p,
        f.insertNote id name level path = .ok (f', outcome) ∧
          f'.module? id name = some m' ∧
          m'.places.map Place.entry = m.places.map Place.entry ++ [p.entry] ∧
          m'.places.getLast? = some p ∧ p.tree.children = []) ∧
      ∀ step : Step, step.Spares id name → (f.perform step).1.module? id name = some m := by
  have hmodule := ((records_empty rules).performAll steps).module h
  rw [rules_performAll] at hmodule
  refine ⟨hmodule.levels, hmodule.paths, fun level path => ?_, fun step hstep =>
    module?_perform_of_spares h hstep⟩
  obtain ⟨f', hinsert⟩ := insertNote_of_module? h level path
  obtain ⟨target, htarget, -, hfound⟩ := module?_of_insertNote hinsert
  obtain rfl : m = target := Option.some.inj (h.symm.trans htarget)
  obtain ⟨p, hleaf, hlast, hentries⟩ := m.exists_entry_insertNote _ level path
  exact ⟨f', _, _, p, hinsert, by rw [hfound, if_pos ⟨rfl, rfl⟩], hentries, hlast, hleaf⟩

/-- A note without a project is refused, the two notes that jump are taken as
deep as they can be, and a purge between them and a second start of the module
change nothing. -/
theorem places_performAll_jumps :
    let steps : List Step :=
      [.note 1 "main.cpp" 0 "x.h", .project 1 "demo", .module 1 "main.cpp",
        .note 1 "main.cpp" 18446744073709551615 "a.h", .purge, .note 1 "main.cpp" 7 "b.h",
        .module 1 "main.cpp", .note 1 "main.cpp" 1 "c.h", .simplify]
    ∃ m, ((empty {}).performAll steps).1.module? 1 "main.cpp" = some m ∧
      m.places.map (·.level) = [0, 1, 1] := by
  intro steps
  have hthere : (((empty {}).performAll steps).1.module? 1 "main.cpp").isSome = true := by decide
  obtain ⟨m, hm⟩ := Option.isSome_iff_exists.1 hthere
  exact ⟨m, hm, (places_performAll {} steps hm).1.trans (by decide)⟩

end Forest

end IncludeForest
