import Mathlib.Tactic.Choose
import IncludeForest.Proofs.Log.Listing
import IncludeForest.Proofs.Scan.Projection

/-!
# A printed listing is read back

The scan of a log is the inverse of printing one: whatever a listing holds, and
in whatever order its streams' lines come, the forest of the scan holds the
same projects, the same modules and the same trees.

Every stream can be looked at by itself, and what it announces is known. Its
project starts, then one module after another starts and takes the notes of its
outline, and is left with the trees that the outline is of.
-/

namespace IncludeForest

open Log IncludeTree PathTree

/-- **The module that a listing describes**, as its notes build it. -/
def Log.ModuleListing.build (rules : ForestRules) (m : ModuleListing) : Module :=
  Module.insertAll {} rules (outlineAll 0 m.trees)

theorem Log.ModuleListing.shownAll_build (rules : ForestRules) (m : ModuleListing) :
    shownAll (m.build rules).roots = m.trees :=
  Module.shownAll_insertAll_outlineAll rules m.trees

/-- **The modules of a project with some more**, one after another. -/
def insertModules (rules : ForestRules) (modules : SortedMap String Module)
    (listed : List ModuleListing) : SortedMap String Module :=
  listed.foldl (fun modules m => modules.insert m.name (m.build rules)) modules

/-- Every module is found that was inserted, if no two have the same name. -/
theorem get?_insertModules (rules : ForestRules) (modules : SortedMap String Module)
    {listed : List ModuleListing} (h : (listed.map (·.name)).Nodup) (name : String) :
    (insertModules rules modules listed).get? name
      = ((listed.find? (·.name = name)).map (·.build rules)).or (modules.get? name) := by
  induction listed generalizing modules with
  | nil => rfl
  | cons m listed ih =>
    rw [List.map_cons, List.nodup_cons] at h
    show (insertModules rules (modules.insert m.name (m.build rules)) listed).get? name = _
    rw [ih _ h.2, SortedMap.get?_insert, List.find?_cons]
    by_cases hname : m.name = name
    · have hlater : listed.find? (·.name = name) = none := by
        rw [List.find?_eq_none]
        intro n hn hsame
        refine h.1 (List.mem_map.2 ⟨n, hn, ?_⟩)
        rw [hname]
        exact of_decide_eq_true hsame
      simp [hname, hlater]
    · simp [hname, Ne.symm hname]

namespace StreamState

variable (rules : ForestRules) (id : StreamId)

/-- The notes of the last module go to it, one after another. -/
theorem takeAll_notes (p : Project) (name : String) {m : Module}
    (h : p.modules.get? name = some m) (notes : List (Nat × String)) :
    takeAll rules id ⟨some p, some name⟩ (notes.map fun note => .header note.1 note.2)
      = .ok ⟨some { p with modules := p.modules.insert name (m.insertAll rules notes) },
          some name⟩ := by
  -- Every note changes the module in the project, so both vary.
  induction notes generalizing p m with
  | nil =>
    show _ = Except.ok (StreamState.mk (some { p with modules := p.modules.insert name m }) _)
    rw [SortedMap.insert_eq_self _ h]
    rfl
  | cons note notes ih =>
    have htake : take rules id ⟨some p, some name⟩ (.header note.1 note.2)
        = .ok
          ⟨some { p with modules := p.modules.insert name (m.insertNote rules note.1 note.2).1 },
            some name⟩ := by
      unfold take change?
      simp only [Option.getD_some, h]
      rfl
    rw [List.map_cons, takeAll_cons_of_take htake, ih _ (SortedMap.get?_insert_self ..)]
    dsimp only
    rw [SortedMap.insert_insert]
    rfl

/-- A module that has not started yet starts and takes its notes. -/
theorem takeAll_module (p : Project) (latest : Option String) (m : ModuleListing)
    (h : p.modules.get? m.name = none) :
    takeAll rules id ⟨some p, latest⟩ m.announcements
      = .ok ⟨some { p with modules := p.modules.insert m.name (m.build rules) },
          some m.name⟩ := by
  have htake : take rules id ⟨some p, latest⟩ (.module m.name)
      = .ok ⟨some { p with modules := p.modules.insert m.name {} }, some m.name⟩ := by
    unfold take change?
    simp only [h]
    rfl
  unfold ModuleListing.announcements
  rw [takeAll_cons_of_take htake, takeAll_notes rules id _ _ (SortedMap.get?_insert_self ..)]
  dsimp only
  rw [SortedMap.insert_insert]
  rfl

/-- Modules with different names start one after another. -/
theorem takeAll_modules (p : Project) (latest : Option String) {listed : List ModuleListing}
    (hnodup : (listed.map (·.name)).Nodup)
    (hfresh : ∀ m ∈ listed, p.modules.get? m.name = none) :
    ∃ latest', takeAll rules id ⟨some p, latest⟩ (listed.flatMap (·.announcements))
      = .ok ⟨some { p with modules := insertModules rules p.modules listed }, latest'⟩ := by
  induction listed generalizing p latest with
  | nil => exact ⟨latest, rfl⟩
  | cons m listed ih =>
    rw [List.map_cons, List.nodup_cons] at hnodup
    have hm := takeAll_module rules id p latest m (hfresh m List.mem_cons_self)
    rw [List.flatMap_cons, takeAll_append_of_takeAll hm]
    refine ih _ _ hnodup.2 fun n hn => ?_
    have hne : n.name ≠ m.name := fun hsame => hnodup.1 (hsame ▸ List.mem_map_of_mem hn)
    show (p.modules.insert m.name (m.build rules)).get? n.name = none
    rw [SortedMap.get?_insert_ne _ hne]
    exact hfresh n (List.mem_cons_of_mem m hn)

/-- **A project's announcements build the project.** -/
theorem takeAll_project (p : ProjectListing) :
    ∃ latest, takeAll rules id {} p.announcements
      = .ok ⟨some { name := p.name, modules := insertModules rules .empty p.modules }, latest⟩ := by
  have htake : take rules id {} (.project p.name) = .ok ⟨some { name := p.name }, none⟩ := rfl
  unfold ProjectListing.announcements
  rw [takeAll_cons_of_take htake]
  exact takeAll_modules rules id _ none p.nodup fun _ _ => rfl

end StreamState

/-- **Printing and scanning is the identity.** However the lines of a listing's
streams come, none of them is refused, and the forest holds the projects of the
listing and no others, each with its name and its modules and no others, and
every module shows its trees. -/
theorem scan_of_isInterleaving (rules : ForestRules) (listing : Listing) {log : List (List Char)}
    (h : IsInterleaving listing.print log) :
    let result := scan (.empty rules) none log
    result.2 = none ∧ ∀ id,
      (result.1.forest.projects.get? id).map (·.name) = (listing.get? id).map (·.name) ∧
        ∀ name, (result.1.forest.module? id name).map (fun m => shownAll m.roots)
          = ((listing.get? id).bind (·.module? name)).map (·.trees) := by
  have hstream (id : StreamId) : ∃ st : StreamState,
      StreamState.takeAll rules id {} (announcementsOn none id log) = .ok st ∧
        st.project.map (·.name) = (listing.get? id).map (·.name) ∧
        ∀ name, (st.module? name).map (fun m => shownAll m.roots)
          = ((listing.get? id).bind (·.module? name)).map (·.trees) := by
    rw [announcementsOn_of_isInterleaving h id]
    cases listing.get? id with
    | none => exact ⟨{}, rfl, rfl, fun _ => rfl⟩
    | some p =>
      obtain ⟨latest, htake⟩ := StreamState.takeAll_project rules id p
      refine ⟨_, htake, rfl, fun name => ?_⟩
      rw [StreamState.module?, Option.bind_some, Option.bind_some, get?_insertModules _ _ p.nodup,
        SortedMap.get?_empty, Option.or_none, Option.map_map]
      exact congrArg (Option.map · (p.module? name)) (funext fun m => m.shownAll_build rules)
  choose final htake hname hmodules using hstream
  obtain ⟨hend, hfinal⟩ := (Scanner.start (.empty rules) none).readLines_of_takeAll 1 htake
  refine ⟨hend, fun id => ?_⟩
  have hid := hfinal id
  refine ⟨?_, fun name => ?_⟩
  · rw [← hname id, ← hid]
    rfl
  · rw [← hmodules id name, ← hid]
    rfl

/-- Two streams in turns: the second starts while the first prints its notes. -/
theorem scan_of_isInterleaving_in_turns :
    let tree : PathTree := .node "a.h" [.node "b c.h" [], .node "d.h" []]
    let app : ProjectListing :=
      { name := "app"
        modules := [⟨"main.cpp", [tree, .node "e.h" []], by decide, by decide⟩]
        isName := by decide
        nodup := by decide }
    let lib : ProjectListing :=
      { name := "lib"
        modules := [⟨"one.c", [], by decide, by decide⟩]
        isName := by decide
        nodup := by decide }
    let listing : Listing := (SortedMap.empty.insert 1 app).insert 22 lib
    let log := [
      "1> Project: app", "1> main.cpp", "1> Note: including file: a.h", "22> Project: lib",
      "1> Note: including file:  b c.h", "22> one.c", "1> Note: including file:  d.h",
      "1> Note: including file: e.h"].map String.toList
    let result := scan (.empty {}) none log
    IsInterleaving listing.print log ∧ result.2 = none ∧
      (result.1.forest.module? 1 "main.cpp").map (fun m => shownAll m.roots)
        = some [tree, .node "e.h" []] := by
  intro tree app lib listing log result
  have htags : ∀ tag ∈ ([1, 1, 1, 22, 1, 22, 1, 1] : List StreamId), tag = 1 ∨ tag = 22 := by
    simp
  have hlog : IsInterleaving listing.print log := by
    refine ⟨[1, 1, 1, 22, 1, 22, 1, 1].zip log, rfl, fun id => ?_⟩
    by_cases h₁ : id = 1
    · subst h₁
      decide
    · by_cases h₂ : id = 22
      · subst h₂
        decide
      · -- No other stream prints anything.
        have hget : listing.get? id = none := by
          show ((SortedMap.empty.insert 1 app).insert 22 lib).get? id = none
          rw [SortedMap.get?_insert_ne _ h₂, SortedMap.get?_insert_ne _ h₁]
          rfl
        unfold Listing.print
        rw [hget, List.filter_eq_nil_iff.2 ?_]
        · rfl
        · rintro ⟨tag, line⟩ he
          rw [decide_eq_true_eq]
          rintro rfl
          exact (htags tag (List.of_mem_zip he).1).elim h₁ h₂
  have hscan := scan_of_isInterleaving {} listing hlog
  exact ⟨hlog, hscan.1, (hscan.2 1).2 "main.cpp"⟩

end IncludeForest
