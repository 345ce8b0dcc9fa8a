import Mathlib.Data.List.Basic
import IncludeForest.Proofs.View.Writing

/-!
# What has a line in the outline

The outline is written by a walk that turns back where a line is folded. Here it is
said without a walk. A forest has an **entry** for everything in it: for each project,
behind it for each of its modules, behind that for each header of the module in the
order of the log. An entry knows what it stands below, so whether it can be seen is a
matter of that entry alone: all that it stands below has to be opened.

And what its line says is, too. A folded line ends in a count, which is that of the
headers below it that cannot be seen; for a project it is that of its modules.

`outline_eq` is the statement that the walk writes the lines of the entries that can be
seen, and `forestText_eq` says the same of the text.

## What opens a line

A line leads somewhere if a cycle or a match is below it. For a module and a project that
is to say in it. A header's own cycle or match does not open its line, since there is
nothing more to see of it.
-/

namespace IncludeForest

open IncludeTree

/-- Whether a cycle or a match is in the project. -/
def Project.leads (p : Project) : Bool :=
  p.hasCycle || p.hasMatch

/-- Whether a cycle or a match is in the module. -/
def Module.leads (m : Module) : Bool :=
  m.hasCycle || m.hasMatch

/-- Whether a cycle or a match is below the header. -/
def Header.leads (h : Header) : Bool :=
  h.containsCycle || h.containsMatch

/-- What is not opened is folded: it leads nowhere, and only what leads somewhere is
opened. -/
theorem folded_of_not_opened {autoExpand leads : Bool} (h : ¬(!autoExpand || leads) = true) :
    autoExpand = true ∧ leads = false := by
  cases autoExpand with
  | false => exact absurd rfl h
  | true => exact ⟨rfl, Bool.eq_false_iff.2 h⟩

/-- **The places below a place**, in the order of the log. -/
def IncludeTree.Place.below (p : Place) : List Place :=
  placesBelowAll (p.header :: p.above) p.tree.children

namespace View

/-- **What has a line in the outline**, with what it stands in. -/
inductive Entry where
  /-- A project. -/
  | project (p : Project)
  /-- A module of a project. -/
  | module (p : Project) (name : String) (m : Module)
  /-- A header of a module of a project. -/
  | header (p : Project) (name : String) (m : Module) (place : Place)

namespace Entry

/-- The entries of a module: its own, and those of its headers. -/
def ofModule (p : Project) (name : String) (m : Module) : List Entry :=
  .module p name m :: m.places.map (.header p name m)

/-- The entries of a project: its own, and those of its modules. -/
def ofProject (p : Project) : List Entry :=
  .project p :: p.modules.toList.flatMap fun (name, m) => ofModule p name m

/-- **All entries of a forest**, project by project. -/
def ofForest (f : Forest) : List Entry :=
  f.projects.values.flatMap ofProject

/-- Whether the entry is that of a header. -/
def isHeader : Entry → Bool
  | .header .. => true
  | _ => false

/-- **How deep the entry stands** in the outline. -/
def level : Entry → Nat
  | .project _ => 0
  | .module .. => 1
  | .header _ _ _ place => 2 + place.level

/-- **The name on its line.** -/
def name : Entry → String
  | .project p => p.name
  | .module _ name _ => name
  | .header _ _ _ place => place.header.shownPath

/-- **The markers on its line.** -/
def marks : Entry → String
  | .project p => if p.hasCycle then " [contains cycle]" else ""
  | .module _ _ m => if m.hasCycle then " [contains cycle]" else ""
  | .header _ _ _ place =>
    (if place.header.closesCycle then " [cycle]"
      else if place.header.containsCycle then " [contains cycle]" else "") ++
    if place.header.isMatched then " [match]" else ""

/-- **Whether a cycle or a match is below the entry.** -/
def leads : Entry → Bool
  | .project p => p.leads
  | .module _ _ m => m.leads
  | .header _ _ _ place => place.header.leads

/-- **Whether the entry can be seen**: everything can if nothing is folded, and otherwise
what stands below nothing but what leads to a cycle or a match. -/
def isVisible (autoExpand : Bool) : Entry → Bool
  | .project _ => true
  | .module p _ _ => !autoExpand || p.leads
  | .header p _ m place => !autoExpand || (p.leads && m.leads && place.above.all (·.leads))

/-- Whether the entry is one that has something below it. What a project or a module
could have is folded as well where there is nothing. -/
def canFold : Entry → Bool
  | .header _ _ _ place => !place.tree.children.isEmpty
  | _ => true

/-- **How much below the entry cannot be seen**: the modules of a project, and the
headers of a module and of a header. -/
def hidden (autoExpand : Bool) : Entry → Nat
  | .project p => p.modules.size
  | .module p name m =>
    m.places.countP fun q => !(Entry.header p name m q).isVisible autoExpand
  | .header p name m place =>
    place.below.countP fun q => !(Entry.header p name m q).isVisible autoExpand

/-- **The count on its line**, if the line is folded. -/
def count? (autoExpand : Bool) (e : Entry) : Option Nat :=
  if autoExpand && !e.leads && e.canFold then some (e.hidden autoExpand) else none

/-- **The line of the entry as a text**: two spaces a level, the name, the markers and
the count. -/
def text (autoExpand : Bool) (e : Entry) : String :=
  indentation e.level ++ e.name ++ e.marks ++
    (e.count? autoExpand).elim "" (fun count => " (+" ++ toString count ++ ")") ++ "\n"

/-- What stands on the line before any count. -/
def segments : Entry → List Segment
  | .project p => containerSegments p.name p.hasCycle
  | .module _ name m => containerSegments name m.hasCycle
  | .header _ _ _ place => headerSegments place.header

/-- **The line of the entry.** -/
def line (autoExpand : Bool) (e : Entry) : Line :=
  { level := e.level
    segments := e.segments ++ (e.count? autoExpand).elim [] hiddenCount }

end Entry

variable {autoExpand : Bool} {p : Project} {name : String} {m : Module}

/-! ## What the lines say -/

theorem plainText_containerSegments (name : String) (containsCycle : Bool) :
    plainText (containerSegments name containsCycle)
      = name ++ if containsCycle then " [contains cycle]" else "" := by
  unfold containerSegments
  rw [plainText_cons, plainText_markers_cons]
  show name ++ ((if containsCycle then " " ++ "[contains cycle]" else "") ++ "") = _
  rw [String.append_empty]
  rfl

theorem plainText_headerSegments (h : Header) :
    plainText (headerSegments h)
      = h.shownPath ++
        ((if h.closesCycle then " [cycle]"
          else if h.containsCycle then " [contains cycle]" else "") ++
        if h.isMatched then " [match]" else "") := by
  unfold headerSegments
  rw [plainText_append, plainText_headerName, plainText_markers_cons, plainText_markers_cons,
    plainText_markers_cons]
  refine congrArg (h.shownPath ++ ·) ?_
  cases h.closesCycle <;> cases h.containsCycle <;> cases h.isMatched <;> rfl

/-- **What stands on an entry's line**: its name, its markers and its count. -/
theorem Entry.plainText_line (autoExpand : Bool) (e : Entry) :
    plainText (e.line autoExpand).segments
      = e.name ++ e.marks ++
        (e.count? autoExpand).elim "" fun count => " (+" ++ toString count ++ ")" := by
  have hsegments : plainText e.segments = e.name ++ e.marks := by
    cases e with
    | project p => exact plainText_containerSegments p.name p.hasCycle
    | module p name m => exact plainText_containerSegments name m.hasCycle
    | header p name m place => exact plainText_headerSegments place.header
  unfold line
  rw [plainText_append, hsegments]
  refine congrArg (e.name ++ e.marks ++ ·) ?_
  cases e.count? autoExpand with
  | none => rfl
  | some count => exact plainText_hiddenCount count

/-- **What an entry's line says is the entry's text.** -/
theorem Entry.write_line (autoExpand : Bool) (e : Entry) :
    (e.line autoExpand).write false = e.text autoExpand := by
  rw [Line.write_false, e.plainText_line, text]
  simp only [String.append_assoc]
  rfl

end View

/-! ## What is reached in a tree -/

namespace IncludeTree

variable {autoExpand : Bool} {q : Place} {g : Header}

/-- **Whether a place is reached**: all headers that it stands below are opened. -/
def Place.isReached (autoExpand : Bool) (q : Place) : Bool :=
  !autoExpand || q.above.all (·.leads)

mutual

theorem mem_above_of_mem_placesBelow {above : List Header} (hg : g ∈ above) :
    (t : IncludeTree) → q ∈ placesBelow above t → g ∈ q.above
  | node h ts, hq => by
    rw [placesBelow, List.mem_cons] at hq
    rcases hq with rfl | hq
    · exact hg
    · exact mem_above_of_mem_placesBelowAll (List.mem_cons_of_mem h hg) ts hq

/-- What stands below some headers has them above it. -/
theorem mem_above_of_mem_placesBelowAll {above : List Header} (hg : g ∈ above) :
    (ts : List IncludeTree) → q ∈ placesBelowAll above ts → g ∈ q.above
  | [], hq => absurd hq List.not_mem_nil
  | t :: ts, hq => by
    rw [placesBelowAll, List.mem_append] at hq
    rcases hq with hq | hq
    · exact mem_above_of_mem_placesBelow hg t hq
    · exact mem_above_of_mem_placesBelowAll hg ts hq

end

/-- **Nothing is reached below a header that leads nowhere.** -/
theorem isReached_eq_false (hleads : g.leads = false) (hg : g ∈ q.above) :
    q.isReached true = false := by
  refine List.all_eq_false.2 ⟨g, hg, ?_⟩
  rw [hleads]
  exact Bool.false_ne_true

/-- Below an opened header, everything above is opened if it was. -/
theorem opened_cons {above : List Header} {h : Header} (hopen : (!autoExpand || h.leads) = true)
    (habove : (!autoExpand || above.all (·.leads)) = true) :
    (!autoExpand || (h :: above).all (·.leads)) = true := by
  rw [List.all_cons, Bool.or_and_distrib_left, hopen, habove]
  rfl

/-- **What is reached in a tree**: its root, and if the root is opened, what is reached
below it. -/
theorem filter_placesBelow {above : List Header} (h : Header) (ts : List IncludeTree)
    (habove : (!autoExpand || above.all (·.leads)) = true) :
    (placesBelow above (node h ts)).filter (·.isReached autoExpand)
      = ⟨above, node h ts⟩ ::
        if !autoExpand || h.leads then
          (placesBelowAll (h :: above) ts).filter (·.isReached autoExpand)
        else [] := by
  have hroot : Place.isReached autoExpand ⟨above, node h ts⟩ = true := habove
  rw [placesBelow, List.filter_cons_of_pos hroot]
  refine congrArg (_ :: ·) ?_
  split
  · rfl
  · next hfolded =>
    obtain ⟨rfl, hleads⟩ := folded_of_not_opened hfolded
    rw [List.filter_eq_nil_iff]
    intro q hq
    rw [isReached_eq_false hleads (mem_above_of_mem_placesBelowAll List.mem_cons_self ts hq)]
    exact Bool.false_ne_true

end IncludeTree

namespace View

variable {autoExpand : Bool} {p : Project} {name : String} {m : Module}

/-- A line is opened by what leads somewhere. -/
theorem opened_eq (autoExpand containsCycle containsMatch : Bool) :
    opened autoExpand containsCycle containsMatch
      = (!autoExpand || (containsCycle || containsMatch)) :=
  Bool.or_assoc ..

/-! ## What can be seen -/

/-- Of a folded project nothing can be seen below its own line. -/
theorem isVisible_of_project_folded (hleads : p.leads = false) {e : Entry}
    (he : e ∈ Entry.ofModule p name m) : e.isVisible true = false := by
  rcases List.mem_cons.1 he with rfl | he
  · exact hleads
  · obtain ⟨q, -, rfl⟩ := List.mem_map.1 he
    show (p.leads && m.leads && q.isReached true) = false
    rw [hleads, Bool.false_and, Bool.false_and]

/-- Nothing of a folded module can be seen below its own line. -/
theorem isVisible_of_module_folded (hleads : m.leads = false) (q : Place) :
    (Entry.header p name m q).isVisible true = false := by
  show (p.leads && m.leads && q.isReached true) = false
  rw [hleads, Bool.and_false, Bool.false_and]

/-- Nothing below a folded header can be seen. -/
theorem isVisible_of_header_folded {q r : Place} (hleads : q.header.leads = false)
    (hr : r ∈ q.below) : (Entry.header p name m r).isVisible true = false := by
  show (p.leads && m.leads && r.isReached true) = false
  rw [isReached_eq_false hleads (mem_above_of_mem_placesBelowAll List.mem_cons_self _ hr),
    Bool.and_false]

/-- In a project and a module that are opened, what is reached can be seen. -/
theorem isVisible_header (hp : (!autoExpand || p.leads) = true)
    (hm : (!autoExpand || m.leads) = true) (q : Place) :
    (Entry.header p name m q).isVisible autoExpand = q.isReached autoExpand := by
  cases autoExpand with
  | false => rfl
  | true =>
    have hp : p.leads = true := hp
    have hm : m.leads = true := hm
    show (p.leads && m.leads && q.isReached true) = q.isReached true
    rw [hp, hm]
    rfl

/-- **What can be seen of a module** of a project that is opened: its line, and if it is
opened, the headers that are reached. -/
theorem filter_ofModule (hp : (!autoExpand || p.leads) = true) (name : String) (m : Module) :
    (Entry.ofModule p name m).filter (·.isVisible autoExpand)
      = .module p name m ::
        if !autoExpand || m.leads then
          (m.places.filter (·.isReached autoExpand)).map (.header p name m)
        else [] := by
  have hline : (Entry.module p name m).isVisible autoExpand = true := hp
  unfold Entry.ofModule
  rw [List.filter_cons_of_pos hline, List.filter_map]
  refine congrArg (_ :: ·) ?_
  split
  · next hopen =>
    exact congrArg _ (List.filter_congr fun q _ => isVisible_header hp hopen q)
  · next hclosed =>
    obtain ⟨rfl, hleads⟩ := folded_of_not_opened hclosed
    rw [List.map_eq_nil_iff, List.filter_eq_nil_iff]
    intro q _
    exact Bool.eq_false_iff.1 (isVisible_of_module_folded hleads q)

/-- **What can be seen of a project**: its line, and if it is opened, what can be seen of
its modules. -/
theorem filter_ofProject (autoExpand : Bool) (p : Project) :
    (Entry.ofProject p).filter (·.isVisible autoExpand)
      = .project p ::
        if !autoExpand || p.leads then
          p.modules.toList.flatMap fun (name, m) =>
            (Entry.ofModule p name m).filter (·.isVisible autoExpand)
        else [] := by
  unfold Entry.ofProject
  rw [List.filter_cons_of_pos rfl, List.filter_flatMap]
  refine congrArg (_ :: ·) ?_
  split
  · rfl
  · next hclosed =>
    obtain ⟨rfl, hleads⟩ := folded_of_not_opened hclosed
    rw [List.flatMap_eq_nil_iff]
    intro entry _
    rw [List.filter_eq_nil_iff]
    intro e he
    exact Bool.eq_false_iff.1 (isVisible_of_project_folded hleads he)

/-! ## What the counts are -/

/-- An entry that is opened has no count. -/
theorem count?_of_opened {e : Entry} (h : (!autoExpand || e.leads) = true) :
    e.count? autoExpand = none := by
  refine if_neg fun hfolded => ?_
  rw [Bool.and_eq_true, Bool.and_eq_true, Bool.not_eq_true'] at hfolded
  obtain ⟨⟨rfl, hleads⟩, -⟩ := hfolded
  rw [hleads] at h
  exact Bool.false_ne_true h

/-- Nor has a header that has nothing below it. -/
theorem count?_of_leaf {e : Entry} (h : e.canFold = false) : e.count? autoExpand = none := by
  refine if_neg ?_
  rw [h, Bool.and_false]
  exact Bool.false_ne_true

/-- An entry that is folded counts what it hides. -/
theorem count?_of_folded {e : Entry} (hleads : e.leads = false) (hfold : e.canFold = true) :
    e.count? true = some (e.hidden true) := by
  refine if_pos ?_
  rw [hleads, hfold]
  rfl

/-- **A folded header hides all headers below it.** -/
theorem hidden_header {q : Place} (hleads : q.header.leads = false) :
    (Entry.header p name m q).hidden true = sizeAll q.tree.children := by
  have hnone : ∀ r ∈ q.below, (!(Entry.header p name m r).isVisible true) = true := by
    intro r hr
    rw [isVisible_of_header_folded hleads hr]
    rfl
  show q.below.countP _ = _
  rw [List.countP_eq_length.2 hnone]
  exact length_placesBelowAll ..

/-- **A folded module hides all its headers.** -/
theorem hidden_module (hleads : m.leads = false) :
    (Entry.module p name m).hidden true = m.size := by
  have hnone : ∀ r ∈ m.places, (!(Entry.header p name m r).isVisible true) = true := by
    intro r _
    rw [isVisible_of_module_folded hleads]
    rfl
  show m.places.countP _ = _
  rw [List.countP_eq_length.2 hnone]
  exact length_places m.roots

/-! ## What the outline lists -/

/-- The line of an entry without a count is its name and its markers. -/
theorem line_eq {e : Entry} (h : e.count? autoExpand = none) :
    e.line autoExpand = { level := e.level, segments := e.segments } := by
  unfold Entry.line
  rw [h, Option.elim_none, List.append_nil]

/-- The line of an entry with a count ends in it. -/
theorem line_eq_of_count {e : Entry} {count : Nat} (h : e.count? autoExpand = some count) :
    e.line autoExpand = { level := e.level, segments := e.segments ++ hiddenCount count } := by
  unfold Entry.line
  rw [h, Option.elim_some]

mutual

theorem treeLines_eq {above : List Header} (p : Project) (name : String) (m : Module)
    (habove : (!autoExpand || above.all (·.leads)) = true) :
    (t : IncludeTree) → treeLines autoExpand (2 + above.length) t
      = ((placesBelow above t).filter (·.isReached autoExpand)).map
          fun q => (Entry.header p name m q).line autoExpand
  | node h ts => by
    have hopened : opened autoExpand h.containsCycle h.containsMatch = (!autoExpand || h.leads) :=
      opened_eq ..
    rw [treeLines, filter_placesBelow h ts habove, List.map_cons, hopened]
    by_cases hopen : (!autoExpand || h.leads) = true
    · have hinside : (ts.isEmpty || (!autoExpand || h.leads)) = true := by
        rw [hopen, Bool.or_true]
      have hline : (Entry.header p name m ⟨above, node h ts⟩).line autoExpand = _ :=
        line_eq (count?_of_opened hopen)
      rw [if_pos hinside, if_pos hopen, hline,
        ← treesLines_eq p name m (opened_cons hopen habove) ts]
      rfl
    · rw [if_neg hopen]
      obtain ⟨rfl, hleads⟩ := folded_of_not_opened hopen
      cases ts with
      | nil =>
        have hline : (Entry.header p name m ⟨above, node h []⟩).line true = _ :=
          line_eq (count?_of_leaf rfl)
        rw [hline]
        rfl
      | cons t ts =>
        have hhidden : (Entry.header p name m ⟨above, node h (t :: ts)⟩).hidden true = _ :=
          hidden_header hleads
        have hline : (Entry.header p name m ⟨above, node h (t :: ts)⟩).line true = _ :=
          line_eq_of_count (count?_of_folded hleads rfl)
        rw [hline, hhidden]
        exact if_neg hopen

/-- **The lines of some trees are those of what is reached in them.** -/
theorem treesLines_eq {above : List Header} (p : Project) (name : String) (m : Module)
    (habove : (!autoExpand || above.all (·.leads)) = true) :
    (ts : List IncludeTree) → treesLines autoExpand (2 + above.length) ts
      = ((placesBelowAll above ts).filter (·.isReached autoExpand)).map
          fun q => (Entry.header p name m q).line autoExpand
  | [] => rfl
  | t :: ts => by
    rw [treesLines, placesBelowAll, List.filter_append, List.map_append,
      treeLines_eq p name m habove t, treesLines_eq p name m habove ts]

end

/-- The lines of a project or a module are its own, with a count if it is folded, and if
it is opened, those inside. -/
theorem containerLines_eq (e : Entry) {name : String} {containsCycle containsMatch : Bool}
    {hidden : Nat} (hsegments : e.segments = containerSegments name containsCycle)
    (hleads : e.leads = (containsCycle || containsMatch)) (hfold : e.canFold = true)
    (hhidden : e.leads = false → e.hidden true = hidden) (inside : List Line) :
    containerLines e.level name containsCycle (opened autoExpand containsCycle containsMatch) hidden
        inside
      = e.line autoExpand :: if !autoExpand || e.leads then inside else [] := by
  unfold containerLines
  rw [opened_eq, ← hleads, ← hsegments]
  by_cases hopen : (!autoExpand || e.leads) = true
  · rw [if_pos hopen, if_pos hopen, line_eq (count?_of_opened hopen)]
  · rw [if_neg hopen, if_neg hopen]
    obtain ⟨rfl, hclosed⟩ := folded_of_not_opened hopen
    rw [line_eq_of_count (count?_of_folded hclosed hfold), hhidden hclosed]

/-- **The lines of a module** of a project that is opened are those of what can be seen
of it. -/
theorem moduleLines_eq (hp : (!autoExpand || p.leads) = true) (name : String) (m : Module) :
    moduleLines autoExpand name m
      = ((Entry.ofModule p name m).filter (·.isVisible autoExpand)).map (·.line autoExpand) := by
  have hroots : (!autoExpand || ([] : List Header).all (·.leads)) = true := Bool.or_true _
  have hinside : treesLines autoExpand 2 m.roots = _ := treesLines_eq p name m hroots m.roots
  have hlines : moduleLines autoExpand name m
      = (Entry.module p name m).line autoExpand :: if !autoExpand || m.leads then _ else [] :=
    containerLines_eq (.module p name m) rfl rfl rfl hidden_module _
  rw [hlines, filter_ofModule hp, List.map_cons, hinside, apply_ite (List.map _), List.map_map]
  rfl

/-- **The lines of a project** are those of what can be seen of it. -/
theorem projectLines_eq (autoExpand : Bool) (p : Project) :
    projectLines autoExpand p
      = ((Entry.ofProject p).filter (·.isVisible autoExpand)).map (·.line autoExpand) := by
  have hlines : projectLines autoExpand p
      = (Entry.project p).line autoExpand :: if !autoExpand || p.leads then _ else [] :=
    containerLines_eq (.project p) rfl rfl rfl (fun _ => rfl) _
  rw [hlines, filter_ofProject, List.map_cons]
  refine congrArg (_ :: ·) ?_
  split
  · next hopen =>
    rw [List.map_flatMap]
    exact List.flatMap_congr fun entry _ => moduleLines_eq hopen entry.1 entry.2
  · rfl

/-- **The outline lists the lines of all entries that can be seen.** -/
theorem outline_eq (autoExpand : Bool) (f : Forest) :
    outline autoExpand f
      = ((Entry.ofForest f).filter (·.isVisible autoExpand)).map (·.line autoExpand) := by
  unfold outline Entry.ofForest
  rw [List.filter_flatMap, List.map_flatMap]
  exact List.flatMap_congr fun p _ => projectLines_eq autoExpand p

/-- **Without styles, the outline is written as the texts of all entries that can be
seen.** -/
theorem forestText_eq (autoExpand : Bool) (f : Forest) :
    forestText { autoExpand, color := false } f
      = String.join (((Entry.ofForest f).filter (·.isVisible autoExpand)).map
          (·.text autoExpand)) := by
  unfold forestText write
  rw [outline_eq, List.map_map]
  exact congrArg String.join (List.map_congr_left fun e _ => e.write_line autoExpand)

end View

end IncludeForest
