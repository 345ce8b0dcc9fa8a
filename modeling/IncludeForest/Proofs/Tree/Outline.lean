import Mathlib.Data.List.Induction
import IncludeForest.Forest.Module
import IncludeForest.Proofs.Tree.Depths

/-!
# Trees and their outlines

An include tree that is printed by indentation is a list of paths, each at a
depth, parents before children. `PathTree.outlineAll` is this list. It loses
nothing: `outlineAll_injective` recovers the trees from it, since a node ends
where the next one stands no deeper.

A module builds its trees from such a list, note by note. `outline_insertNote`
says that a note is appended to the outline, at its own depth if that can be.
In the outline of some trees it always can (`depths_outlineAll`), so a module
that is given the notes of an outline has the trees they came from
(`Module.shownAll_insertAll_outlineAll`).
-/

namespace IncludeForest

/-- **A path and what it includes**: an include tree without anything that is
found out about its headers. -/
inductive PathTree where
  /-- The path, and the trees of the paths it includes. -/
  | node (path : String) (children : List PathTree)
  deriving Repr

namespace PathTree

mutual

/-- **The outline of a tree** with its root at `depth`. -/
def outline (depth : Nat) : PathTree → List (Nat × String)
  | node path ts => (depth, path) :: outlineAll (depth + 1) ts

/-- **The outline of some trees** with their roots at `depth`. -/
def outlineAll (depth : Nat) : List PathTree → List (Nat × String)
  | [] => []
  | t :: ts => outline depth t ++ outlineAll depth ts

end

theorem outlineAll_cons (depth : Nat) (path : String) (children ts : List PathTree) :
    outlineAll depth (node path children :: ts)
      = (depth, path) :: (outlineAll (depth + 1) children ++ outlineAll depth ts) := by
  rw [outlineAll, outline, List.cons_append]

/-- What follows the outline of what a node includes is no deeper than it. -/
theorem lt_of_mem_head?_outlineAll_append {depth : Nat} (ts : List PathTree)
    {rest : List (Nat × String)} (hrest : ∀ e ∈ rest.head?, e.1 < depth) :
    ∀ e ∈ (outlineAll depth ts ++ rest).head?, e.1 < depth + 1 := by
  cases ts with
  | nil => exact fun e he => Nat.lt_succ_of_lt (hrest e he)
  | cons t ts =>
    obtain ⟨path, children⟩ := t
    rw [outlineAll_cons]
    rintro e ⟨⟩
    exact Nat.lt_succ_self depth

/-- What follows an outline in a longer one is no part of it. -/
theorem outlineAll_append_inj {depth : Nat} :
    {ts us : List PathTree} → {rest rest' : List (Nat × String)} →
      (∀ e ∈ rest.head?, e.1 < depth) → (∀ e ∈ rest'.head?, e.1 < depth) →
      outlineAll depth ts ++ rest = outlineAll depth us ++ rest' → ts = us ∧ rest = rest'
  | [], [], _, _, _, _, h => ⟨rfl, h⟩
  | [], node path children :: us, rest, rest', hrest, _, h => by
    rw [outlineAll_cons] at h
    have h : rest = _ := h
    rw [h] at hrest
    exact absurd (hrest _ rfl) (Nat.lt_irrefl depth)
  | node path children :: ts, [], rest, rest', _, hrest', h => by
    rw [outlineAll_cons] at h
    have h : _ = rest' := h
    rw [← h] at hrest'
    exact absurd (hrest' _ rfl) (Nat.lt_irrefl depth)
  | node path children :: ts, node path' children' :: us, rest, rest', hrest, hrest', h => by
    rw [outlineAll_cons, outlineAll_cons, List.cons_append, List.cons_append, List.cons.injEq,
      List.append_assoc, List.append_assoc] at h
    obtain ⟨hroot, hbehind⟩ := h
    obtain rfl : path = path' := congrArg Prod.snd hroot
    -- Behind what the root includes, the outline goes on at the root's depth or above.
    obtain ⟨rfl, hbeside⟩ := outlineAll_append_inj (lt_of_mem_head?_outlineAll_append ts hrest)
      (lt_of_mem_head?_outlineAll_append us hrest') hbehind
    obtain ⟨rfl, rfl⟩ := outlineAll_append_inj hrest hrest' hbeside
    exact ⟨rfl, rfl⟩

/-- **Trees are determined by their outline.** -/
theorem outlineAll_injective {depth : Nat} {ts us : List PathTree}
    (h : outlineAll depth ts = outlineAll depth us) : ts = us := by
  have hnil : ∀ e ∈ ([] : List (Nat × String)).head?, e.1 < depth := nofun
  refine (outlineAll_append_inj hnil hnil ?_).1
  rw [h]

/-! ## The depths of an outline -/

open IncludeTree

/-- In an outline no node stands too deep for the one before it, nor does one
behind it. -/
theorem depthsAfter_outlineAll_append {depth before : Nat} {rest : List Nat} :
    (ts : List PathTree) → depth ≤ before + 1 →
      (∀ last, depth ≤ last + 1 → depthsAfter last rest = rest) →
      depthsAfter before ((outlineAll depth ts).map (·.1) ++ rest)
        = (outlineAll depth ts).map (·.1) ++ rest
  | [], hbefore, hrest => hrest before hbefore
  | node path children :: ts, hbefore, hrest => by
    have hbeside (last : Nat) (hlast : depth + 1 ≤ last + 1) :
        depthsAfter last ((outlineAll depth ts).map (·.1) ++ rest)
          = (outlineAll depth ts).map (·.1) ++ rest :=
      depthsAfter_outlineAll_append ts (Nat.le_of_succ_le hlast) hrest
    rw [outlineAll_cons, List.map_cons, List.map_append, List.cons_append, List.append_assoc,
      depthsAfter, Nat.min_eq_left hbefore,
      depthsAfter_outlineAll_append children (Nat.le_refl _) hbeside]

/-- **The depths of an outline are those that its levels allow.** -/
theorem depths_outlineAll (ts : List PathTree) :
    depths ((outlineAll 0 ts).map (·.1)) = (outlineAll 0 ts).map (·.1) := by
  cases ts with
  | nil => rfl
  | cons t ts =>
    obtain ⟨path, children⟩ := t
    have hbeside (last : Nat) (_ : 1 ≤ last + 1) :
        depthsAfter last ((outlineAll 0 ts).map (·.1)) = (outlineAll 0 ts).map (·.1) := by
      rw [← List.append_nil ((outlineAll 0 ts).map (·.1))]
      exact depthsAfter_outlineAll_append ts (Nat.zero_le (last + 1)) fun _ _ => rfl
    rw [outlineAll_cons, List.map_cons, List.map_append, depths,
      depthsAfter_outlineAll_append children (Nat.le_refl 1) hbeside]

end PathTree

/-! ## The trees that a module shows -/

namespace IncludeTree

open PathTree

mutual

/-- The tree with the shown paths only. -/
def shown : IncludeTree → PathTree
  | node h ts => .node h.shownPath (shownAll ts)

/-- **The trees with the shown paths only.** -/
def shownAll : List IncludeTree → List PathTree
  | [] => []
  | t :: ts => t.shown :: shownAll ts

end

mutual

theorem outline_shown (above : List Header) :
    (t : IncludeTree) →
      t.shown.outline above.length
        = (placesBelow above t).map fun p => (p.level, p.header.shownPath)
  | node h ts => by
    rw [shown, outline, placesBelow, List.map_cons, ← outlineAll_shownAll (h :: above) ts]
    rfl

/-- The outline of what is shown lists the places. -/
theorem outlineAll_shownAll (above : List Header) :
    (ts : List IncludeTree) →
      outlineAll above.length (shownAll ts)
        = (placesBelowAll above ts).map fun p => (p.level, p.header.shownPath)
  | [] => rfl
  | t :: ts => by
    rw [shownAll, outlineAll, placesBelowAll, List.map_append, outline_shown above t,
      outlineAll_shownAll above ts]

end

/-- **A note is appended to the outline**, at its own depth if the last way
down allows. -/
theorem outline_insertNote (leaf : Header) (level : Nat) (ts : List IncludeTree) :
    outlineAll 0 (shownAll (insertNote leaf level ts))
      = outlineAll 0 (shownAll ts) ++ [(min level (lastWay ts), leaf.shownPath)] := by
  have hplaces (us : List IncludeTree) : outlineAll 0 (shownAll us)
      = (places us).map fun p => (p.level, p.header.shownPath) := outlineAll_shownAll [] us
  rw [hplaces, hplaces]
  exact map_level_view_places_insertNote (fun _ => rfl) level ts

end IncludeTree

namespace Module

open IncludeTree PathTree

/-- The module with some notes more. -/
def insertAll (m : Module) (rules : ForestRules) (notes : List (Nat × String)) : Module :=
  notes.foldl (fun m note => (m.insertNote rules note.1 note.2).1) m

/-- A module that is given some notes has an outline of their paths, at the
depths that their levels allow. -/
theorem outline_insertAll (rules : ForestRules) (notes : List (Nat × String)) :
    let m := insertAll {} rules notes
    outlineAll 0 (shownAll m.roots) = (depths (notes.map (·.1))).zip (notes.map (·.2)) ∧
      lastWay m.roots = room (notes.map (·.1)) := by
  induction notes using List.reverseRecOn with
  | nil => exact ⟨rfl, rfl⟩
  | append_singleton notes note ih =>
    obtain ⟨houtline, hway⟩ := ih
    have hinsert : insertAll {} rules (notes ++ [note])
        = ((insertAll {} rules notes).insertNote rules note.1 note.2).1 := by
      unfold insertAll
      rw [List.foldl_append]
      rfl
    have hlength : (depths (notes.map (·.1))).length = (notes.map (·.2)).length := by
      rw [length_depths, List.length_map, List.length_map]
    rw [hinsert, List.map_append, List.map_append, List.map_singleton, List.map_singleton,
      depths_concat, room_concat, List.zip_append hlength, ← houtline, ← hway]
    exact ⟨outline_insertNote _ note.1 _, lastWay_insertNote _ note.1 _⟩

/-- **A module that is given the notes of an outline shows the trees that the
outline is of.** -/
theorem shownAll_insertAll_outlineAll (rules : ForestRules) (ts : List PathTree) :
    shownAll (insertAll {} rules (outlineAll 0 ts)).roots = ts := by
  refine outlineAll_injective ((outline_insertAll rules _).1.trans ?_)
  rw [depths_outlineAll]
  exact (List.zip_of_prod rfl rfl).symm

end Module

end IncludeForest
