import IncludeForest.Proofs.Tree.Order

/-!
# From levels to depths

A note says how deep its header was included, and a log can say what cannot
be: a first header that some other includes, or one two levels below the one
before it. The trees cannot follow such a jump. `depths` is what they make of
the levels of a list of notes – the first header is a root, and every later
one stands as deep as its note says, but at most one level below the header
before it.

An insertion knows nothing of the header before it; it goes down the last way
until the way ends or is long enough. Both say the same, because the last way
down ends at the header before (`depths_concat` against
`IncludeTree.lastWay_insertNote`).
-/

namespace IncludeForest

namespace IncludeTree

/-- The depths of headers whose notes have the given levels, behind a header
at `depth`. -/
def depthsAfter (depth : Nat) : List Nat → List Nat
  | [] => []
  | level :: levels => min level (depth + 1) :: depthsAfter (min level (depth + 1)) levels

/-- **The depths of headers whose notes have the given levels**, from the
first on. -/
def depths : List Nat → List Nat
  | [] => []
  | _ :: levels => 0 :: depthsAfter 0 levels

/-- How deep the next header can stand at most. -/
def room (levels : List Nat) : Nat :=
  (depths levels).getLast?.elim 0 (· + 1)

theorem length_depthsAfter (depth : Nat) (levels : List Nat) :
    (depthsAfter depth levels).length = levels.length := by
  induction levels generalizing depth with
  | nil => rfl
  | cons level levels ih => rw [depthsAfter, List.length_cons, ih, List.length_cons]

/-- Every note has a depth. -/
theorem length_depths (levels : List Nat) : (depths levels).length = levels.length := by
  cases levels with
  | nil => rfl
  | cons level levels => rw [depths, List.length_cons, length_depthsAfter, List.length_cons]

/-- One more level gives one more depth, which the depth before it bounds. -/
theorem depthsAfter_concat (depth : Nat) (levels : List Nat) (level : Nat) :
    depthsAfter depth (levels ++ [level])
      = depthsAfter depth levels
        ++ [min level (((depthsAfter depth levels).getLast?.getD depth) + 1)] := by
  induction levels generalizing depth with
  | nil => rfl
  | cons first levels ih =>
    rw [List.cons_append, depthsAfter, ih, depthsAfter, List.cons_append, List.getLast?_cons,
      Option.getD_some]

/-- **One more note takes the depth that there is room for.** -/
theorem depths_concat (levels : List Nat) (level : Nat) :
    depths (levels ++ [level]) = depths levels ++ [min level (room levels)] := by
  cases levels with
  | nil =>
    show [0] = [min level 0]
    rw [Nat.min_zero]
  | cons first levels =>
    rw [List.cons_append, depths, depthsAfter_concat, room, depths, List.getLast?_cons,
      Option.elim_some, List.cons_append]

/-- One more note leaves room for one below it. -/
theorem room_concat (levels : List Nat) (level : Nat) :
    room (levels ++ [level]) = min level (room levels) + 1 := by
  rw [room, depths_concat, List.getLast?_concat, Option.elim_some]

end IncludeTree

end IncludeForest
