import IncludeForest.Tree.Basic

/-!
# Where an include note belongs

A log does not say which header includes which. It says how deep each header
was included, in the order in which the compiler opened them, and that is
enough: a header included at depth `l` is included by the last one before it at
depth `l - 1`. All headers that a new one can stand below therefore lie on the
**last way down** – from the last root by way of last children – and the depth
says how far down that way it stands.

`openPath` is the part of that way which stays above a note of the given
depth, and `insertNote` hangs the note's header below it. A note deeper than
the way is long hangs at its end, since nothing else can have included it; the
first note of a module is a root, whatever depth it claims.

## Flags

A header closes a cycle when some header of its open path has the same
compared path, and no other header counts. The headers of the open path are
also the only ones it can come to stand below, so no others have to learn what
they now contain: `insertNote` brings exactly them up to date.
-/

namespace IncludeForest

namespace IncludeTree

mutual

/-- The headers that a note of the given depth stands below, in a tree that it
stands in: the root, and those below it that are one level up. -/
def openPathIn : Nat → IncludeTree → List Header
  | level, node h ts => h :: openPath level ts

/-- **The headers that a note of the given depth stands below**, the root
first. -/
def openPath : Nat → List IncludeTree → List Header
  | 0, _ => []
  | _ + 1, [] => []
  | level + 1, [t] => openPathIn level t
  | level + 1, _ :: t :: ts => openPath (level + 1) (t :: ts)

end

mutual

/-- The tree with the header of a note inserted below its root, `level` levels
further down. -/
def insertBelow (leaf : Header) : Nat → IncludeTree → IncludeTree
  | level, node h ts => node (h.above leaf) (insertNote leaf level ts)

/-- **The trees with the header of a note of the given depth inserted.** -/
def insertNote (leaf : Header) : Nat → List IncludeTree → List IncludeTree
  | _, [] => [.leaf leaf]
  | 0, t :: ts => t :: insertNote leaf 0 ts
  | level + 1, [t] => [insertBelow leaf level t]
  | level + 1, s :: t :: ts => s :: insertNote leaf (level + 1) (t :: ts)

end

mutual

/-- Inserting below a root adds one header to its tree. -/
theorem size_insertBelow (leaf : Header) (level : Nat) :
    (t : IncludeTree) → (insertBelow leaf level t).size = t.size + 1
  | node h ts => by rw [insertBelow, size, size, sizeAll_insertNote]

/-- **Inserting adds one header**, whatever its depth. -/
theorem sizeAll_insertNote (leaf : Header) (level : Nat) :
    (ts : List IncludeTree) → sizeAll (insertNote leaf level ts) = sizeAll ts + 1
  | [] => by rw [insertNote]; rfl
  | [t] => by
    cases level with
    | zero => simp [insertNote, sizeAll, IncludeTree.leaf, size]
    | succ level => simp [insertNote, sizeAll, size_insertBelow]
  | s :: t :: ts => by
    have h : sizeAll (s :: t :: ts) = s.size + sizeAll (t :: ts) := by rw [sizeAll]
    cases level with
    | zero => rw [insertNote, sizeAll, sizeAll_insertNote, h, Nat.add_assoc]
    | succ level => rw [insertNote, sizeAll, sizeAll_insertNote, h, Nat.add_assoc]

end

/-- Whether a path would close a cycle below the open path of a note of the
given depth. -/
def closesCycle (path : String) (level : Nat) (trees : List IncludeTree) : Bool :=
  (openPath level trees).any (·.comparedPath == path)

end IncludeTree

end IncludeForest
