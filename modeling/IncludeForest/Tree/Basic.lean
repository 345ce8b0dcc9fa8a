import IncludeForest.Tree.Header

/-!
# Include trees

A header includes others, and those include others again. An **include tree**
is a header with the trees of the headers it includes, in the order of the
log; a module is a list of such trees.

Trees and lists of trees are each defined by the other, and so is every
function on them: one definition for a tree, one for a list.

`places` is the view of a list of trees that the other modules work with: its
headers in the order of the log, each with the headers it stands below and the
tree that begins at it. The order of the log is the order in which a header
comes before all that it includes.
-/

namespace IncludeForest

/-- **A header and what it includes.** -/
inductive IncludeTree where
  /-- The header, and the trees of the headers it includes. -/
  | node (header : Header) (children : List IncludeTree)
  deriving Repr

namespace IncludeTree

instance : Inhabited IncludeTree :=
  ⟨.node default []⟩

/-- The header at the root of the tree. -/
def header : IncludeTree → Header
  | node h _ => h

/-- The trees below the root. -/
def children : IncludeTree → List IncludeTree
  | node _ ts => ts

@[simp] theorem header_node (h : Header) (ts : List IncludeTree) : (node h ts).header = h := rfl

@[simp] theorem children_node (h : Header) (ts : List IncludeTree) : (node h ts).children = ts := rfl

/-- The tree of a header that includes nothing. -/
def leaf (h : Header) : IncludeTree :=
  node h []

mutual

/-- **How many headers the tree holds.** -/
def size : IncludeTree → Nat
  | node _ ts => sizeAll ts + 1

/-- How many headers the trees hold together. -/
def sizeAll : List IncludeTree → Nat
  | [] => 0
  | t :: ts => t.size + sizeAll ts

end

/-- How many headers stand below the root. -/
def descendants (t : IncludeTree) : Nat :=
  sizeAll t.children

mutual

/-- **How many headers stand on the longest way down the tree.** -/
def depth : IncludeTree → Nat
  | node _ ts => depthAll ts + 1

/-- How many headers stand on the longest way down any of the trees. -/
def depthAll : List IncludeTree → Nat
  | [] => 0
  | t :: ts => max t.depth (depthAll ts)

end

mutual

/-- The tree with `f` applied to each of its headers. -/
def map (f : Header → Header) : IncludeTree → IncludeTree
  | node h ts => node (f h) (mapAll f ts)

/-- The trees with `f` applied to each of their headers. -/
def mapAll (f : Header → Header) : List IncludeTree → List IncludeTree
  | [] => []
  | t :: ts => t.map f :: mapAll f ts

end

/-- **A header in its place.** -/
structure Place where
  /-- The headers it stands below, the nearest first. -/
  above : List Header
  /-- The tree that begins at it. -/
  tree : IncludeTree
  deriving Repr

/-- The header in question. -/
def Place.header (p : Place) : Header :=
  p.tree.header

/-- How deep the header stands; a root has level 0. -/
def Place.level (p : Place) : Nat :=
  p.above.length

/-- The way from the root down to the header, the root first. -/
def Place.chain (p : Place) : List Header :=
  (p.header :: p.above).reverse

mutual

/-- The places of a tree that stands below the given headers. -/
def placesBelow (above : List Header) : IncludeTree → List Place
  | node h ts => ⟨above, node h ts⟩ :: placesBelowAll (h :: above) ts

/-- The places of trees that stand below the given headers. -/
def placesBelowAll (above : List Header) : List IncludeTree → List Place
  | [] => []
  | t :: ts => placesBelow above t ++ placesBelowAll above ts

end

/-- **The headers of some trees in the order of the log**, each in its place. -/
def places (trees : List IncludeTree) : List Place :=
  placesBelowAll [] trees

mutual

/-- A tree has as many places as headers. -/
theorem length_placesBelow (above : List Header) :
    (t : IncludeTree) → (placesBelow above t).length = t.size
  | node h ts => by rw [placesBelow, List.length_cons, length_placesBelowAll, size]

/-- Trees have as many places as headers. -/
theorem length_placesBelowAll (above : List Header) :
    (ts : List IncludeTree) → (placesBelowAll above ts).length = sizeAll ts
  | [] => rfl
  | t :: ts => by
    rw [placesBelowAll, List.length_append, length_placesBelow, length_placesBelowAll, sizeAll]

end

@[simp] theorem length_places (trees : List IncludeTree) : (places trees).length = sizeAll trees :=
  length_placesBelowAll [] trees

end IncludeTree

end IncludeForest
