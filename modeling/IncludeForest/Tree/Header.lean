import IncludeForest.Text.Bytes

/-!
# Headers

A **header** is one include note of a module: the path it was written with,
the form its path is compared in, and what is known of its place among the
others.

Two facts concern cycles. A header *closes a cycle* when it includes itself,
by way of the headers it stands below; it *contains a cycle* when some header
below it closes one. Two facts concern the search. A header *is matched* when
the needle occurs in its path – then `hit` says where – and it *contains a
match* when some header below it is matched.

## Where a hit can be seen

A hit is an offset into the whole path, and what is shown of a path may lack
its front. `visibleHit?` moves the hit to what is shown. The part that lies in
the missing front is lost, and of a hit that lies there whole nothing is left.
-/

namespace IncludeForest

/-- **A stretch of a text**, by its byte offsets. -/
structure Span where
  /-- Where it begins. -/
  start : Nat
  /-- Where it ends: the offset of what follows it. -/
  stop : Nat
  deriving DecidableEq, Repr, Inhabited

/-- **One header of a module.** -/
structure Header where
  /-- The path as it is shown. -/
  shownPath : String
  /-- The path as it is compared. -/
  comparedPath : String
  /-- Whether some header below closes a cycle. -/
  containsCycle : Bool := false
  /-- Whether the header repeats one that it stands below. -/
  closesCycle : Bool := false
  /-- Whether some header below is matched. -/
  containsMatch : Bool := false
  /-- The first occurrence of the needle in the compared path. -/
  hit : Option Span := none
  deriving DecidableEq, Repr, Inhabited

namespace Header

open Text

/-- Whether the needle occurs in the compared path. -/
def isMatched (h : Header) : Bool :=
  h.hit.isSome

/-- Whether a cycle is closed here or below. -/
def onCyclePath (h : Header) : Bool :=
  h.closesCycle || h.containsCycle

/-- Whether a match is here or below. -/
def onMatchPath (h : Header) : Bool :=
  h.isMatched || h.containsMatch

/-- **The first occurrence of a needle in a path.** The empty needle is
nowhere. -/
def hitIn? (needle path : List Char) : Option Span :=
  if needle.isEmpty then none
  else (offsetOf? needle path).map fun start => ⟨start, start + byteLength needle⟩

/-- The header of a note, before its place is known. -/
def ofNote (shownPath comparedPath needle : String) : Header :=
  { shownPath, comparedPath, hit := hitIn? needle.toList comparedPath.toList }

/-- The header with what it contains brought up to date, when `leaf` has come
to stand below it. -/
def above (h leaf : Header) : Header :=
  { h with
    containsCycle := h.containsCycle || leaf.closesCycle
    containsMatch := h.containsMatch || leaf.isMatched }

/-- **The hit in the shown path**, where something of it can be seen. -/
def visibleHit? (h : Header) : Option Span :=
  h.hit.bind fun hit =>
    let shown := h.shownPath.toList
    let missing := byteLength h.comparedPath.toList - byteLength shown
    let start := hit.start - missing
    let stop := hit.stop - missing
    if start < stop ∧ isBoundary start shown ∧ isBoundary stop shown then some ⟨start, stop⟩
    else none

/-- **The header shown without the first `count` bytes of its path**, or
without all of it if it is shorter. A cut inside a character is not made. -/
def dropFront (h : Header) (count : Nat) : Header :=
  let shown := h.shownPath.toList
  match splitAtByte? (min count (byteLength shown)) shown with
  | some (_, rest) => { h with shownPath := String.ofList rest }
  | none => h

/-- Nothing but what is shown of the path can change. -/
theorem dropFront_eq (h : Header) (count : Nat) :
    h.dropFront count = { h with shownPath := (h.dropFront count).shownPath } := by
  unfold dropFront
  dsimp only
  split <;> rfl

@[simp]
theorem comparedPath_dropFront (h : Header) (count : Nat) :
    (h.dropFront count).comparedPath = h.comparedPath := by
  rw [dropFront_eq]

@[simp]
theorem hit_dropFront (h : Header) (count : Nat) : (h.dropFront count).hit = h.hit := by
  rw [dropFront_eq]

@[simp]
theorem isMatched_dropFront (h : Header) (count : Nat) :
    (h.dropFront count).isMatched = h.isMatched := by
  rw [isMatched, hit_dropFront, isMatched]

@[simp]
theorem containsMatch_dropFront (h : Header) (count : Nat) :
    (h.dropFront count).containsMatch = h.containsMatch := by
  rw [dropFront_eq]

@[simp]
theorem closesCycle_dropFront (h : Header) (count : Nat) :
    (h.dropFront count).closesCycle = h.closesCycle := by
  rw [dropFront_eq]

@[simp]
theorem containsCycle_dropFront (h : Header) (count : Nat) :
    (h.dropFront count).containsCycle = h.containsCycle := by
  rw [dropFront_eq]

end Header

end IncludeForest
