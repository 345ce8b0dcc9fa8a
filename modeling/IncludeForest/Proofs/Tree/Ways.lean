import IncludeForest.Proofs.Tree.Depths

/-!
# The headers above a header

Two headers of a module can be equal, so the question which of them another one
stands below has to be asked of their places. `ways` answers it for some trees:
it goes through them in the order of the log, gives every header a label that
may depend on its number in that order, and beside each label lists those of the
headers above it, the root first.

The depths alone answer it too. At each lesser depth, the header above is the
last one before, so it is enough to keep the way down to the last header and to
cut it at the depth of the next. `waysAfter` does that, and `ways_eq` says that
the answers are the same. The second one takes the levels of the notes as well
as the depths of the headers (`waysAfter_depths`), for the way it cuts is never
longer than there is room.
-/

namespace IncludeForest

namespace IncludeTree

variable {α β : Type}

/-! ## Read from the trees -/

mutual

/-- The headers of a tree that stands below the given ones, each with those
above it; the first has the given number. -/
def waysIn (label : Nat → Header → β) (above : List β) (number : Nat) :
    IncludeTree → List (β × List β)
  | node h ts =>
    (label number h, above) :: waysBelow label (above ++ [label number h]) (number + 1) ts

/-- The headers of some trees that stand below the given ones, each with those
above it; the first has the given number. -/
def waysBelow (label : Nat → Header → β) (above : List β) (number : Nat) :
    List IncludeTree → List (β × List β)
  | [] => []
  | t :: ts => waysIn label above number t ++ waysBelow label above (number + t.size) ts

end

/-- **The headers of some trees, each with those above it**, the root first, by
labels. -/
def ways (label : Nat → Header → β) (ts : List IncludeTree) : List (β × List β) :=
  waysBelow label [] 0 ts

mutual

theorem waysIn_view (view : Header → β) (above : List Header) (number : Nat) :
    (t : IncludeTree) → waysIn (fun _ h => view h) (above.reverse.map view) number t
      = (placesBelow above t).map fun p => (view p.header, p.above.reverse.map view)
  | node h ts => by
    have hbelow : above.reverse.map view ++ [view h] = (h :: above).reverse.map view := by
      rw [List.reverse_cons, List.map_append, List.map_singleton]
    rw [waysIn, placesBelow, List.map_cons, hbelow, waysBelow_view view (h :: above) _ ts]
    rfl

theorem waysBelow_view (view : Header → β) (above : List Header) (number : Nat) :
    (ts : List IncludeTree) → waysBelow (fun _ h => view h) (above.reverse.map view) number ts
      = (placesBelowAll above ts).map fun p => (view p.header, p.above.reverse.map view)
  | [] => rfl
  | t :: ts => by
    rw [waysBelow, placesBelowAll, List.map_append, waysIn_view view above _ t,
      waysBelow_view view above _ ts]

end

/-- **The headers above each header are those of its place.** -/
theorem ways_view (view : Header → β) (ts : List IncludeTree) :
    ways (fun _ h => view h) ts
      = (places ts).map fun p => (view p.header, p.above.reverse.map view) :=
  waysBelow_view view [] 0 ts

/-- The headers by themselves, each with those above it. -/
theorem ways_header (ts : List IncludeTree) :
    ways (fun _ h => h) ts = (places ts).map fun p => (p.header, p.above.reverse) := by
  refine (ways_view id ts).trans (List.map_congr_left fun p _ => ?_)
  rw [List.map_id]
  rfl

/-! ## Read from the depths -/

/-- **Some headers, each with those above it**, given the depths of the headers
and the way down to the one before them. -/
def waysAfter (way : List α) : List (Nat × α) → List (α × List α)
  | [] => []
  | (depth, a) :: rest => (a, way.take depth) :: waysAfter (way.take depth ++ [a]) rest

/-- The way down to the last of some headers, given their depths and the way
down to the one before them. -/
def wayAfter (way : List α) : List (Nat × α) → List α
  | [] => way
  | (depth, a) :: rest => wayAfter (way.take depth ++ [a]) rest

theorem waysAfter_append (way : List α) (hs more : List (Nat × α)) :
    waysAfter way (hs ++ more) = waysAfter way hs ++ waysAfter (wayAfter way hs) more := by
  induction hs generalizing way with
  | nil => rfl
  | cons h hs ih => rw [List.cons_append, waysAfter, ih, waysAfter, wayAfter, List.cons_append]

theorem map_fst_waysAfter (way : List α) (hs : List (Nat × α)) :
    (waysAfter way hs).map (·.1) = hs.map (·.2) := by
  induction hs generalizing way with
  | nil => rfl
  | cons h hs ih => rw [waysAfter, List.map_cons, ih, List.map_cons]

/-- The front of the way stays as long as no header is less deep. -/
theorem take_wayAfter {n : Nat} {way : List α} {hs : List (Nat × α)} (hn : n ≤ way.length)
    (h : ∀ e ∈ hs, n ≤ e.1) : (wayAfter way hs).take n = way.take n := by
  induction hs generalizing way with
  | nil => rfl
  | cons e hs ih =>
    obtain ⟨he, hhs⟩ := List.forall_mem_cons.1 h
    have hlength : n ≤ (way.take e.1).length := by
      rw [List.length_take]
      exact Nat.le_min.2 ⟨he, hn⟩
    rw [wayAfter, ih (by rw [List.length_append]; omega) hhs, List.take_append_of_le_length hlength,
      List.take_take, Nat.min_eq_left he]

/-- Labels can be changed before or after. -/
theorem map_waysAfter (f : α → β) (way : List α) (hs : List (Nat × α)) :
    waysAfter (way.map f) (hs.map fun e => (e.1, f e.2))
      = (waysAfter way hs).map fun e => (f e.1, e.2.map f) := by
  induction hs generalizing way with
  | nil => rfl
  | cons e hs ih =>
    have hway : (way.map f).take e.1 ++ [f e.2] = (way.take e.1 ++ [e.2]).map f := by
      rw [List.map_append, List.map_take, List.map_singleton]
    rw [List.map_cons, waysAfter, waysAfter, List.map_cons, hway, ih, List.map_take]

mutual

/-- What stands below some headers is deeper than they are. -/
theorem length_le_level_of_mem_placesBelow {above : List Header} {p : Place} :
    (t : IncludeTree) → p ∈ placesBelow above t → above.length ≤ p.level
  | node h ts, hp => by
    rw [placesBelow, List.mem_cons] at hp
    rcases hp with rfl | hp
    · exact Nat.le_refl _
    · exact Nat.le_of_succ_le (length_le_level_of_mem_placesBelowAll ts hp)

theorem length_le_level_of_mem_placesBelowAll {above : List Header} {p : Place} :
    (ts : List IncludeTree) → p ∈ placesBelowAll above ts → above.length ≤ p.level
  | [], hp => absurd hp List.not_mem_nil
  | t :: ts, hp => by
    rw [placesBelowAll, List.mem_append] at hp
    rcases hp with hp | hp
    · exact length_le_level_of_mem_placesBelow t hp
    · exact length_le_level_of_mem_placesBelowAll ts hp

end

/-- Some places by their depths and labels, numbered from the given one. -/
def labelled (label : Nat → Header → β) (number : Nat) (ps : List Place) : List (Nat × β) :=
  (ps.zipIdx number).map fun (p, i) => (p.level, label i p.header)

theorem labelled_cons (label : Nat → Header → β) (number : Nat) (p : Place) (ps : List Place) :
    labelled label number (p :: ps)
      = (p.level, label number p.header) :: labelled label (number + 1) ps := by
  unfold labelled
  rw [List.zipIdx_cons, List.map_cons]

theorem labelled_append (label : Nat → Header → β) (number : Nat) (ps qs : List Place) :
    labelled label number (ps ++ qs)
      = labelled label number ps ++ labelled label (number + ps.length) qs := by
  unfold labelled
  rw [List.zipIdx_append, List.map_append]

mutual

theorem waysIn_eq {label : Nat → Header → β} {above : List Header} {labels way : List β}
    (hlength : labels.length = above.length) (hway : way.take above.length = labels)
    (number : Nat) :
    (t : IncludeTree) → waysIn label labels number t
      = waysAfter way (labelled label number (placesBelow above t))
  | node h ts => by
    have hlevel : (Place.mk above (node h ts)).level = above.length := rfl
    have hbelow : (labels ++ [label number h]).length = (h :: above).length := by
      rw [List.length_append, hlength]
      rfl
    rw [waysIn, placesBelow, labelled_cons, waysAfter, hlevel, hway,
      waysBelow_eq hbelow (List.take_of_length_le (Nat.le_of_eq hbelow)) (number + 1) ts]
    rfl

theorem waysBelow_eq {label : Nat → Header → β} {above : List Header} {labels way : List β}
    (hlength : labels.length = above.length) (hway : way.take above.length = labels)
    (number : Nat) :
    (ts : List IncludeTree) → waysBelow label labels number ts
      = waysAfter way (labelled label number (placesBelowAll above ts))
  | [] => rfl
  | t :: ts => by
    -- Behind the first tree, the way down has come back to where it was.
    have hback : (wayAfter way (labelled label number (placesBelow above t))).take above.length
        = labels := by
      rw [take_wayAfter, hway]
      · rw [← hlength, ← hway, List.length_take]
        exact Nat.min_le_right _ _
      · intro e he
        obtain ⟨⟨p, i⟩, hp, rfl⟩ := List.mem_map.1 he
        exact length_le_level_of_mem_placesBelow t (List.fst_mem_of_mem_zipIdx hp)
    rw [waysBelow, placesBelowAll, labelled_append, waysAfter_append, length_placesBelow,
      waysIn_eq hlength hway number t, waysBelow_eq hlength hback _ ts]

end

/-- **The depths say which headers stand above which.** -/
theorem ways_eq (label : Nat → Header → β) (ts : List IncludeTree) :
    ways label ts = waysAfter [] (labelled label 0 (places ts)) := by
  refine waysBelow_eq ?_ List.take_nil 0 ts
  rfl

/-- Labels can be changed before or after. -/
theorem map_ways (f : α → β) (label : Nat → Header → α) (ts : List IncludeTree) :
    (ways label ts).map (fun e => (f e.1, e.2.map f)) = ways (fun i h => f (label i h)) ts := by
  rw [ways_eq, ways_eq, ← map_waysAfter, List.map_nil]
  unfold labelled
  rw [List.map_map]
  rfl

/-! ## Read from the levels -/

theorem waysAfter_depthsAfter {way : List α} {depth : Nat} (hway : way.length = depth + 1)
    (levels : List Nat) (labels : List α) :
    waysAfter way ((depthsAfter depth levels).zip labels) = waysAfter way (levels.zip labels) := by
  induction levels generalizing way depth labels with
  | nil => rfl
  | cons level levels ih =>
    cases labels with
    | nil => rfl
    | cons a labels =>
      have htake : way.take (min level (depth + 1)) = way.take level := by
        rw [← hway, List.take_eq_take_min (i := level)]
      have hlength : (way.take level ++ [a]).length = min level (depth + 1) + 1 := by
        rw [List.length_append, List.length_take, hway, List.length_singleton]
      rw [depthsAfter, List.zip_cons_cons, List.zip_cons_cons, waysAfter, waysAfter, htake,
        ih hlength]

/-- **The levels of the notes say it as well** as the depths of the headers. -/
theorem waysAfter_depths (levels : List Nat) (labels : List α) :
    waysAfter [] ((depths levels).zip labels) = waysAfter [] (levels.zip labels) := by
  cases levels with
  | nil => rfl
  | cons level levels =>
    cases labels with
    | nil => rfl
    | cons a labels =>
      rw [depths, List.zip_cons_cons, List.zip_cons_cons, waysAfter, waysAfter, List.take_nil,
        List.take_nil]
      exact congrArg (_ :: ·) (waysAfter_depthsAfter rfl levels labels)

/-- **The levels of the notes say which headers stand above which.** -/
theorem ways_eq_of_levels {ts : List IncludeTree} {levels : List Nat}
    (h : (places ts).map (·.level) = depths levels) (label : Nat → Header → β) :
    ways label ts
      = waysAfter [] (levels.zip ((places ts).zipIdx.map fun (p, i) => label i p.header)) := by
  have hlevels : (places ts).zipIdx.map (fun (p, _) => p.level) = depths levels := by
    rw [← h, ← List.zipIdx_map_fst 0 (places ts), List.map_map, List.zipIdx_map_fst]
    rfl
  rw [← waysAfter_depths, ways_eq, ← hlevels, List.zip_map']
  rfl

end IncludeTree

end IncludeForest
