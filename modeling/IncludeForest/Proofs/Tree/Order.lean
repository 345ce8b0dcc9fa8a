import IncludeForest.Tree.Insert

/-!
# Insertion in the order of the log

A note is inserted somewhere along the last way down, and in the order of the
log – a header before all that it includes – the end of that way comes last.
So an insertion appends one place to `places` and moves none of those that
were there. What it does change is what the headers of the open path know of
the headers below them.

The statements below therefore look at places through a function `view` of a
header that does not read what changes. `Place.seen view` is what can be seen
of a place that way: the headers above it and the header itself. The compared
path is such a view, and so is the shown path.

The last way down is as long as the way to the header that was inserted last,
which is why the depth of a note need only be compared with the depth of the
note before it (`lastWay_insertNote`).
-/

namespace IncludeForest

namespace IncludeTree

variable {β : Type}

/-- **What a function of headers shows of a place**: the headers it stands
below, the nearest first, and the header. -/
def Place.seen (view : Header → β) (p : Place) : List β × β :=
  (p.above.map view, view p.header)

/-- How many headers are seen above a place says how deep it is. -/
theorem Place.length_seen (view : Header → β) (p : Place) : (p.seen view).1.length = p.level :=
  List.length_map _

/-- What is seen of some places tells how deep they are. -/
theorem map_level_view (view : Header → β) (ps : List Place) :
    ps.map (fun p => (p.level, view p.header))
      = (ps.map (Place.seen view)).map fun s => (s.1.length, s.2) := by
  rw [List.map_map]
  refine List.map_congr_left fun p _ => ?_
  show (p.level, view p.header) = ((p.seen view).1.length, view p.header)
  rw [Place.length_seen]

/-- The places of one tree by itself are those of the tree. -/
theorem placesBelowAll_singleton (above : List Header) (t : IncludeTree) :
    placesBelowAll above [t] = placesBelow above t := by
  rw [placesBelowAll, placesBelowAll, List.append_nil]

/-- Trees have their places one after another. -/
theorem placesBelowAll_append (above : List Header) (ts us : List IncludeTree) :
    placesBelowAll above (ts ++ us) = placesBelowAll above ts ++ placesBelowAll above us := by
  induction ts with
  | nil => rfl
  | cons t ts ih => rw [List.cons_append, placesBelowAll, placesBelowAll, ih, List.append_assoc]

/-- A note goes to the last of several trees. -/
theorem insertNote_cons_cons (leaf : Header) (level : Nat) (s t : IncludeTree)
    (ts : List IncludeTree) :
    insertNote leaf level (s :: t :: ts) = s :: insertNote leaf level (t :: ts) := by
  cases level <;> rfl

mutual

/-- The places of a tree read nothing of the headers above it but what is
seen of them. -/
theorem seen_placesBelow_congr (view : Header → β) {above above' : List Header}
    (h : above.map view = above'.map view) :
    (t : IncludeTree) →
      (placesBelow above t).map (Place.seen view) = (placesBelow above' t).map (Place.seen view)
  | node g ts => by
    have hbelow : (g :: above).map view = (g :: above').map view := congrArg (view g :: ·) h
    rw [placesBelow, placesBelow, List.map_cons, List.map_cons,
      seen_placesBelowAll_congr view hbelow ts]
    exact congrArg (fun a => (a, view g) :: _) h

/-- The places of trees read nothing of the headers above them but what is
seen of them. -/
theorem seen_placesBelowAll_congr (view : Header → β) {above above' : List Header}
    (h : above.map view = above'.map view) :
    (ts : List IncludeTree) →
      (placesBelowAll above ts).map (Place.seen view)
        = (placesBelowAll above' ts).map (Place.seen view)
  | [] => rfl
  | t :: ts => by
    rw [placesBelowAll, placesBelowAll, List.map_append, List.map_append,
      seen_placesBelow_congr view h t, seen_placesBelowAll_congr view h ts]

end

/-! ## Insertion appends one place -/

mutual

/-- Inserting below the root of a tree appends one place, below the open
path. -/
theorem seen_insertBelow {view : Header → β} {leaf : Header}
    (hview : ∀ h : Header, view (h.above leaf) = view h) (level : Nat) (above : List Header) :
    (t : IncludeTree) →
      (placesBelow above (insertBelow leaf level t)).map (Place.seen view)
        = (placesBelow above t).map (Place.seen view)
          ++ [((openPathIn level t).reverse.map view ++ above.map view, view leaf)]
  | node h ts => by
    have hroot : (h.above leaf :: above).map view = (h :: above).map view :=
      congrArg (· :: above.map view) (hview h)
    rw [insertBelow, placesBelow, placesBelow, openPathIn, List.map_cons, List.map_cons,
      seen_placesBelowAll_congr view hroot, seen_insertNote hview level (h :: above) ts,
      List.reverse_cons, List.map_append, List.append_assoc]
    exact congrArg (fun g => (above.map view, g) :: _) (hview h)

/-- Inserting a note into trees that stand below `above` appends one place,
below the open path. -/
theorem seen_insertNote {view : Header → β} {leaf : Header}
    (hview : ∀ h : Header, view (h.above leaf) = view h) (level : Nat) (above : List Header) :
    (ts : List IncludeTree) →
      (placesBelowAll above (insertNote leaf level ts)).map (Place.seen view)
        = (placesBelowAll above ts).map (Place.seen view)
          ++ [((openPath level ts).reverse.map view ++ above.map view, view leaf)]
  | [] => by
    cases level <;> rfl
  | [t] => by
    -- At depth 0 the header hangs beside the tree, deeper it hangs in it.
    cases level with
    | zero =>
      have hroot : insertNote leaf 0 [t] = [t] ++ [.leaf leaf] := rfl
      rw [hroot, placesBelowAll_append, List.map_append]
      rfl
    | succ level =>
      have hbelow : insertNote leaf (level + 1) [t] = [insertBelow leaf level t] := rfl
      rw [hbelow, placesBelowAll_singleton, placesBelowAll_singleton,
        seen_insertBelow hview level above t]
      rfl
  | s :: t :: ts => by
    have hfirst (us : List IncludeTree) :
        (placesBelowAll above (s :: us)).map (Place.seen view)
          = (placesBelow above s).map (Place.seen view)
            ++ (placesBelowAll above us).map (Place.seen view) := by
      rw [placesBelowAll, List.map_append]
    have hopen : openPath level (s :: t :: ts) = openPath level (t :: ts) := by
      cases level <;> rfl
    rw [insertNote_cons_cons, hfirst, hfirst, seen_insertNote hview level above (t :: ts), hopen,
      List.append_assoc]

end

/-- **An insertion appends one place**, below the open path of the note, and
leaves the others as they are seen. -/
theorem seen_places_insertNote {view : Header → β} {leaf : Header}
    (hview : ∀ h : Header, view (h.above leaf) = view h) (level : Nat) (ts : List IncludeTree) :
    (places (insertNote leaf level ts)).map (Place.seen view)
      = (places ts).map (Place.seen view)
        ++ [((openPath level ts).reverse.map view, view leaf)] := by
  rw [places, places, seen_insertNote hview level [] ts, List.map_nil, List.append_nil]

/-- What is seen of every place is seen of every place after an insertion if it
is seen of the one that is appended. -/
theorem forall_seen_insertNote (view : Header → β) (P : List β × β → Prop) {leaf : Header}
    (hview : ∀ h : Header, view (h.above leaf) = view h) {level : Nat} {ts : List IncludeTree}
    (h : ∀ p ∈ places ts, P (p.seen view))
    (hleaf : P ((openPath level ts).reverse.map view, view leaf)) :
    ∀ p ∈ places (insertNote leaf level ts), P (p.seen view) := by
  rw [← List.forall_mem_map] at h ⊢
  rw [seen_places_insertNote hview, List.forall_mem_append]
  exact ⟨h, List.forall_mem_singleton.2 hleaf⟩

mutual

/-- What was inserted below the root of a tree comes last and includes
nothing. -/
theorem getLast?_placesBelow_insertBelow (leaf : Header) (level : Nat) (above : List Header) :
    (t : IncludeTree) →
      (placesBelow above (insertBelow leaf level t)).getLast?.map (·.tree) = some (.leaf leaf)
  | node h ts => by
    have hlast := getLast?_placesBelowAll_insertNote leaf level (h.above leaf :: above) ts
    rw [insertBelow, placesBelow, List.getLast?_cons]
    obtain ⟨p, hp, htree⟩ := Option.map_eq_some_iff.1 hlast
    rw [hp, Option.map_some, Option.getD_some, htree]

/-- What was inserted into trees comes last and includes nothing. -/
theorem getLast?_placesBelowAll_insertNote (leaf : Header) (level : Nat) (above : List Header) :
    (ts : List IncludeTree) →
      (placesBelowAll above (insertNote leaf level ts)).getLast?.map (·.tree) = some (.leaf leaf)
  | [] => by
    cases level <;> rfl
  | [t] => by
    cases level with
    | zero =>
      have hroot : insertNote leaf 0 [t] = [t] ++ [.leaf leaf] := rfl
      rw [hroot, placesBelowAll_append, placesBelowAll_singleton, placesBelowAll_singleton,
        IncludeTree.leaf, placesBelow, placesBelowAll, List.getLast?_concat, Option.map_some]
    | succ level =>
      have hbelow : insertNote leaf (level + 1) [t] = [insertBelow leaf level t] := rfl
      rw [hbelow, placesBelowAll_singleton, getLast?_placesBelow_insertBelow leaf level above t]
  | s :: t :: ts => by
    have hlast := getLast?_placesBelowAll_insertNote leaf level above (t :: ts)
    obtain ⟨p, hp, htree⟩ := Option.map_eq_some_iff.1 hlast
    rw [insertNote_cons_cons, placesBelowAll, List.getLast?_append, hp, Option.some_or,
      Option.map_some, htree]

end

/-- **What was inserted comes last and includes nothing.** -/
theorem getLast?_places_insertNote (leaf : Header) (level : Nat) (ts : List IncludeTree) :
    (places (insertNote leaf level ts)).getLast?.map (·.tree) = some (.leaf leaf) :=
  getLast?_placesBelowAll_insertNote leaf level [] ts

/-! ## Changes to all headers -/

mutual

/-- A change to every header of a tree that cannot be seen is not seen in its
places. -/
theorem seen_placesBelow_map {view : Header → β} {f : Header → Header}
    (hview : ∀ h : Header, view (f h) = view h) (above : List Header) :
    (t : IncludeTree) →
      (placesBelow above (t.map f)).map (Place.seen view)
        = (placesBelow above t).map (Place.seen view)
  | node h ts => by
    have hroot : (f h :: above).map view = (h :: above).map view :=
      congrArg (· :: above.map view) (hview h)
    rw [map, placesBelow, placesBelow, List.map_cons, List.map_cons,
      seen_placesBelowAll_congr view hroot, seen_placesBelowAll_map hview (h :: above) ts]
    exact congrArg (fun g => (above.map view, g) :: _) (hview h)

/-- A change to every header of some trees that cannot be seen is not seen in
their places. -/
theorem seen_placesBelowAll_map {view : Header → β} {f : Header → Header}
    (hview : ∀ h : Header, view (f h) = view h) (above : List Header) :
    (ts : List IncludeTree) →
      (placesBelowAll above (mapAll f ts)).map (Place.seen view)
        = (placesBelowAll above ts).map (Place.seen view)
  | [] => rfl
  | t :: ts => by
    rw [mapAll, placesBelowAll, placesBelowAll, List.map_append, List.map_append,
      seen_placesBelow_map hview above t, seen_placesBelowAll_map hview above ts]

end

/-- **A change that cannot be seen is not seen in any place.** -/
theorem seen_places_mapAll {view : Header → β} {f : Header → Header}
    (hview : ∀ h : Header, view (f h) = view h) (ts : List IncludeTree) :
    (places (mapAll f ts)).map (Place.seen view) = (places ts).map (Place.seen view) :=
  seen_placesBelowAll_map hview [] ts

/-- What is seen of every place is seen of it after a change that cannot be
seen. -/
theorem forall_seen_mapAll (view : Header → β) (P : List β × β → Prop) {f : Header → Header}
    (hview : ∀ h : Header, view (f h) = view h) {ts : List IncludeTree}
    (h : ∀ p ∈ places ts, P (p.seen view)) : ∀ p ∈ places (mapAll f ts), P (p.seen view) := by
  rw [← List.forall_mem_map] at h ⊢
  rwa [seen_places_mapAll hview]

/-! ## The last way down -/

mutual

/-- How many headers stand on the way down a tree by way of last children. -/
def lastWayIn : IncludeTree → Nat
  | node _ ts => lastWay ts + 1

/-- **How many headers stand on the last way down.** -/
def lastWay : List IncludeTree → Nat
  | [] => 0
  | [t] => lastWayIn t
  | _ :: t :: ts => lastWay (t :: ts)

end

mutual

/-- The open path in a tree is the front of its last way down. -/
theorem length_openPathIn (level : Nat) :
    (t : IncludeTree) → (openPathIn level t).length = min (level + 1) (lastWayIn t)
  | node h ts => by
    rw [openPathIn, List.length_cons, length_openPath level ts, lastWayIn]
    omega

/-- **The open path is the front of the last way down**: as much of it as the
note asks for, or all of it. -/
theorem length_openPath (level : Nat) :
    (ts : List IncludeTree) → (openPath level ts).length = min level (lastWay ts)
  | [] => by
    cases level <;> rfl
  | [t] => by
    cases level with
    | zero => exact (Nat.zero_min _).symm
    | succ level => rw [openPath, length_openPathIn level t, lastWay]
  | _ :: t :: ts => by
    cases level with
    | zero => exact (Nat.zero_min _).symm
    | succ level => rw [openPath, length_openPath (level + 1) (t :: ts), lastWay]

end

/-- **The place that an insertion appends** is as deep as its note says, or as
the last way down allows. -/
theorem map_level_view_places_insertNote {view : Header → β} {leaf : Header}
    (hview : ∀ h : Header, view (h.above leaf) = view h) (level : Nat) (ts : List IncludeTree) :
    (places (insertNote leaf level ts)).map (fun p => (p.level, view p.header))
      = (places ts).map (fun p => (p.level, view p.header))
        ++ [(min level (lastWay ts), view leaf)] := by
  rw [map_level_view, map_level_view, seen_places_insertNote hview, List.map_append,
    List.map_singleton, List.length_map, List.length_reverse, length_openPath]

mutual

/-- The last way down a tree ends at the header that was inserted below its
root. -/
theorem lastWayIn_insertBelow (leaf : Header) (level : Nat) :
    (t : IncludeTree) →
      lastWayIn (insertBelow leaf level t) = min (level + 1) (lastWayIn t) + 1
  | node h ts => by
    rw [insertBelow, lastWayIn, lastWay_insertNote leaf level ts, lastWayIn]
    omega

/-- **The last way down ends at the header that was inserted last.** -/
theorem lastWay_insertNote (leaf : Header) (level : Nat) :
    (ts : List IncludeTree) →
      lastWay (insertNote leaf level ts) = min level (lastWay ts) + 1
  | [] => by
    cases level <;> rfl
  | [t] => by
    cases level with
    | zero => rw [Nat.zero_min]; rfl
    | succ level =>
      rw [insertNote, lastWay, lastWayIn_insertBelow leaf level t, lastWay]
  | s :: t :: ts => by
    have hlater (us : List IncludeTree) (h : us ≠ []) : lastWay (s :: us) = lastWay us := by
      cases us with
      | nil => exact absurd rfl h
      | cons u us => rfl
    -- To skip the first tree, there must be one behind it.
    have hne : insertNote leaf level (t :: ts) ≠ [] := by
      intro h
      have := sizeAll_insertNote leaf level (t :: ts)
      rw [h] at this
      exact absurd this (by rw [sizeAll]; omega)
    rw [insertNote_cons_cons, hlater _ hne, lastWay_insertNote leaf level (t :: ts), lastWay]

end

mutual

/-- A change to every header of a tree leaves its last way down as long as it
is. -/
theorem lastWayIn_map (f : Header → Header) :
    (t : IncludeTree) → lastWayIn (t.map f) = lastWayIn t
  | node h ts => by
    rw [map, lastWayIn, lastWayIn, lastWay_mapAll f ts]

/-- A change to every header leaves the last way down as long as it is. -/
theorem lastWay_mapAll (f : Header → Header) :
    (ts : List IncludeTree) → lastWay (mapAll f ts) = lastWay ts
  | [] => rfl
  | [t] => by
    rw [mapAll, mapAll, lastWay, lastWay, lastWayIn_map f t]
  | s :: t :: ts => by
    rw [mapAll, mapAll, lastWay, lastWay, ← mapAll, lastWay_mapAll f (t :: ts)]

end

end IncludeTree

end IncludeForest
