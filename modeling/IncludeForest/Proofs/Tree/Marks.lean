import IncludeForest.Proofs.Tree.Order

/-!
# What headers know of each other

Two things are said of a header in terms of others. Some is known about it
itself – it closes a cycle, it is matched – and bears a **mark** if so. And it
knows whether a header below it bears the mark, because a reader who looks for
marks must not have to search a tree that has none.

Nobody ever searches the trees for that knowledge. It is brought up to date
along the open path of each note, and only there. `Tracks mark below` says that
this is enough: what `below` says of a header is true of the tree that begins at
it. An insertion keeps this (`tracksAll_insertNote`), because the headers that
get one more header below them are those of the open path, and a mark is given
once and for all. Marks and knowledge are parameters, so cycles and matches are
two cases of one statement.

Whether a header closes a cycle depends on the headers above it, and those are
fixed when it is inserted. `closesExactly_insertNote` says so.
-/

namespace IncludeForest

namespace IncludeTree

variable {mark below : Header → Bool} {leaf : Header}

/-! ## The headers of some trees -/

mutual

/-- The headers of a tree do not depend on what it stands below. -/
theorem map_header_placesBelow (above above' : List Header) :
    (t : IncludeTree) →
      (placesBelow above t).map (·.header) = (placesBelow above' t).map (·.header)
  | node h ts => by
    rw [placesBelow, placesBelow, List.map_cons, List.map_cons,
      map_header_placesBelowAll (h :: above) (h :: above') ts]
    rfl

/-- The headers of some trees do not depend on what they stand below. -/
theorem map_header_placesBelowAll (above above' : List Header) :
    (ts : List IncludeTree) →
      (placesBelowAll above ts).map (·.header) = (placesBelowAll above' ts).map (·.header)
  | [] => rfl
  | t :: ts => by
    rw [placesBelowAll, placesBelowAll, List.map_append, List.map_append,
      map_header_placesBelow above above' t, map_header_placesBelowAll above above' ts]

end

/-- **Whether some header of the trees bears a mark.** -/
def anyHeader (mark : Header → Bool) (ts : List IncludeTree) : Bool :=
  (places ts).any (mark ·.header)

theorem anyHeader_eq_true_iff {ts : List IncludeTree} :
    anyHeader mark ts = true ↔ ∃ p ∈ places ts, mark p.header = true :=
  List.any_eq_true

/-- Marks can be looked for wherever the trees stand. -/
theorem any_placesBelowAll (above : List Header) (ts : List IncludeTree) :
    (placesBelowAll above ts).any (mark ·.header) = anyHeader mark ts := by
  show (placesBelowAll above ts).any (mark ∘ Place.header)
    = (placesBelowAll [] ts).any (mark ∘ Place.header)
  rw [← List.any_map, ← List.any_map]
  exact congrArg (List.any · mark) (map_header_placesBelowAll above [] ts)

@[simp] theorem anyHeader_nil : anyHeader mark [] = false := rfl

/-- A mark is at the root of the first tree, below it, or in a later tree. -/
theorem anyHeader_cons (h : Header) (us ts : List IncludeTree) :
    anyHeader mark (node h us :: ts) = (mark h || anyHeader mark us || anyHeader mark ts) := by
  unfold anyHeader places
  rw [placesBelowAll, placesBelow, List.cons_append, List.any_cons, List.any_append,
    any_placesBelowAll [h], Bool.or_assoc]
  rfl

/-- Marks can be looked for in what is seen of the places. -/
theorem anyHeader_eq_any_seen (ts : List IncludeTree) :
    anyHeader mark ts = ((places ts).map (Place.seen mark)).any (·.2) := by
  rw [List.any_map]
  rfl

/-- **An inserted header brings its mark with it**, and no other mark comes or
goes. -/
theorem anyHeader_insertNote (hmark : ∀ h : Header, mark (h.above leaf) = mark h) (level : Nat)
    (ts : List IncludeTree) :
    anyHeader mark (insertNote leaf level ts) = (anyHeader mark ts || mark leaf) := by
  rw [anyHeader_eq_any_seen, anyHeader_eq_any_seen, seen_places_insertNote hmark, List.any_append,
    List.any_cons, List.any_nil, Bool.or_false]

/-- A change that keeps every mark keeps whether there is one. -/
theorem anyHeader_mapAll {f : Header → Header} (hmark : ∀ h : Header, mark (f h) = mark h)
    (ts : List IncludeTree) : anyHeader mark (mapAll f ts) = anyHeader mark ts := by
  rw [anyHeader_eq_any_seen, anyHeader_eq_any_seen, seen_places_mapAll hmark]

mutual

/-- What stands below a place of a tree is a place of the tree. -/
theorem mem_placesBelow_of_children {above : List Header} {p q : Place} :
    (t : IncludeTree) → p ∈ placesBelow above t →
      q ∈ placesBelowAll (p.header :: p.above) p.tree.children → q ∈ placesBelow above t
  | node h ts, hp, hq => by
    rw [placesBelow, List.mem_cons] at hp ⊢
    rcases hp with rfl | hp
    · exact .inr hq
    · exact .inr (mem_placesBelowAll_of_children ts hp hq)

/-- What stands below a place of some trees is a place of the trees. -/
theorem mem_placesBelowAll_of_children {above : List Header} {p q : Place} :
    (ts : List IncludeTree) → p ∈ placesBelowAll above ts →
      q ∈ placesBelowAll (p.header :: p.above) p.tree.children → q ∈ placesBelowAll above ts
  | [], hp, _ => absurd hp List.not_mem_nil
  | t :: ts, hp, hq => by
    rw [placesBelowAll, List.mem_append] at hp ⊢
    rcases hp with hp | hp
    · exact .inl (mem_placesBelow_of_children t hp hq)
    · exact .inr (mem_placesBelowAll_of_children ts hp hq)

end

mutual

theorem exists_place_of_mem_above_node {above : List Header} {p : Place} {g : Header} :
    (t : IncludeTree) → p ∈ placesBelow above t → g ∈ p.above →
      g ∈ above ∨ ∃ q ∈ placesBelow above t, q.header = g
  | node h ts, hp, hg => by
    rw [placesBelow] at hp ⊢
    rcases List.mem_cons.1 hp with rfl | hp
    · exact .inl hg
    · rcases exists_place_of_mem_above_forest ts hp hg with hg | ⟨q, hq, hheader⟩
      · rcases List.mem_cons.1 hg with rfl | hg
        · exact .inr ⟨_, List.mem_cons_self, rfl⟩
        · exact .inl hg
      · exact .inr ⟨q, List.mem_cons_of_mem _ hq, hheader⟩

theorem exists_place_of_mem_above_forest {above : List Header} {p : Place} {g : Header} :
    (ts : List IncludeTree) → p ∈ placesBelowAll above ts → g ∈ p.above →
      g ∈ above ∨ ∃ q ∈ placesBelowAll above ts, q.header = g
  | [], hp, _ => absurd hp List.not_mem_nil
  | t :: ts, hp, hg => by
    rw [placesBelowAll] at hp ⊢
    rcases List.mem_append.1 hp with hp | hp
    · exact (exists_place_of_mem_above_node t hp hg).imp_right fun ⟨q, hq, hheader⟩ =>
        ⟨q, List.mem_append_left _ hq, hheader⟩
    · exact (exists_place_of_mem_above_forest ts hp hg).imp_right fun ⟨q, hq, hheader⟩ =>
        ⟨q, List.mem_append_right _ hq, hheader⟩

end

/-- **A header above a place has a place itself.** -/
theorem exists_place_of_mem_above {ts : List IncludeTree} {p : Place} {g : Header}
    (hp : p ∈ places ts) (hg : g ∈ p.above) : ∃ q ∈ places ts, q.header = g :=
  (exists_place_of_mem_above_forest ts hp hg).resolve_left List.not_mem_nil

/-- A mark below a place is a mark in the trees. -/
theorem anyHeader_of_children {ts : List IncludeTree} {p : Place} (hp : p ∈ places ts)
    (h : anyHeader mark p.tree.children = true) : anyHeader mark ts = true := by
  rw [← any_placesBelowAll (p.header :: p.above), List.any_eq_true] at h
  obtain ⟨q, hq, hmark⟩ := h
  exact anyHeader_eq_true_iff.2 ⟨q, mem_placesBelowAll_of_children ts hp hq, hmark⟩

/-! ## What is known of the headers below -/

mutual

/-- **Every header of the tree knows whether a mark is below it**: `below` says
of it whether a header below bears the mark. -/
def Tracks (mark below : Header → Bool) : IncludeTree → Prop
  | node h ts => below h = anyHeader mark ts ∧ TracksAll mark below ts

/-- **Every header of the trees knows whether a mark is below it.** -/
def TracksAll (mark below : Header → Bool) : List IncludeTree → Prop
  | [] => True
  | t :: ts => Tracks mark below t ∧ TracksAll mark below ts

end

mutual

theorem tracks_iff (above : List Header) :
    (t : IncludeTree) → (Tracks mark below t ↔
      ∀ p ∈ placesBelow above t, below p.header = anyHeader mark p.tree.children)
  | node h ts => by
    rw [Tracks, placesBelow, List.forall_mem_cons, tracksAll_iff (h :: above) ts]
    rfl

/-- The trees know of their marks if the tree at each place does. -/
theorem tracksAll_iff (above : List Header) :
    (ts : List IncludeTree) → (TracksAll mark below ts ↔
      ∀ p ∈ placesBelowAll above ts, below p.header = anyHeader mark p.tree.children)
  | [] => ⟨fun _ => nofun, fun _ => trivial⟩
  | t :: ts => by
    rw [TracksAll, placesBelowAll, List.forall_mem_append, tracks_iff above t,
      tracksAll_iff above ts]

end

mutual

theorem tracks_insertBelow (hmark : ∀ h : Header, mark (h.above leaf) = mark h)
    (hbelow : ∀ h : Header, below (h.above leaf) = (below h || mark leaf))
    (hleaf : below leaf = false) (level : Nat) :
    (t : IncludeTree) → Tracks mark below t → Tracks mark below (insertBelow leaf level t)
  | node h ts, htracks => by
    rw [Tracks] at htracks
    rw [insertBelow, Tracks, hbelow, htracks.1, anyHeader_insertNote hmark]
    exact ⟨rfl, tracksAll_insertNote hmark hbelow hleaf level ts htracks.2⟩

/-- **An insertion keeps what headers know true**: those that get one more
header below them are told of it. -/
theorem tracksAll_insertNote (hmark : ∀ h : Header, mark (h.above leaf) = mark h)
    (hbelow : ∀ h : Header, below (h.above leaf) = (below h || mark leaf))
    (hleaf : below leaf = false) (level : Nat) :
    (ts : List IncludeTree) → TracksAll mark below ts →
      TracksAll mark below (insertNote leaf level ts)
  | [], _ => by
    rw [insertNote, IncludeTree.leaf, TracksAll, Tracks, anyHeader_nil]
    exact ⟨⟨hleaf, trivial⟩, trivial⟩
  | [t], htracks => by
    rw [TracksAll] at htracks
    cases level with
    | zero =>
      refine ⟨htracks.1, ?_⟩
      rw [insertNote, IncludeTree.leaf, TracksAll, Tracks, anyHeader_nil]
      exact ⟨⟨hleaf, trivial⟩, trivial⟩
    | succ level => exact ⟨tracks_insertBelow hmark hbelow hleaf level t htracks.1, trivial⟩
  | s :: t :: ts, htracks => by
    rw [TracksAll] at htracks
    rw [insertNote_cons_cons, TracksAll]
    exact ⟨htracks.1, tracksAll_insertNote hmark hbelow hleaf level (t :: ts) htracks.2⟩

end

mutual

theorem tracks_map {f : Header → Header} (hmark : ∀ h : Header, mark (f h) = mark h)
    (hbelow : ∀ h : Header, below (f h) = below h) :
    (t : IncludeTree) → Tracks mark below t → Tracks mark below (t.map f)
  | node h ts, htracks => by
    rw [Tracks] at htracks
    rw [map, Tracks, hbelow, htracks.1, anyHeader_mapAll hmark]
    exact ⟨rfl, tracksAll_mapAll hmark hbelow ts htracks.2⟩

/-- A change that keeps marks and knowledge keeps what headers know true. -/
theorem tracksAll_mapAll {f : Header → Header} (hmark : ∀ h : Header, mark (f h) = mark h)
    (hbelow : ∀ h : Header, below (f h) = below h) :
    (ts : List IncludeTree) → TracksAll mark below ts → TracksAll mark below (mapAll f ts)
  | [], _ => by
    rw [mapAll]
    trivial
  | t :: ts, htracks => by
    rw [TracksAll] at htracks
    rw [mapAll, TracksAll]
    exact ⟨tracks_map hmark hbelow t htracks.1, tracksAll_mapAll hmark hbelow ts htracks.2⟩

end

/-- Where headers know of the marks below, a mark anywhere in the trees can be
told from the roots. -/
theorem any_root_eq_anyHeader :
    (ts : List IncludeTree) → TracksAll mark below ts →
      ts.any (fun t => mark t.header || below t.header) = anyHeader mark ts
  | [], _ => rfl
  | node h us :: ts, htracks => by
    rw [TracksAll, Tracks] at htracks
    rw [List.any_cons, any_root_eq_anyHeader ts htracks.2, header_node, htracks.1.1,
      anyHeader_cons]

mutual

theorem below_of_mem_above_node {above : List Header} {p : Place} {g : Header}
    (hmark : mark p.header = true) (hg : g ∈ p.above) :
    (t : IncludeTree) → Tracks mark below t → p ∈ placesBelow above t →
      g ∈ above ∨ below g = true
  | node h ts, htracks, hp => by
    rw [Tracks] at htracks
    rcases List.mem_cons.1 hp with rfl | hp
    · exact .inl hg
    · rcases below_of_mem_above_forest hmark hg ts htracks.2 hp with hg | hbelow
      · rcases List.mem_cons.1 hg with rfl | hg
        · refine .inr ?_
          rw [htracks.1, ← any_placesBelowAll (g :: above), List.any_eq_true]
          exact ⟨p, hp, hmark⟩
        · exact .inl hg
      · exact .inr hbelow

theorem below_of_mem_above_forest {above : List Header} {p : Place} {g : Header}
    (hmark : mark p.header = true) (hg : g ∈ p.above) :
    (ts : List IncludeTree) → TracksAll mark below ts → p ∈ placesBelowAll above ts →
      g ∈ above ∨ below g = true
  | [], _, hp => absurd hp List.not_mem_nil
  | t :: ts, htracks, hp => by
    rw [TracksAll] at htracks
    rw [placesBelowAll, List.mem_append] at hp
    rcases hp with hp | hp
    · exact below_of_mem_above_node hmark hg t htracks.1 hp
    · exact below_of_mem_above_forest hmark hg ts htracks.2 hp

end

/-- **Every header above a mark knows of it.** -/
theorem below_of_mem_above {ts : List IncludeTree} (htracks : TracksAll mark below ts) {p : Place}
    (hp : p ∈ places ts) (hmark : mark p.header = true) {g : Header} (hg : g ∈ p.above) :
    below g = true :=
  (below_of_mem_above_forest hmark hg ts htracks hp).resolve_left List.not_mem_nil

/-! ## What is known of the headers above -/

/-- Whether the header repeats one that it stands below, as paths are
compared. -/
def Place.repeats (p : Place) : Bool :=
  p.above.any (·.comparedPath == p.header.comparedPath)

theorem Place.repeats_eq_true_iff {p : Place} :
    p.repeats = true ↔ ∃ g ∈ p.above, g.comparedPath = p.header.comparedPath := by
  simp only [Place.repeats, List.any_eq_true, beq_iff_eq]

/-- **Exactly the headers that repeat one above them close a cycle.** -/
def ClosesExactly (ts : List IncludeTree) : Prop :=
  ∀ p ∈ places ts, p.header.closesCycle = p.repeats

/-- Whether a header closes a cycle, and what it is compared as: all that
`ClosesExactly` reads of a header. -/
def closing (h : Header) : String × Bool :=
  (h.comparedPath, h.closesCycle)

/-- Whether a header says the truth about the headers above it, as far as they
are seen. -/
def ClosesTruly (s : List (String × Bool) × String × Bool) : Prop :=
  s.2.2 = s.1.any (·.1 == s.2.1)

theorem closesExactly_iff {ts : List IncludeTree} :
    ClosesExactly ts ↔ ∀ p ∈ places ts, ClosesTruly (p.seen closing) := by
  refine forall₂_congr fun p _ => ?_
  show _ ↔ p.header.closesCycle = (p.above.map closing).any (·.1 == p.header.comparedPath)
  rw [List.any_map]
  rfl

/-- **A header that is flagged for the headers of its open path is flagged
exactly**, and the flags of the others stay as they are. -/
theorem closesExactly_insertNote {level : Nat} {ts : List IncludeTree}
    (hleaf : leaf.closesCycle = closesCycle leaf.comparedPath level ts)
    (h : ClosesExactly ts) : ClosesExactly (insertNote leaf level ts) := by
  refine closesExactly_iff.2
    (forall_seen_insertNote closing ClosesTruly (fun _ => rfl) (closesExactly_iff.1 h) ?_)
  show leaf.closesCycle
    = ((openPath level ts).reverse.map closing).any (·.1 == leaf.comparedPath)
  rw [hleaf, List.any_map, List.any_reverse]
  rfl

/-- A change that keeps paths and flags keeps the flags exact. -/
theorem closesExactly_mapAll {f : Header → Header} (hf : ∀ h : Header, closing (f h) = closing h)
    {ts : List IncludeTree} (h : ClosesExactly ts) : ClosesExactly (mapAll f ts) :=
  closesExactly_iff.2 (forall_seen_mapAll closing ClosesTruly hf (closesExactly_iff.1 h))

end IncludeTree

end IncludeForest
