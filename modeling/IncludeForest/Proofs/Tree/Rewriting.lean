import IncludeForest.Proofs.Text.Rewriting
import IncludeForest.Proofs.Tree.Order

/-!
# Trees rewritten in place

To replace every header of some trees by what a function makes of it changes
neither the shape of the trees nor where the next note goes. So it makes no
difference whether the headers are replaced before a note is inserted or after –
if the header of the note is replaced as well, and the function does not meddle
with what an insertion writes (`mapAll_insertNote`).

The replacement that matters is `Header.normalized`: a header shown with the
path that it is compared as. Where its path is cut, and where its hit can be
seen, are offsets, and they stay what they are.
-/

namespace IncludeForest

namespace IncludeTree

variable {f : Header → Header}

mutual

/-- One replacement after another, in a tree. -/
theorem map_map (g f : Header → Header) :
    (t : IncludeTree) → (t.map f).map g = t.map fun h => g (f h)
  | node h ts => by rw [map, map, map, mapAll_mapAll g f ts]

/-- **One replacement after another.** -/
theorem mapAll_mapAll (g f : Header → Header) :
    (ts : List IncludeTree) → mapAll g (mapAll f ts) = mapAll (fun h => g (f h)) ts
  | [] => rfl
  | t :: ts => by rw [mapAll, mapAll, mapAll, map_map g f t, mapAll_mapAll g f ts]

end

mutual

theorem openPathIn_map (f : Header → Header) (level : Nat) :
    (t : IncludeTree) → openPathIn level (t.map f) = (openPathIn level t).map f
  | node h ts => by rw [map, openPathIn, openPathIn, List.map_cons, openPath_mapAll f level ts]

/-- The open path of a note consists of the replaced headers. -/
theorem openPath_mapAll (f : Header → Header) (level : Nat) :
    (ts : List IncludeTree) → openPath level (mapAll f ts) = (openPath level ts).map f
  | [] => by
    cases level <;> rfl
  | [t] => by
    cases level with
    | zero => rfl
    | succ level =>
      rw [mapAll, mapAll, openPath, openPath, openPathIn_map f level t]
  | s :: t :: ts => by
    cases level with
    | zero => rfl
    | succ level =>
      rw [mapAll, mapAll, openPath, openPath, ← mapAll, openPath_mapAll f (level + 1) (t :: ts)]

end

mutual

theorem map_insertBelow {leaf : Header}
    (hf : ∀ h : Header, f (h.above leaf) = (f h).above (f leaf)) (level : Nat) :
    (t : IncludeTree) → (insertBelow leaf level t).map f = insertBelow (f leaf) level (t.map f)
  | node h ts => by
    rw [insertBelow, map, map, insertBelow, hf, mapAll_insertNote hf level ts]

/-- **Headers can be replaced before a note is inserted or after.** -/
theorem mapAll_insertNote {leaf : Header}
    (hf : ∀ h : Header, f (h.above leaf) = (f h).above (f leaf)) (level : Nat) :
    (ts : List IncludeTree) →
      mapAll f (insertNote leaf level ts) = insertNote (f leaf) level (mapAll f ts)
  | [] => by
    cases level <;> rfl
  | [t] => by
    cases level with
    | zero => rfl
    | succ level =>
      rw [insertNote, mapAll, mapAll, mapAll, mapAll, insertNote, map_insertBelow hf level t]
  | s :: t :: ts => by
    rw [insertNote_cons_cons, mapAll, mapAll_insertNote hf level (t :: ts), mapAll, mapAll, mapAll,
      insertNote_cons_cons]

end

/-- **A place among replaced headers.** -/
def Place.map (f : Header → Header) (p : Place) : Place :=
  ⟨p.above.map f, p.tree.map f⟩

@[simp] theorem Place.header_map (f : Header → Header) (p : Place) :
    (p.map f).header = f p.header := by
  obtain ⟨above, h, ts⟩ := p
  rfl

@[simp] theorem Place.level_map (f : Header → Header) (p : Place) : (p.map f).level = p.level :=
  List.length_map _

mutual

theorem placesBelow_map (f : Header → Header) (above : List Header) :
    (t : IncludeTree) → placesBelow (above.map f) (t.map f) = (placesBelow above t).map (Place.map f)
  | node h ts => by
    rw [map, placesBelow, placesBelow, List.map_cons, ← List.map_cons,
      placesBelowAll_mapAll f (h :: above) ts]
    rfl

theorem placesBelowAll_mapAll (f : Header → Header) (above : List Header) :
    (ts : List IncludeTree) →
      placesBelowAll (above.map f) (mapAll f ts) = (placesBelowAll above ts).map (Place.map f)
  | [] => rfl
  | t :: ts => by
    rw [mapAll, placesBelowAll, placesBelowAll, List.map_append, placesBelow_map f above t,
      placesBelowAll_mapAll f above ts]

end

/-- **Replaced headers have the places that the headers had.** -/
theorem places_mapAll (f : Header → Header) (ts : List IncludeTree) :
    places (mapAll f ts) = (places ts).map (Place.map f) :=
  placesBelowAll_mapAll f [] ts

theorem isEmpty_mapAll (f : Header → Header) (ts : List IncludeTree) :
    (mapAll f ts).isEmpty = ts.isEmpty := by
  cases ts <;> rfl

/-- A note closes a cycle among the replaced headers if it did before, since
the paths are compared as before. -/
theorem closesCycle_mapAll (hf : ∀ h : Header, (f h).comparedPath = h.comparedPath) (path : String)
    (level : Nat) (ts : List IncludeTree) :
    closesCycle path level (mapAll f ts) = closesCycle path level ts := by
  unfold closesCycle
  rw [openPath_mapAll, List.any_map]
  refine congrArg (openPath level ts).any (funext fun h => ?_)
  show ((f h).comparedPath == path) = (h.comparedPath == path)
  rw [hf]

end IncludeTree

namespace Header

open Text

variable (policy : PathPolicy)

/-- **The header shown as it is compared.** -/
def normalized (h : Header) : Header :=
  { h with shownPath := policy.normalize h.shownPath }

/-- A path that is shown as it is compared has as many bytes. -/
theorem byteLength_shownPath_normalized (h : Header) :
    byteLength (h.normalized policy).shownPath.toList = byteLength h.shownPath.toList := by
  show byteLength (policy.normalize h.shownPath).toList = _
  rw [PathPolicy.toList_normalize, byteLength_map policy.utf8Size_normalizeChar]

/-- **A cut falls in the same place**, whether the path is shown as it is
compared or as it was written. -/
theorem dropFront_normalized (h : Header) (count : Nat) :
    (h.normalized policy).dropFront count = (h.dropFront count).normalized policy := by
  have hshown : (h.normalized policy).shownPath.toList
      = h.shownPath.toList.map policy.normalizeChar := policy.toList_normalize h.shownPath
  unfold dropFront
  dsimp only
  rw [byteLength_shownPath_normalized, hshown, splitAtByte?_map policy.utf8Size_normalizeChar]
  cases splitAtByte? (min count (byteLength h.shownPath.toList)) h.shownPath.toList with
  | none => rfl
  | some parts =>
    obtain ⟨front, back⟩ := parts
    show { h with shownPath := String.ofList (back.map policy.normalizeChar) }
      = { h with shownPath := policy.normalize (String.ofList back) }
    rw [PathPolicy.normalize, String.toList_ofList]

/-- **The same part of the hit can be seen.** -/
theorem visibleHit?_normalized (h : Header) :
    (h.normalized policy).visibleHit? = h.visibleHit? := by
  unfold visibleHit?
  dsimp only
  rw [byteLength_shownPath_normalized]
  show h.hit.bind _ = _
  refine congrArg h.hit.bind (funext fun hit => ?_)
  have hboundary (n : Nat) : isBoundary n (h.normalized policy).shownPath.toList
      = isBoundary n h.shownPath.toList := by
    show isBoundary n (policy.normalize h.shownPath).toList = _
    rw [PathPolicy.toList_normalize, isBoundary_map policy.utf8Size_normalizeChar]
  rw [hboundary, hboundary]
  rfl

end Header

end IncludeForest
