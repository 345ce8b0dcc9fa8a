import IncludeForest.Proofs.Tree.Marks
import IncludeForest.Report.Cycle
import IncludeForest.Report.Stats

/-!
# What the reports make of a tree

A report goes through the trees of a module by a recursion of its own: one
counts the headers that bear a mark, one measures the longest way down, one
collects the chains of the cycles and turns back where there are none. The
places of the trees are the common ground. A count is the number of places with
a marked header, the measure is the depth of the deepest place, and the
collection has one chain for each header that closes a cycle, since where it
turns back there is none.
-/

namespace IncludeForest

open IncludeTree

/-! ## Counting -/

namespace Stats

variable {mark : Header → Bool} {leaf : Header}

mutual

theorem count_eq_countP (above : List Header) :
    (t : IncludeTree) → count mark t = (placesBelow above t).countP (mark ·.header)
  | node h ts => by
    rw [count, placesBelow, List.countP_cons, countAll_eq_countP (h :: above) ts, Nat.add_comm]
    rfl

/-- **A count is the number of places** whose header bears the mark. -/
theorem countAll_eq_countP (above : List Header) :
    (ts : List IncludeTree) → countAll mark ts = (placesBelowAll above ts).countP (mark ·.header)
  | [] => rfl
  | t :: ts => by
    rw [countAll, placesBelowAll, List.countP_append, count_eq_countP above t,
      countAll_eq_countP above ts]

end

/-- Marks can be counted in what is seen of the places. -/
theorem countAll_eq_countP_seen (ts : List IncludeTree) :
    countAll mark ts = ((places ts).map (Place.seen mark)).countP (·.2) := by
  rw [countAll_eq_countP [], List.countP_map]
  rfl

/-- All headers together are as many as the trees hold. -/
theorem countAll_true (ts : List IncludeTree) : countAll (fun _ => true) ts = sizeAll ts := by
  rw [countAll_eq_countP [], List.countP_true]
  exact length_places ts

/-- There is nothing to count where no header bears the mark. -/
theorem countAll_eq_zero_iff {ts : List IncludeTree} :
    countAll mark ts = 0 ↔ anyHeader mark ts = false := by
  rw [countAll_eq_countP [], List.countP_eq_zero, anyHeader, List.any_eq_false]
  rfl

/-- **An inserted header is counted** if it bears the mark, and nothing else
changes. -/
theorem countAll_insertNote (hmark : ∀ h : Header, mark (h.above leaf) = mark h) (level : Nat)
    (ts : List IncludeTree) :
    countAll mark (insertNote leaf level ts) = countAll mark ts + (mark leaf).toNat := by
  rw [countAll_eq_countP_seen, countAll_eq_countP_seen, seen_places_insertNote hmark,
    List.countP_append, List.countP_singleton]
  cases mark leaf <;> rfl

/-- A change that keeps every mark keeps their number. -/
theorem countAll_mapAll {f : Header → Header} (hmark : ∀ h : Header, mark (f h) = mark h)
    (ts : List IncludeTree) : countAll mark (mapAll f ts) = countAll mark ts := by
  rw [countAll_eq_countP_seen, countAll_eq_countP_seen, seen_places_mapAll hmark]

end Stats

/-! ## Measuring -/

namespace IncludeTree

mutual

theorem level_lt_depth {above : List Header} {p : Place} :
    (t : IncludeTree) → p ∈ placesBelow above t → p.level < above.length + t.depth
  | node h ts, hp => by
    rw [placesBelow, List.mem_cons] at hp
    rw [depth]
    rcases hp with rfl | hp
    · show above.length < _
      omega
    · have hbelow := level_lt_depthAll ts hp
      rw [List.length_cons] at hbelow
      omega

/-- No place is deeper than the trees are. -/
theorem level_lt_depthAll {above : List Header} {p : Place} :
    (ts : List IncludeTree) → p ∈ placesBelowAll above ts → p.level < above.length + depthAll ts
  | [], hp => absurd hp List.not_mem_nil
  | t :: ts, hp => by
    rw [placesBelowAll, List.mem_append] at hp
    rw [depthAll]
    rcases hp with hp | hp
    · have hfirst := level_lt_depth t hp
      omega
    · have hlater := level_lt_depthAll ts hp
      omega

end

mutual

theorem exists_level_eq_depth (above : List Header) :
    (t : IncludeTree) → ∃ p ∈ placesBelow above t, p.level + 1 = above.length + t.depth
  | node h ts => by
    rw [placesBelow, depth]
    rcases exists_level_eq_depthAll (h :: above) ts with hzero | ⟨p, hp, hlevel⟩
    · refine ⟨_, List.mem_cons_self, ?_⟩
      rw [hzero]
      rfl
    · refine ⟨p, List.mem_cons_of_mem _ hp, ?_⟩
      rw [hlevel, List.length_cons]
      omega

/-- Some place is as deep as the trees are, if there is any. -/
theorem exists_level_eq_depthAll (above : List Header) :
    (ts : List IncludeTree) → depthAll ts = 0 ∨
      ∃ p ∈ placesBelowAll above ts, p.level + 1 = above.length + depthAll ts
  | [] => .inl rfl
  | t :: ts => by
    rw [placesBelowAll, depthAll]
    right
    obtain ⟨p, hp, hlevel⟩ := exists_level_eq_depth above t
    by_cases hle : depthAll ts ≤ t.depth
    · refine ⟨p, List.mem_append_left _ hp, ?_⟩
      rw [hlevel, Nat.max_eq_left hle]
    · rcases exists_level_eq_depthAll above ts with hzero | ⟨q, hq, hdeepest⟩
      · omega
      · refine ⟨q, List.mem_append_right _ hq, ?_⟩
        rw [hdeepest, Nat.max_eq_right (Nat.le_of_not_le hle)]

end

end IncludeTree

/-! ## Collecting cycles -/

namespace Cycle

mutual

theorem chainsBelow_eq (above : List Header) :
    (t : IncludeTree) → Tracks (·.closesCycle) (·.containsCycle) t →
      chainsBelow (above.map (·.shownPath)) t
        = ((placesBelow above t).filter (·.header.closesCycle)).map
            fun p => p.chain.map (·.shownPath)
  | node h ts, htracks => by
    rw [Tracks] at htracks
    rw [chainsBelow, placesBelow, List.filter_cons]
    by_cases hpath : h.onCyclePath = true
    · have hbelow := chainsBelowAll_eq (h :: above) ts htracks.2
      rw [List.map_cons] at hbelow
      rw [if_pos hpath]
      dsimp only
      rw [hbelow]
      have hchain : Place.chain ⟨above, node h ts⟩ = (h :: above).reverse := rfl
      show _ = List.map _ (if h.closesCycle = true then _ else _)
      cases h.closesCycle with
      | true => rw [if_pos rfl, if_pos rfl, List.map_cons, hchain, List.map_reverse]; rfl
      | false => rw [if_neg Bool.false_ne_true, if_neg Bool.false_ne_true]; rfl
    · -- The walk turns back here, and the header knows that it leaves out nothing.
      obtain ⟨hcloses, hcontains⟩ : h.closesCycle = false ∧ h.containsCycle = false := by
        simpa [Header.onCyclePath] using hpath
      have hnone : (placesBelowAll (h :: above) ts).filter (·.header.closesCycle) = [] := by
        rw [List.filter_eq_nil_iff, ← List.any_eq_false]
        exact (any_placesBelowAll (h :: above) ts).trans (htracks.1.symm.trans hcontains)
      have hroot : Place.header ⟨above, node h ts⟩ = h := rfl
      rw [if_neg hpath, hroot, hcloses, if_neg Bool.false_ne_true, hnone, List.map_nil]

/-- **Every header that closes a cycle has its chain**, and no other has one, where
headers know of the cycles below them. -/
theorem chainsBelowAll_eq (above : List Header) :
    (ts : List IncludeTree) → TracksAll (·.closesCycle) (·.containsCycle) ts →
      chainsBelowAll (above.map (·.shownPath)) ts
        = ((placesBelowAll above ts).filter (·.header.closesCycle)).map
            fun p => p.chain.map (·.shownPath)
  | [], _ => rfl
  | t :: ts, htracks => by
    rw [TracksAll] at htracks
    rw [chainsBelowAll, placesBelowAll, List.filter_append, List.map_append,
      chainsBelow_eq above t htracks.1, chainsBelowAll_eq above ts htracks.2]

end

end Cycle

end IncludeForest
