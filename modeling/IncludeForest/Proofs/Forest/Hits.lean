import IncludeForest.Proofs.Forest.Matches
import IncludeForest.Proofs.Forest.Prefixes
import IncludeForest.View.Outline

/-!
# What can be seen of a hit

A hit is found in what is compared and painted in what is shown. Between the two
lie a front that has been dropped and a policy that replaces characters, and
offsets are carried over all the same. The front is known by its length alone, and
in different headers of a module it need not be the same: a header that was
inserted after the module had been simplified has its whole path, and one that was
there may have lost more than the prefix has now.

What makes it right is that what is shown is, as paths are compared, the end of
what is compared (`Forest.IsReachable.showsRest`), and a word that stands in a text
stands in the end of it with what is left of it. So the offsets fall between two
characters, no hit is lost of which something can be seen
(`Header.ShowsBehind.visibleHit?_eq_none_iff`), and the path comes apart where the
hit begins and ends.
-/

namespace IncludeForest

open IncludeTree Text

namespace Header

variable {policy : PathPolicy} {front needle : String} {h : Header} {hit : Span}

namespace ShowsBehind

/-- The hit as it is moved to what is shown. -/
theorem visibleHit?_eq (hshows : h.ShowsBehind policy front) (hhit : h.hit = some hit) :
    h.visibleHit? =
      let start := hit.start - front.utf8ByteSize
      let stop := hit.stop - front.utf8ByteSize
      if start < stop ∧ isBoundary start h.shownPath.toList ∧ isBoundary stop h.shownPath.toList
      then some ⟨start, stop⟩ else none := by
  unfold visibleHit?
  rw [hhit, Option.bind_some]
  dsimp only
  rw [byteLength_toList, byteLength_toList, ← hshows.utf8ByteSize_eq]

/-- **What is left of a hit stands in what is shown**, where the front that is not
shown does not reach behind the hit. -/
theorem exists_seen (hshows : h.ShowsBehind policy front)
    (hfound : hitIn? needle.toList h.comparedPath.toList = some hit)
    (hlt : front.utf8ByteSize < hit.stop) :
    ∃ before seen behind, h.shownPath = before ++ seen ++ behind ∧
      before.utf8ByteSize = hit.start - front.utf8ByteSize ∧
      (before ++ seen).utf8ByteSize = hit.stop - front.utf8ByteSize ∧
      ∃ lost, needle = lost ++ policy.normalize seen := by
  obtain ⟨before, behind, hpath, hstart, hstop⟩ := exists_append_of_hitIn? hfound
  have hsplit : front.toList ++ h.shownPath.toList.map policy.normalizeChar
      = before ++ needle.toList ++ behind := by
    rw [← hpath, hshows, String.toList_append, PathPolicy.toList_normalize]
  rw [← byteLength_toList] at hlt hstop
  rw [← byteLength_toList front] at *
  obtain ⟨before', lost, seen, hrest, hneedle, hbefore, hlost⟩ :=
    exists_rest_of_word hsplit (by omega)
  -- The parts of what is compared are those of what is shown, normalised.
  obtain ⟨shown, last, hshown, hfront, -⟩ := List.map_eq_append_iff.1 hrest
  obtain ⟨first, middle, rfl, rfl, rfl⟩ := List.map_eq_append_iff.1 hfront
  have hlength := congrArg byteLength hneedle
  rw [byteLength_append, byteLength_map policy.utf8Size_normalizeChar] at hlength
  rw [byteLength_map policy.utf8Size_normalizeChar] at hbefore
  refine ⟨String.ofList first, String.ofList middle, String.ofList last,
    String.toList_injective ?_, ?_, ?_, String.ofList lost, String.toList_injective ?_⟩
  · simp only [String.toList_append, String.toList_ofList]
    exact hshown
  · rw [← byteLength_eq, hbefore, hstart]
  · rw [← String.ofList_append, ← byteLength_eq, byteLength_append]
    omega
  · rw [String.toList_append, String.toList_ofList, PathPolicy.toList_normalize,
      String.toList_ofList, hneedle]

/-- **A hit can be seen** where the front that is not shown does not reach behind
it. -/
theorem visibleHit?_of_lt (hshows : h.ShowsBehind policy front) (hhit : h.hit = some hit)
    (hfound : hitIn? needle.toList h.comparedPath.toList = some hit)
    (hlt : front.utf8ByteSize < hit.stop) :
    hit.start - front.utf8ByteSize < hit.stop - front.utf8ByteSize ∧
      h.visibleHit?
        = some ⟨hit.start - front.utf8ByteSize, hit.stop - front.utf8ByteSize⟩ := by
  obtain ⟨hne, hfirst⟩ := hitIn?_eq_some_iff.1 hfound
  have hpos : 0 < needle.utf8ByteSize :=
    Nat.pos_of_ne_zero (mt String.utf8ByteSize_eq_zero_iff.1 hne)
  have hstop := hfirst.stop
  have hvisible : hit.start - front.utf8ByteSize < hit.stop - front.utf8ByteSize := by omega
  obtain ⟨before, seen, behind, hshown, hstart, hend, -⟩ := hshows.exists_seen hfound hlt
  refine ⟨hvisible, ?_⟩
  rw [hshows.visibleHit?_eq hhit]
  refine if_pos ⟨hvisible, ?_, ?_⟩
  · rw [hshown, String.append_assoc, String.toList_append, ← hstart, ← byteLength_toList]
    exact isBoundary_byteLength before.toList (seen ++ behind).toList
  · rw [hshown, String.toList_append, ← hend, ← byteLength_toList]
    exact isBoundary_byteLength (before ++ seen).toList behind.toList

/-- **Nothing can be seen of a hit** if and only if it lies in the front that is not
shown. -/
theorem visibleHit?_eq_none_iff (hshows : h.ShowsBehind policy front) (hhit : h.hit = some hit)
    (hfound : hitIn? needle.toList h.comparedPath.toList = some hit) :
    h.visibleHit? = none ↔ hit.stop ≤ front.utf8ByteSize := by
  refine ⟨fun hnone => Nat.not_lt.1 fun hlt => ?_, fun hle => ?_⟩
  · rw [(hshows.visibleHit?_of_lt hhit hfound hlt).2] at hnone
    cases hnone
  · rw [hshows.visibleHit?_eq hhit]
    exact if_neg fun hvisible => by omega

end ShowsBehind

/-- **The path of a header in three parts**, where the hit in it begins and ends
between two of them. -/
theorem headerName_eq {before seen behind : String} (hshown : h.shownPath = before ++ seen ++ behind)
    (hvisible : h.visibleHit? = some ⟨before.utf8ByteSize, (before ++ seen).utf8ByteSize⟩) :
    View.headerName h
      = [⟨before, View.headerStyle h⟩, ⟨seen, .hit (View.headerStyle h)⟩,
          ⟨behind, View.headerStyle h⟩] := by
  have hfront : splitAtByte? before.utf8ByteSize h.shownPath.toList
      = some (before.toList, seen.toList ++ behind.toList) := by
    rw [hshown, String.append_assoc, String.toList_append, String.toList_append,
      ← byteLength_toList]
    exact splitAtByte?_append _ _
  have hrest : splitAtByte? ((before ++ seen).utf8ByteSize - before.utf8ByteSize)
      (seen.toList ++ behind.toList) = some (seen.toList, behind.toList) := by
    rw [String.utf8ByteSize_append, Nat.add_sub_cancel_left, ← byteLength_toList]
    exact splitAtByte?_append _ _
  unfold View.headerName
  rw [hvisible]
  dsimp only
  rw [hfront]
  dsimp only
  rw [hrest]
  dsimp only
  rw [String.ofList_toList, String.ofList_toList, String.ofList_toList]

end Header

namespace Module

variable {policy : PathPolicy} {m : Module}

/-- **Whether the headers of a module show the ends of their paths**: each is shown
without some front that it is compared with. -/
def ShowsRests (policy : PathPolicy) (m : Module) : Prop :=
  ∀ p ∈ m.places, ∃ front, p.header.ShowsBehind policy front

theorem showsRests_empty (policy : PathPolicy) : ShowsRests policy {} :=
  fun _ hp => absurd hp List.not_mem_nil

/-- The header of a note is shown with its whole path. -/
theorem ShowsRests.insertNote {rules : ForestRules} (h : m.ShowsRests rules.policy) (level : Nat)
    (path : String) : (m.insertNote rules level path).1.ShowsRests rules.policy := by
  unfold ShowsRests places
  rw [roots_insertNote]
  exact forall_seen_insertNote (fun g => (g.shownPath, g.comparedPath))
    (fun s => ∃ front, s.2.2 = front ++ rules.policy.normalize s.2.1) (fun _ => rfl) h
    ⟨"", String.empty_append.symm⟩

/-- Simplifying may drop more from a path, but never from its end. -/
theorem ShowsRests.simplify (h : m.ShowsRests policy) : m.simplify.ShowsRests policy := by
  intro p hp
  rw [places_simplify] at hp
  obtain ⟨q, hq, rfl⟩ := List.mem_map.1 hp
  obtain ⟨front, hshows⟩ := h q hq
  rw [Place.header_map]
  exact hshows.dropFront _

end Module

namespace Forest

/-- Every header shows the end of its path. -/
theorem IsReachable.showsRests {rules : ForestRules} {f : Forest} (h : f.IsReachable rules) :
    f.AllModules (Module.ShowsRests rules.policy) :=
  h.allModules (Module.showsRests_empty _) (fun _ level path hm => hm.insertNote level path)
    fun _ hm => hm.simplify

/-- **Hits are moved to what is shown, and can be cut out of it.** After every run,
what is shown of a path is, as paths are compared, what is left of the compared path
when so many bytes are removed as it is longer. Of a hit nothing can be seen if and
only if it ends in what was removed. Otherwise what can be seen of it is a stretch of
what is shown, not empty and between two characters at both ends: the path is shown
in three parts, and the middle one is the end of the needle, as long as the part of
the hit that was not removed. -/
theorem visibleHits_performAll (rules : ForestRules) (steps : List Step) {id : StreamId}
    {name : String} {m : Module} {p : Place}
    (hm : ((empty rules).performAll steps).1.module? id name = some m) (hp : p ∈ m.places) :
    let h := p.header
    let removed := h.comparedPath.utf8ByteSize - h.shownPath.utf8ByteSize
    (∃ front, h.comparedPath = front ++ rules.policy.normalize h.shownPath ∧
      front.utf8ByteSize = removed) ∧
    (h.hit = none → h.visibleHit? = none) ∧
    ∀ hit, h.hit = some hit →
      (h.visibleHit? = none ↔ hit.stop ≤ removed) ∧
      (removed < hit.stop →
        let start := max hit.start removed - removed
        let stop := hit.stop - removed
        h.visibleHit? = some ⟨start, stop⟩ ∧ start < stop ∧ stop ≤ h.shownPath.utf8ByteSize ∧
        ∃ before seen behind, h.shownPath = before ++ seen ++ behind ∧
          before.utf8ByteSize = start ∧ (before ++ seen).utf8ByteSize = stop ∧
          (∃ lost, rules.needle = lost ++ rules.policy.normalize seen) ∧
          (rules.policy.normalize seen).utf8ByteSize = hit.stop - max hit.start removed ∧
          View.headerName h
            = [⟨before, View.headerStyle h⟩, ⟨seen, .hit (View.headerStyle h)⟩,
                ⟨behind, View.headerStyle h⟩]) := by
  intro h removed
  have hf : ((empty rules).performAll steps).1.IsReachable rules :=
    isReachable_performAll rules steps
  obtain ⟨front, hshows⟩ : ∃ front, h.ShowsBehind rules.policy front :=
    hf.showsRests id name m hm p hp
  have hfound (hit : Span) (hhit : h.hit = some hit) :
      Header.hitIn? rules.needle.toList h.comparedPath.toList = some hit :=
    ((hf.matchesExact id name m hm).searched p hp).symm.trans hhit
  have hsize : front.utf8ByteSize = removed := hshows.utf8ByteSize_eq
  refine ⟨⟨front, hshows, hsize⟩, fun hnone => ?_, fun hit hhit => ?_⟩
  · rw [Header.visibleHit?, hnone]
    rfl
  · rw [← hsize]
    refine ⟨hshows.visibleHit?_eq_none_iff hhit (hfound hit hhit), fun hlt => ?_⟩
    obtain ⟨hvisible, hmoved⟩ := hshows.visibleHit?_of_lt hhit (hfound hit hhit) hlt
    obtain ⟨before, seen, behind, hshown, hstart, hstop, hneedle⟩ :=
      hshows.exists_seen (hfound hit hhit) hlt
    have hmax : max hit.start front.utf8ByteSize - front.utf8ByteSize
        = hit.start - front.utf8ByteSize := by omega
    have hparts := congrArg String.utf8ByteSize hshown
    rw [String.utf8ByteSize_append] at hparts
    dsimp only
    rw [hmax]
    refine ⟨hmoved, hvisible, by omega, before, seen, behind, hshown, hstart, hstop, hneedle,
      ?_, ?_⟩
    · rw [String.utf8ByteSize_append] at hstop
      rw [PathPolicy.utf8ByteSize_normalize]
      omega
    · exact Header.headerName_eq hshown (by rw [hmoved, hstart, hstop])

/-- The hit begins with an accented letter that the first simplification takes away,
and its end can be seen: the second takes nothing more, since the note between them
has nothing in common with the others. -/
theorem visibleHits_performAll_astride :
    let rules : ForestRules := { policy := .caseInsensitive, query := "\u00e9/S" }
    let steps : List Step :=
      [.project 1 "demo", .module 1 "main.cpp", .note 1 "main.cpp" 0 "Inc\u00e9/a.h",
        .note 1 "main.cpp" 1 "INC\u00e9\\Sub/b.h", .simplify, .note 1 "main.cpp" 0 "c.h", .simplify]
    let f := ((empty rules).performAll steps).1
    ∃ m p, f.module? 1 "main.cpp" = some m ∧ p ∈ m.places ∧ p.header.shownPath = "Sub/b.h" ∧
      p.header.hit = some ⟨3, 7⟩ ∧ p.header.visibleHit? = some ⟨0, 1⟩ ∧
      ∃ before seen behind, View.headerName p.header
        = [⟨before, .plain⟩, ⟨seen, .hit .plain⟩, ⟨behind, .plain⟩] ∧
        before.utf8ByteSize = 0 ∧ (before ++ seen).utf8ByteSize = 1 := by
  intro rules steps f
  have hfound : (f.module? 1 "main.cpp").map (fun m => m.places.map (fun p =>
      (p.header.shownPath, p.header.comparedPath, p.header.hit, View.headerStyle p.header)))
      = some [("a.h", "inc\u00e9\\a.h", none, .plain),
          ("Sub/b.h", "inc\u00e9\\sub\\b.h", some ⟨3, 7⟩, .plain), ("c.h", "c.h", none, .plain)] := by
    decide
  obtain ⟨m, hm, hheaders⟩ := Option.map_eq_some_iff.1 hfound
  obtain ⟨p, hp, hheader⟩ := List.mem_map.1
    (hheaders ▸ List.mem_cons_of_mem _ List.mem_cons_self)
  obtain ⟨hshown, hcompared, hhit, hstyle⟩ : _ ∧ _ ∧ _ ∧ _ := by simpa using hheader
  obtain ⟨-, -, hhits⟩ := visibleHits_performAll rules steps hm hp
  have hremoved : p.header.comparedPath.utf8ByteSize - p.header.shownPath.utf8ByteSize = 6 := by
    rw [hcompared, hshown]
    decide
  dsimp only at hhits
  rw [hremoved, hstyle] at hhits
  obtain ⟨hvisible, -, -, before, seen, behind, -, hbefore, hseen, -, -, hname⟩ :=
    (hhits ⟨3, 7⟩ hhit).2 (by decide)
  exact ⟨m, p, hm, hp, hshown, hhit, hvisible, before, seen, behind, hname, hbefore, hseen⟩

end Forest

end IncludeForest
