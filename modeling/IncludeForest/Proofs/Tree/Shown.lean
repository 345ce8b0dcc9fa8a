import IncludeForest.Proofs.Text.Cut
import IncludeForest.Tree.Header

/-!
# What is shown of a path

A header is compared by its whole path and shown by a rest of it. The two are
different texts: one is normalised and the other is not, and what has been dropped
of the one is still in the other. `Header.ShowsBehind` keeps them together. It
names the front that is compared and not shown, and what follows the front is what
is shown, normalised. Every cut makes this front longer and leaves the rest of the
path behind it (`Header.exists_append_dropFront`).

A cut behind a common prefix is never refused: as a front of what is compared, the
prefix is as long as a front of what is shown (`Header.isShortened_dropFront`).
-/

namespace IncludeForest

open Text

/-- A front of what a path is compared as is what a front of the path is compared
as. -/
theorem PathPolicy.exists_append_of_prefix {policy : PathPolicy} {pre path : String}
    (h : pre.toList <+: (policy.normalize path).toList) :
    ∃ front back, path = front ++ back ∧ policy.normalize front = pre := by
  obtain ⟨rest, hrest⟩ := h
  rw [toList_normalize] at hrest
  obtain ⟨front, back, hpath, hfront, -⟩ := List.map_eq_append_iff.1 hrest.symm
  refine ⟨String.ofList front, String.ofList back, String.toList_injective ?_,
    String.toList_injective ?_⟩
  · rw [String.toList_append, String.toList_ofList, String.toList_ofList, hpath]
  · rw [toList_normalize, String.toList_ofList, hfront]

namespace Header

variable {policy : PathPolicy} {h : Header}

/-! ## Cuts -/

/-- **A path loses the front that is as long as what is dropped.** -/
theorem dropFront_of_append {front back : String} (hshown : h.shownPath = front ++ back) :
    h.dropFront front.utf8ByteSize = { h with shownPath := back } := by
  have hshort : min front.utf8ByteSize (byteLength h.shownPath.toList) = front.utf8ByteSize := by
    rw [byteLength_toList, hshown, String.utf8ByteSize_append]
    exact Nat.min_eq_left (Nat.le_add_right _ _)
  have hsplit : splitAtByte? front.utf8ByteSize h.shownPath.toList
      = some (front.toList, back.toList) := by
    rw [hshown, String.toList_append, ← byteLength_toList]
    exact splitAtByte?_append front.toList back.toList
  unfold dropFront
  dsimp only
  rw [hshort, hsplit]
  dsimp only
  rw [String.ofList_toList]

/-- **Whatever is dropped, a rest of the path is shown.** -/
theorem exists_append_dropFront (h : Header) (count : Nat) :
    ∃ front, h.shownPath = front ++ (h.dropFront count).shownPath := by
  unfold dropFront
  dsimp only
  split
  · next front rest hsplit =>
    refine ⟨String.ofList front, String.toList_injective ?_⟩
    rw [String.toList_append, String.toList_ofList, String.toList_ofList]
    exact (splitAtByte?_eq_some hsplit).1
  · exact ⟨"", (String.empty_append).symm⟩

/-! ## The front that is not shown -/

/-- **Whether a header is shown without a front** that it is compared with. -/
def ShowsBehind (policy : PathPolicy) (front : String) (h : Header) : Prop :=
  h.comparedPath = front ++ policy.normalize h.shownPath

/-- What is dropped from what is shown is added to the front. -/
theorem ShowsBehind.dropFront {front : String} (hshows : h.ShowsBehind policy front)
    (count : Nat) : ∃ front', (h.dropFront count).ShowsBehind policy front' := by
  obtain ⟨dropped, hdropped⟩ := h.exists_append_dropFront count
  refine ⟨front ++ policy.normalize dropped, ?_⟩
  rw [ShowsBehind, comparedPath_dropFront, hshows, hdropped, PathPolicy.normalize_append,
    String.append_assoc]

/-- **The front is what is compared beyond what is shown**, by their lengths. -/
theorem ShowsBehind.utf8ByteSize_eq {front : String} (hshows : h.ShowsBehind policy front) :
    front.utf8ByteSize = h.comparedPath.utf8ByteSize - h.shownPath.utf8ByteSize := by
  rw [hshows, String.utf8ByteSize_append, PathPolicy.utf8ByteSize_normalize, Nat.add_sub_cancel]

/-- Of two paths compared alike, the same rest is shown if they lack the same
front. -/
theorem ShowsBehind.normalize_eq {front : String} {g : Header}
    (hg : g.ShowsBehind policy front) (hh : h.ShowsBehind policy front)
    (hsame : g.comparedPath = h.comparedPath) :
    policy.normalize g.shownPath = policy.normalize h.shownPath := by
  rw [hg, hh] at hsame
  exact (String.append_right_inj front).1 hsame

/-- **A header before and after it has been shortened** by a prefix. -/
structure IsShortened (policy : PathPolicy) (pre : String) (before after : Header) : Prop where
  /-- Nothing but what is shown has changed. -/
  same : after = { before with shownPath := after.shownPath }
  /-- What is shown has lost as many bytes as the prefix has. -/
  cut : ∃ front, before.shownPath = front ++ after.shownPath ∧
    front.utf8ByteSize = pre.utf8ByteSize
  /-- As paths are compared, it has lost the prefix. -/
  normalize : policy.normalize before.shownPath = pre ++ policy.normalize after.shownPath

/-- A header that stays as it is has lost the empty prefix. -/
theorem IsShortened.refl (policy : PathPolicy) (h : Header) : h.IsShortened policy "" h :=
  ⟨rfl, ⟨"", String.empty_append.symm, rfl⟩, String.empty_append.symm⟩

/-- **A prefix of what is compared can be dropped from what is shown**, if nothing
has been dropped yet. -/
theorem isShortened_dropFront {pre : String} (hshows : h.ShowsBehind policy "")
    (hpre : pre.toList <+: h.comparedPath.toList) :
    h.IsShortened policy pre (h.dropFront pre.utf8ByteSize) := by
  rw [hshows, String.empty_append] at hpre
  obtain ⟨front, back, hshown, hfront⟩ := PathPolicy.exists_append_of_prefix hpre
  have hsize : pre.utf8ByteSize = front.utf8ByteSize := by
    rw [← hfront, PathPolicy.utf8ByteSize_normalize]
  rw [hsize, dropFront_of_append hshown]
  refine ⟨rfl, ⟨front, hshown, hsize.symm⟩, ?_⟩
  rw [hshown, PathPolicy.normalize_append, hfront]

/-- What was dropped is the front that is not shown. -/
theorem IsShortened.showsBehind {pre : String} {after : Header}
    (hshort : h.IsShortened policy pre after) (hshows : h.ShowsBehind policy "") :
    after.ShowsBehind policy pre := by
  have hcompared : after.comparedPath = h.comparedPath := by rw [hshort.same]
  rw [ShowsBehind, hcompared, hshows, String.empty_append, hshort.normalize]

end Header

end IncludeForest
