import IncludeForest.Proofs.Log.Listing
import IncludeForest.Proofs.Pattern.Indentation

/-!
# A filter sees how deep a note is

A note carries its depth as spaces before its path, and the filter is asked about the two
together. So the same path can be filtered at one depth and kept at another: a pattern for
the start of a path finds it at depth zero only, and one for spaces finds them at any
other.

What is filtered at which depth is exact all the same: the notes where a pattern matches in
the spaces and the path (`announcement?_noteRest_eq_filtered_iff`). Where every pattern
ignores the indent, that is the same for all depths. The patterns of the built-in filter do.
-/

namespace IncludeForest

namespace PathFilter

/-- **Whether spaces before a path can be seen to make no difference to the filter.** -/
def ignoresIndent (f : PathFilter) : Bool :=
  f.patterns.all (·.ignoresIndent)

/-- **Such a filter accepts a path with spaces before it if it accepts the path**, and only
then. -/
theorem accepts_indented {f : PathFilter} (h : f.ignoresIndent = true) (n : Nat)
    (path : List Char) : f.accepts (List.replicate n ' ' ++ path) = f.accepts path := by
  rw [Bool.eq_iff_iff, accepts_iff, accepts_iff]
  exact exists_congr fun p => and_congr_right fun hp =>
    Pattern.matchesIn_indented (List.all_eq_true.1 h p hp) n path

end PathFilter

namespace Log

/-- A note is filtered where the filter accepts its spaces and its path. -/
theorem announcement?_noteRest_eq_filtered_iff {f : PathFilter} {id : StreamId} {level : Nat}
    {path : String} (h : IsNotePath path.toList) :
    announcement? (some f) (streamLine id (noteRest level path)) = some (id, .filtered) ↔
      f.accepts (List.replicate level ' ' ++ path.toList) = true := by
  rw [announcement?_noteRest (some f) id level h]
  show some (id, if f.accepts _ = true then _ else _) = _ ↔ _
  by_cases haccepts : f.accepts (List.replicate level ' ' ++ path.toList) = true
  · rw [if_pos haccepts]
    exact iff_of_true rfl haccepts
  · rw [if_neg haccepts]
    exact iff_of_false nofun haccepts

/-- **Which notes are filtered**: those where a pattern matches somewhere in the path with
the spaces of the depth before it. Where the patterns ignore the indent, a path is filtered
at every depth or at none. -/
theorem filteredNotes_exact (f : PathFilter) (id : StreamId) {path : String}
    (h : IsNotePath path.toList) :
    (∀ level, announcement? (some f) (streamLine id (noteRest level path)) = some (id, .filtered) ↔
      ∃ p ∈ f.patterns, p.MatchesIn (List.replicate level ' ' ++ path.toList)) ∧
    (f.ignoresIndent = true → ∀ n m,
      announcement? (some f) (streamLine id (noteRest n path)) = some (id, .filtered) ↔
        announcement? (some f) (streamLine id (noteRest m path)) = some (id, .filtered)) := by
  refine ⟨fun level => ?_, fun hindent n m => ?_⟩
  · rw [announcement?_noteRest_eq_filtered_iff h, PathFilter.accepts_iff]
  · rw [announcement?_noteRest_eq_filtered_iff h, announcement?_noteRest_eq_filtered_iff h,
      PathFilter.accepts_indented hindent, PathFilter.accepts_indented hindent]

/-- A header of the C runtime is filtered by the built-in filter at every depth. -/
theorem filteredNotes_exact_runtime :
    let path := "D:\\Windows Kits\\10\\ucrt\\stdio.h"
    IsNotePath path.toList ∧ PathFilter.builtin.ignoresIndent = true ∧
      ∀ level, announcement? (some .builtin) (streamLine 3 (noteRest level path))
        = some (3, .filtered) := by
  intro path
  have hpath : IsNotePath path.toList := by decide +kernel
  have hindent : PathFilter.builtin.ignoresIndent = true := by decide +kernel
  have htop : announcement? (some .builtin) (streamLine 3 (noteRest 0 path))
      = some (3, .filtered) := by decide +kernel
  obtain ⟨-, halike⟩ := filteredNotes_exact .builtin 3 hpath
  exact ⟨hpath, hindent, fun level => (halike hindent level 0).2 htop⟩

/-- A pattern for the start of a path finds it where no space stands before it, and so a
header is filtered or kept by how deep it is included. -/
theorem exists_path_filtered_by_depth :
    let path := "/usr/include/stdio.h"
    IsNotePath path.toList ∧ ∃ f, PathFilter.ofPatterns ["^/usr/"] = .ok f ∧
      announcement? (some f) (streamLine 1 (noteRest 0 path)) = some (1, .filtered) ∧
      announcement? (some f) (streamLine 1 (noteRest 1 path)) = some (1, .header 1 path) := by
  refine ⟨by decide +kernel, ⟨["^/usr/"].filterMap PatternLanguage.standard.read?⟩, ?_,
    by decide +kernel, by decide +kernel⟩
  rw [PathFilter.ofPatterns_of_isSome (by decide +kernel), if_pos (by decide +kernel)]

end Log

end IncludeForest
