import IncludeForest.Proofs.Pattern.Rows

/-!
# The built-in filter knows two places

The patterns of the built-in filter have one form: an opening, a run of characters of
some kind, and a closing. What such a pattern matches is what it says
(`Pattern.matchesIn_enclosed`), wherever the run ends – the closing may stand in the run
again, and then the path is accepted on account of any of them.

So the filter accepts the paths that lead through one of two places, and a path that does
so still does when something is put before it or behind it.
-/

namespace IncludeForest

open Text

/-- **Whether a text holds an opening and a closing**, with one or more characters of
some kind between them and nothing else. -/
def HoldsBetween (opening closing : String) (part : Char → Prop) (text : List Char) : Prop :=
  ∃ before run behind,
    text = before ++ (opening.toList ++ (run ++ (closing.toList ++ behind))) ∧
      run ≠ [] ∧ ∀ c ∈ run, part c

/-- What a text holds it holds with something before it and behind it. -/
theorem HoldsBetween.append {opening closing : String} {part : Char → Prop} {text : List Char}
    (h : HoldsBetween opening closing part text) (front back : List Char) :
    HoldsBetween opening closing part (front ++ (text ++ back)) := by
  obtain ⟨before, run, behind, rfl, hrun⟩ := h
  exact ⟨front ++ before, run, behind ++ back, by simp only [List.append_assoc], hrun⟩

namespace Pattern

/-- The pattern of an opening, a run of characters of a set, and a closing. -/
def enclosed (opening : String) (set : CharSet) (closing : String) : Pattern :=
  sequence (literal opening ++ times (char set) 1 none :: literal closing)

/-- **Such a pattern matches in the texts that hold what it says.** -/
theorem matchesIn_enclosed {opening closing : String} {set : CharSet} {text : List Char} :
    (enclosed opening set closing).MatchesIn text ↔
      HoldsBetween opening closing (fun c => set.contains c = true) text := by
  constructor
  · rintro ⟨before, word, behind, rfl, h⟩
    obtain ⟨first, rest, rfl, hfirst, hrest⟩ := matches_sequence_append.1 h
    obtain ⟨run, last, rfl, hrun, hlast⟩ := matches_sequence_cons.1 hrest
    rw [matches_literal.1 hfirst, matches_literal.1 hlast]
    exact ⟨before, run, behind, by simp only [List.append_assoc], matches_run.1 hrun⟩
  · rintro ⟨before, run, behind, rfl, hrun⟩
    refine ⟨before, opening.toList ++ (run ++ closing.toList), behind,
      by simp only [List.append_assoc], ?_⟩
    exact matches_sequence_append.2 ⟨_, _, rfl, matches_literal.2 rfl,
      matches_sequence_cons.2 ⟨_, _, rfl, matches_run.2 hrun, matches_literal.2 rfl⟩⟩

end Pattern

namespace PathFilter

open Pattern

/-- What a version is written with. -/
def versionSet : CharSet :=
  .union (.union .nothing (.single '.')) .digit

theorem contains_versionSet {c : Char} :
    versionSet.contains c = true ↔ c = '.' ∨ isDecimalDigit c = true := by
  show (false || (CharSet.single '.').contains c || isDecimalDigit c) = true ↔ _
  rw [Bool.false_or, Bool.or_eq_true, contains_single]

theorem contains_dot {c : Char} : (Flags.dot {}).contains c = true ↔ c ≠ '\n' := by
  show (!(CharSet.single '\n').contains c) = true ↔ _
  rw [Bool.not_eq_true', ← Bool.not_eq_true, contains_single]

/-- **The patterns of the built-in filter**, as they are read. -/
theorem patterns_builtin :
    builtin.patterns = [enclosed "\\VC\\Tools\\MSVC\\" versionSet "\\include\\",
      enclosed "\\Windows Kits\\" (Flags.dot {}) "\\ucrt\\"] := by
  decide +kernel

/-- **The built-in filter accepts the paths that lead through one of two places**: that of
a compiler's headers, below a version of full stops and decimal digits of any script, and
that of the C runtime, below something in the development kit that stays on its line. It
can be built from its patterns as they are written, and what it accepts it accepts with
anything put before it and behind it. -/
theorem accepts_builtin :
    ofPatterns builtinPatterns = .ok builtin ∧
    (∀ path, builtin.accepts path = true ↔
      HoldsBetween "\\VC\\Tools\\MSVC\\" "\\include\\" (fun c => c = '.' ∨ isDecimalDigit c = true)
          path ∨
        HoldsBetween "\\Windows Kits\\" "\\ucrt\\" (· ≠ '\n') path) ∧
    ∀ path front back, builtin.accepts path = true →
      builtin.accepts (front ++ (path ++ back)) = true := by
  have hplaces (path : List Char) : builtin.accepts path = true ↔
      HoldsBetween "\\VC\\Tools\\MSVC\\" "\\include\\" (fun c => c = '.' ∨ isDecimalDigit c = true)
          path ∨
        HoldsBetween "\\Windows Kits\\" "\\ucrt\\" (· ≠ '\n') path := by
    rw [accepts_iff, patterns_builtin, List.exists_mem_cons_iff, List.exists_mem_cons_iff]
    simp only [List.not_mem_nil, false_and, exists_false, or_false, matchesIn_enclosed,
      contains_versionSet, contains_dot]
  refine ⟨ofPatterns_builtinPatterns, hplaces, fun path front back h => ?_⟩
  rw [hplaces] at h ⊢
  exact h.imp (·.append front back) (·.append front back)

/-- A path with the closing twice, and with digits of two scripts in the version: it is
accepted, also with something before it and behind it. -/
theorem accepts_builtin_twice :
    let path := "\\VC\\Tools\\MSVC\\14.\u0663\\include\\sub\\include\\x.h".toList
    builtin.accepts path = true ∧
      builtin.accepts ("D:".toList ++ (path ++ "pp".toList)) = true := by
  intro path
  obtain ⟨-, hplaces, hclosed⟩ := accepts_builtin
  have h : builtin.accepts path = true := by
    have hrun : ("14.\u0663".toList.all fun c => c == '.' || isDecimalDigit c) = true := by decide
    refine (hplaces path).2 (.inl ⟨[], "14.\u0663".toList, "sub\\include\\x.h".toList, rfl,
      by decide, fun c hc => ?_⟩)
    have hpart := List.all_eq_true.1 hrun c hc
    rwa [Bool.or_eq_true, beq_iff_eq] at hpart
  exact ⟨h, hclosed path _ _ h⟩

end PathFilter

end IncludeForest
