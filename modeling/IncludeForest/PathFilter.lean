import IncludeForest.Pattern.Language
import IncludeForest.Pattern.Match

/-!
# Path filters

A **path filter** tells the headers of the toolchain from those of the
project. It is a list of patterns, and a path is accepted when one of them
matches somewhere in it. Nothing is looked up on disk, so the filter works on
a log from any machine.

The built-in filter knows two places: the headers that come with the compiler,
below a directory that is named for its version, and those of the C runtime in
the development kit of the operating system.
-/

namespace IncludeForest

/-- **A list of patterns**, any of which accepts a path. -/
structure PathFilter where
  /-- The patterns, in the order they were given. -/
  patterns : List Pattern
  deriving DecidableEq, Repr

namespace PathFilter

/-- **Whether the filter accepts a path**: some pattern matches somewhere. -/
def accepts (filter : PathFilter) (path : List Char) : Bool :=
  filter.patterns.any (·.isMatch path)

/-- How many patterns the filter has. -/
def size (filter : PathFilter) : Nat :=
  filter.patterns.length

/-- What names several patterns at once. -/
def nameOf (texts : List String) : String :=
  " | ".intercalate texts

/-- **The filter with the given patterns**, or what is at fault: the first of
them that cannot be used by itself, or else all of them if they cannot be used
together. -/
def ofPatterns (texts : List String) (language : PatternLanguage := .standard) :
    Except String PathFilter := do
  let patterns ← texts.mapM fun text =>
    match language.read? text with
    | some p => .ok p
    | none => .error text
  if language.fit texts then return ⟨patterns⟩ else .error (nameOf texts)

/-- A list is read as what is read of each of its members, if all of them can be. -/
theorem mapM_eq_ok {α β ε : Type} {f : α → Except ε β} {g : α → Option β} {as : List α}
    (h : ∀ a ∈ as, ∃ b, f a = .ok b ∧ g a = some b) : as.mapM f = .ok (as.filterMap g) := by
  induction as with
  | nil => rfl
  | cons a as ih =>
    obtain ⟨⟨b, hf, hg⟩, htail⟩ := List.forall_mem_cons.1 h
    rw [List.mapM_cons, hf, ih htail, List.filterMap_cons_some hg]
    rfl

/-- **Patterns that can be used by themselves make a filter if they can be used
together**, and otherwise all of them are at fault. -/
theorem ofPatterns_of_isSome {language : PatternLanguage} {texts : List String}
    (h : ∀ text ∈ texts, (language.read? text).isSome = true) :
    ofPatterns texts language =
      if language.fit texts then .ok ⟨texts.filterMap language.read?⟩
      else .error (nameOf texts) := by
  unfold ofPatterns
  rw [mapM_eq_ok (g := language.read?) fun text htext => ?_]
  · rfl
  · obtain ⟨p, hp⟩ := Option.isSome_iff_exists.1 (h text htext)
    exact ⟨p, by rw [hp], hp⟩

/-- What is said of patterns that cannot be used. -/
def malformed : String :=
  "<regex error>"

/-- The patterns of the built-in filter, as they are written. -/
def builtinPatterns : List String :=
  ["\\\\VC\\\\Tools\\\\MSVC\\\\[\\.\\d]+\\\\include\\\\", "\\\\Windows Kits\\\\.+\\\\ucrt\\\\"]

/-- **The built-in filter.** -/
def builtin : PathFilter :=
  ⟨builtinPatterns.filterMap Pattern.parse?⟩

/-- The patterns of the built-in filter can all be used in the language at hand. -/
theorem isSome_of_mem_builtinPatterns {text : String} (h : text ∈ builtinPatterns) :
    (PatternLanguage.standard.read? text).isSome = true :=
  (by decide +kernel :
    ∀ text ∈ builtinPatterns, (PatternLanguage.standard.read? text).isSome = true) text h

/-- They can, also together. -/
theorem ofPatterns_builtinPatterns : ofPatterns builtinPatterns = .ok builtin := by
  have h : (ofPatterns builtinPatterns).toOption = some builtin := by decide +kernel
  cases hx : ofPatterns builtinPatterns with
  | error e =>
    rw [hx] at h
    cases h
  | ok filter =>
    rw [hx] at h
    exact congrArg Except.ok (Option.some.inj h)

end PathFilter

end IncludeForest
