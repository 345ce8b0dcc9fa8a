import IncludeForest.Proofs.Forest.Insertion
import IncludeForest.Proofs.Tree.Rewriting
import IncludeForest.Proofs.Tree.Shown

/-!
# The common prefix is exact

A module does not look for what its paths have in common. It keeps a text, takes
the first compared path for it, and shortens it at every path that comes. What is
kept that way is the longest prefix of all compared paths, for this is how longest
prefixes behave when a text is added (`Text.IsLongestPrefix.concat`). That the
prefix has become empty needs no special care, and neither does the depth at which
a header stands.

The prefix is about what is compared, so simplifying leaves it exact. It is about
what is shown as long as nothing has been dropped; then a module can be simplified,
and all of its headers are shortened by the prefix (`Module.isShortened_simplify`).
-/

namespace IncludeForest

open IncludeTree Text

namespace Module

variable {rules : ForestRules} {m : Module}

/-- What the headers of a module are compared as, in the order of the log. -/
def comparedPaths (m : Module) : List String :=
  m.places.map (·.header.comparedPath)

/-- **The prefix that a module keeps is exact.** -/
structure PrefixExact (rules : ForestRules) (m : Module) : Prop where
  /-- While paths are to be simplified, it is the longest that all of them have. -/
  isLongest (hon : rules.simplifyPaths = true) (hne : m.isEmpty = false) :
    IsLongestPrefix m.commonPrefix m.comparedPaths
  /-- Otherwise none is kept. -/
  eq_empty (hoff : rules.simplifyPaths = false) : m.commonPrefix = ""

/-- A module without headers keeps no prefix. -/
theorem prefixExact_empty : PrefixExact rules {} :=
  ⟨fun _ hne => Bool.noConfusion hne, fun _ => rfl⟩

theorem comparedPaths_insertNote (m : Module) (rules : ForestRules) (level : Nat) (path : String) :
    (m.insertNote rules level path).1.comparedPaths
      = m.comparedPaths ++ [rules.policy.normalize path] := by
  have hpaths := congrArg (List.map Prod.snd) (m.entries_insertNote rules level path)
  rwa [List.map_append, List.map_map, List.map_map] at hpaths

theorem commonPrefix_insertNote (m : Module) (rules : ForestRules) (level : Nat) (path : String) :
    (m.insertNote rules level path).1.commonPrefix
      = if rules.simplifyPaths then m.prefixWith (rules.policy.normalize path)
        else m.commonPrefix := rfl

/-- The places of a simplified module are those of the module, with something
dropped from the headers. -/
theorem places_simplify (m : Module) :
    m.simplify.places
      = m.places.map (Place.map (·.dropFront m.commonPrefix.utf8ByteSize)) := by
  rw [← byteLength_toList]
  exact places_mapAll _ m.roots

/-- Simplifying changes nothing of what is compared. -/
theorem comparedPaths_simplify (m : Module) : m.simplify.comparedPaths = m.comparedPaths := by
  unfold comparedPaths
  rw [places_simplify, List.map_map]
  refine List.map_congr_left fun p _ => ?_
  rw [Function.comp_apply, Place.header_map, Header.comparedPath_dropFront]

theorem isEmpty_simplify (m : Module) : m.simplify.isEmpty = m.isEmpty :=
  isEmpty_mapAll _ m.roots

namespace PrefixExact

/-- **A note keeps the prefix exact**, whatever its depth. -/
theorem insertNote (h : m.PrefixExact rules) (level : Nat) (path : String) :
    (m.insertNote rules level path).1.PrefixExact rules := by
  constructor
  · intro hon _
    rw [commonPrefix_insertNote, if_pos hon, comparedPaths_insertNote, prefixWith]
    by_cases hempty : m.isEmpty = true
    · have hnone : m.comparedPaths = [] := by
        rw [comparedPaths, places, List.isEmpty_iff.1 hempty]
        rfl
      rw [if_pos hempty, hnone]
      exact .singleton _
    · rw [if_neg hempty]
      exact (h.isLongest hon (Bool.eq_false_iff.2 hempty)).concat _
  · intro hoff
    rw [commonPrefix_insertNote, hoff]
    exact h.eq_empty hoff

/-- Simplifying keeps the prefix exact, since what is compared stays. -/
theorem simplify (h : m.PrefixExact rules) : m.simplify.PrefixExact rules := by
  constructor
  · intro hon hne
    rw [isEmpty_simplify] at hne
    rw [comparedPaths_simplify]
    exact h.isLongest hon hne
  · exact h.eq_empty

end PrefixExact

/-- **Simplifying shortens every header by the prefix**, if nothing has been dropped
yet: no header is left out. -/
theorem isShortened_simplify (hexact : m.PrefixExact rules) (hon : rules.simplifyPaths = true)
    (hshows : ∀ p ∈ m.places, p.header.ShowsBehind rules.policy "") {p : Place}
    (hp : p ∈ m.places) :
    p.header.IsShortened rules.policy m.commonPrefix
      (p.header.dropFront m.commonPrefix.utf8ByteSize) := by
  have hne : m.isEmpty = false := by
    refine Bool.eq_false_iff.2 fun hempty => ?_
    rw [places, List.isEmpty_iff.1 hempty] at hp
    exact List.not_mem_nil hp
  refine Header.isShortened_dropFront (hshows p hp) ((hexact.isLongest hon hne).begins _ ?_)
  exact List.mem_map_of_mem hp

end Module

/-- The prefix of every module is exact. -/
theorem Forest.IsReachable.prefixExact {rules : ForestRules} {f : Forest}
    (h : f.IsReachable rules) : f.AllModules (Module.PrefixExact rules) :=
  h.allModules Module.prefixExact_empty (fun _ level path hm => hm.insertNote level path)
    fun _ hm => hm.simplify

end IncludeForest
