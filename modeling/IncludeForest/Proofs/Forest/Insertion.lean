import IncludeForest.Proofs.Forest.Levels

/-!
# The header that a note inserts

Whatever is claimed of an insertion is claimed of one header: the one that the
note brings. `Module.noteHeader` is this header, and the other statements say
that it is the last of the module in the order of the log, includes nothing, and
is what the outcome of the insertion tells about.
-/

namespace IncludeForest

open IncludeTree

namespace Module

variable (m : Module) (rules : ForestRules) (level : Nat) (path : String)

/-- **The header that a note inserts.** -/
def noteHeader : Header :=
  { Header.ofNote path (rules.policy.normalize path) rules.needle with
    closesCycle := IncludeTree.closesCycle (rules.policy.normalize path) level m.roots }

/-- The header has the hit that the search finds. -/
theorem hit_noteHeader :
    (m.noteHeader rules level path).hit
      = Header.hitIn? rules.needle.toList (m.noteHeader rules level path).comparedPath.toList := by
  unfold noteHeader Header.ofNote
  dsimp only

theorem roots_insertNote :
    (m.insertNote rules level path).1.roots
      = IncludeTree.insertNote (m.noteHeader rules level path) level m.roots := rfl

theorem hasCycle_insertNote :
    (m.insertNote rules level path).1.hasCycle
      = (m.hasCycle || (m.noteHeader rules level path).closesCycle) := rfl

/-- What came of the insertion is what its header says of itself. -/
theorem outcome_insertNote :
    (m.insertNote rules level path).2
      = ⟨(m.noteHeader rules level path).closesCycle,
          (m.noteHeader rules level path).isMatched⟩ := rfl

/-- **A note appends its header**, and the header includes nothing. -/
theorem exists_place_insertNote :
    ∃ p, (m.insertNote rules level path).1.places.getLast? = some p ∧
      p.tree = .leaf (m.noteHeader rules level path) ∧
      (m.insertNote rules level path).1.places.map Place.entry
        = m.places.map Place.entry ++ [p.entry] := by
  obtain ⟨p, -, hlast, hentries⟩ := m.exists_entry_insertNote rules level path
  refine ⟨p, hlast, ?_, hentries⟩
  have htree := getLast?_places_insertNote (m.noteHeader rules level path) level m.roots
  rw [← roots_insertNote] at htree
  unfold places at hlast
  rw [hlast, Option.map_some] at htree
  exact Option.some.inj htree

end Module

/-- A note of which something came was accepted. -/
theorem Forest.exists_of_outcome_insertNote {f : Forest} {id : StreamId} {name : String}
    {level : Nat} {path : String} {outcome : Insertion}
    (h : (f.insertNote id name level path).toOption.map (·.2) = some outcome) :
    ∃ f', f.insertNote id name level path = .ok (f', outcome) := by
  cases hinsert : f.insertNote id name level path with
  | error e =>
    rw [hinsert] at h
    cases h
  | ok inserted =>
    rw [hinsert] at h
    exact ⟨inserted.1, congrArg Except.ok (Prod.ext rfl (Option.some.inj h))⟩

/-- **An accepted note appends one header to its module**, and its outcome is
what is stored in that header. -/
theorem Forest.exists_place_of_insertNote {f f' : Forest} {id : StreamId} {name : String}
    {level : Nat} {path : String} {outcome : Insertion}
    (h : f.insertNote id name level path = .ok (f', outcome)) :
    ∃ m m' p, f.module? id name = some m ∧ f'.module? id name = some m' ∧
      m'.places.map Place.entry = m.places.map Place.entry ++ [p.entry] ∧
      m'.places.getLast? = some p ∧ p.tree.children = [] ∧
      p.header.comparedPath = f.rules.policy.normalize path ∧
      outcome = ⟨p.header.closesCycle, p.header.isMatched⟩ := by
  obtain ⟨m, hm, rfl, hfound⟩ := module?_of_insertNote h
  obtain ⟨p, hlast, htree, hentries⟩ := m.exists_place_insertNote f.rules level path
  have hheader : p.header = m.noteHeader f.rules level path := by
    rw [Place.header, htree, IncludeTree.leaf, header_node]
  refine ⟨m, _, p, hm, by rw [hfound, if_pos ⟨rfl, rfl⟩], hentries, hlast, ?_, ?_, ?_⟩
  · rw [htree, IncludeTree.leaf, children_node]
  · rw [hheader]
    rfl
  · rw [hheader]
    exact m.outcome_insertNote f.rules level path

end IncludeForest
