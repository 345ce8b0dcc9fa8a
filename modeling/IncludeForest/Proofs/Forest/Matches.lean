import IncludeForest.Proofs.Forest.Cycles
import IncludeForest.Proofs.Text.Occurrence

/-!
# Matches are tagged exactly

The search looks at a header once, when it is inserted, and what it found is
kept with the header. From then on a module can be asked for matches without
another search, and it answers from its roots alone.

`Module.MatchesExact` says that these answers are right. Every header has the
hit that the search finds in its compared path, which no later note and no
simplifying changes; and every header knows of the matches below it, as it
knows of the cycles. So the roots know of all matches
(`Module.MatchesExact.hasMatch`). What a hit is, in bytes, is the matter of
`Header.hitIn?_eq_some_iff`.
-/

namespace IncludeForest

open IncludeTree

namespace Module

variable {rules : ForestRules} {m : Module}

/-- Whether a header has the hit that the search finds in its compared path. -/
def IsSearched (rules : ForestRules) (h : Header) : Prop :=
  h.hit = Header.hitIn? rules.needle.toList h.comparedPath.toList

/-- **What a module knows of its matches is exact.** -/
structure MatchesExact (rules : ForestRules) (m : Module) : Prop where
  /-- A header has the hit that the search finds. -/
  searched : ∀ p ∈ m.places, IsSearched rules p.header
  /-- A header contains a match if one below it is matched. -/
  contains : TracksAll (·.isMatched) (·.containsMatch) m.roots

/-- A module without headers has no match and knows of none. -/
theorem matchesExact_empty : MatchesExact rules {} :=
  ⟨fun _ hp => absurd hp List.not_mem_nil, trivial⟩

namespace MatchesExact

/-- **A note keeps the tags exact**, whatever its depth. -/
theorem insertNote (h : m.MatchesExact rules) (level : Nat) (path : String) :
    (m.insertNote rules level path).1.MatchesExact rules := by
  constructor
  · unfold places
    rw [roots_insertNote]
    exact forall_seen_insertNote (IsSearched rules) (·.2) (fun _ => rfl) h.searched
      (m.hit_noteHeader rules level path)
  · rw [roots_insertNote]
    exact tracksAll_insertNote (fun _ => rfl) (fun _ => rfl) rfl level m.roots h.contains

/-- Simplifying keeps the tags exact, since it is the compared path that is
searched. -/
theorem simplify (h : m.MatchesExact rules) : m.simplify.MatchesExact rules := by
  have hsearched (count : Nat) (g : Header) :
      IsSearched rules (g.dropFront count) = IsSearched rules g := by
    rw [IsSearched, Header.hit_dropFront, Header.comparedPath_dropFront, IsSearched]
  constructor
  · exact forall_seen_mapAll (IsSearched rules) (·.2) (hsearched _) h.searched
  · exact tracksAll_mapAll (·.isMatched_dropFront _) (·.containsMatch_dropFront _) m.roots h.contains

/-- What a header says of matches below it, at its place. -/
theorem containsMatch (h : m.MatchesExact rules) {p : Place} (hp : p ∈ m.places) :
    p.header.containsMatch = anyHeader (·.isMatched) p.tree.children :=
  (tracksAll_iff [] m.roots).1 h.contains p hp

/-- **The roots know of all matches.** -/
theorem hasMatch (h : m.MatchesExact rules) : m.hasMatch = anyHeader (·.isMatched) m.roots :=
  any_root_eq_anyHeader m.roots h.contains

/-- Without a needle there is no hit. -/
theorem hit_eq_none (h : m.MatchesExact rules) (hneedle : rules.needle = "") {p : Place}
    (hp : p ∈ m.places) : p.header.hit = none := by
  rw [h.searched p hp, hneedle]
  rfl

end MatchesExact

end Module

namespace Forest

/-- What every module knows of its matches is exact. -/
theorem IsReachable.matchesExact {rules : ForestRules} {f : Forest} (h : f.IsReachable rules) :
    f.AllModules (Module.MatchesExact rules) :=
  h.allModules Module.matchesExact_empty (fun _ level path hm => hm.insertNote level path)
    fun _ hm => hm.simplify

/-- **Matches are tagged exactly.** After every run, a header is matched if and
only if the needle is not empty and occurs in its compared path; it has a hit
then and only then, and the hit is the first occurrence, by bytes. It contains a
match if and only if some header below it is matched, and a module or a project
has one if and only if some header anywhere in it is matched. An empty needle
leaves no trace. What comes of the next note says of matches what its header,
the last one then, says. -/
theorem matches_performAll (rules : ForestRules) (steps : List Step) :
    let f := ((empty rules).performAll steps).1
    let needle := rules.policy.normalize rules.query
    (∀ id name m, f.module? id name = some m →
      (∀ p ∈ m.places,
        (p.header.isMatched = true ↔
          needle ≠ "" ∧ needle.toList <:+: p.header.comparedPath.toList) ∧
        p.header.hit.isSome = p.header.isMatched ∧
        (∀ span, p.header.hit = some span → span.IsFirst needle p.header.comparedPath) ∧
        (p.header.containsMatch = true ↔
          ∃ q ∈ places p.tree.children, q.header.isMatched = true)) ∧
      (m.hasMatch = true ↔ ∃ p ∈ m.places, p.header.isMatched = true)) ∧
    (∀ id project, f.projects.get? id = some project →
      (project.hasMatch = true ↔
        ∃ name m, f.module? id name = some m ∧ ∃ p ∈ m.places, p.header.isMatched = true)) ∧
    (needle = "" →
      (∀ id name m, f.module? id name = some m →
        m.hasMatch = false ∧
          ∀ p ∈ m.places, p.header.hit = none ∧ p.header.containsMatch = false) ∧
      ∀ id project, f.projects.get? id = some project → project.hasMatch = false) ∧
    ∀ id name level path f' outcome,
      f.insertNote id name level path = .ok (f', outcome) →
      ∃ m m' p, f.module? id name = some m ∧ f'.module? id name = some m' ∧
        m'.places.map Place.entry = m.places.map Place.entry ++ [p.entry] ∧
        m'.places.getLast? = some p ∧ p.tree.children = [] ∧
        p.header.comparedPath = rules.policy.normalize path ∧
        p.header.isMatched = outcome.isMatched := by
  intro f needle
  have hf : f.IsReachable rules := isReachable_performAll rules steps
  have hmodule {id : StreamId} {name : String} {m : Module} (hm : f.module? id name = some m) :
      m.hasMatch = true ↔ ∃ p ∈ m.places, p.header.isMatched = true := by
    rw [(hf.matchesExact id name m hm).hasMatch]
    exact anyHeader_eq_true_iff
  have hproject {id : StreamId} {project : Project} (h : f.projects.get? id = some project) :
      project.hasMatch = true ↔
        ∃ name m, f.module? id name = some m ∧ ∃ p ∈ m.places, p.header.isMatched = true := by
    refine (any_modules_eq_true_iff h (·.hasMatch)).trans ?_
    exact exists₂_congr fun name m => and_congr_right hmodule
  refine ⟨fun id name m hm => ⟨fun p hp => ⟨?_, rfl, ?_, ?_⟩, hmodule hm⟩,
    fun id project h => hproject h, fun hneedle => ?_, ?_⟩
  · show p.header.hit.isSome = true ↔ _
    rw [(hf.matchesExact id name m hm).searched p hp]
    exact Header.isSome_hitIn?_iff
  · rw [(hf.matchesExact id name m hm).searched p hp]
    exact fun span hspan => (Header.hitIn?_eq_some_iff.1 hspan).2
  · rw [(hf.matchesExact id name m hm).containsMatch hp]
    exact anyHeader_eq_true_iff
  · have hclean {id : StreamId} {name : String} {m : Module} (hm : f.module? id name = some m) :
        ¬∃ p ∈ m.places, p.header.isMatched = true := by
      rintro ⟨p, hp, hmatched⟩
      rw [Header.isMatched, (hf.matchesExact id name m hm).hit_eq_none hneedle hp] at hmatched
      cases hmatched
    refine ⟨fun id name m hm => ⟨?_, fun p hp => ⟨?_, ?_⟩⟩, fun id project h => ?_⟩
    · exact Bool.eq_false_iff.2 fun hmatch => hclean hm ((hmodule hm).1 hmatch)
    · exact (hf.matchesExact id name m hm).hit_eq_none hneedle hp
    · refine Bool.eq_false_iff.2 fun hbelow => hclean hm ?_
      rw [(hf.matchesExact id name m hm).containsMatch hp] at hbelow
      exact anyHeader_eq_true_iff.1 (anyHeader_of_children hp hbelow)
    · refine Bool.eq_false_iff.2 fun hmatch => ?_
      obtain ⟨name, m, hm, hmatched⟩ := (hproject h).1 hmatch
      exact hclean hm hmatched
  · intro id name level path f' outcome hinsert
    obtain ⟨m, m', p, hm, hm', hentries, hlast, hleaf, hpath, rfl⟩ :=
      exists_place_of_insertNote hinsert
    rw [hf.rules_eq] at hpath
    exact ⟨m, m', p, hm, hm', hentries, hlast, hleaf, hpath, rfl⟩

/-- A path is searched as it is compared, and the bytes of a hit are counted:
the accented letter takes two. The next note has no hit. -/
theorem matches_performAll_accented :
    let rules : ForestRules := { policy := .caseInsensitive, query := "/B.h" }
    let steps : List Step :=
      [.project 1 "demo", .module 1 "main.cpp", .note 1 "main.cpp" 0 "a.h",
        .note 1 "main.cpp" 1 "Inc\u00e9/b.H", .purge, .simplify]
    let f := ((empty rules).performAll steps).1
    (∃ m project, f.module? 1 "main.cpp" = some m ∧ f.projects.get? 1 = some project ∧
      m.hasMatch = true ∧ project.hasMatch = true ∧
      ∃ p ∈ m.places, p.header.isMatched = true ∧
        (⟨5, 9⟩ : Span).IsFirst "\\b.h" p.header.comparedPath) ∧
    ∃ f' m' p, f.insertNote 1 "main.cpp" 0 "a.h" = .ok (f', ⟨false, false⟩) ∧
      f'.module? 1 "main.cpp" = some m' ∧ m'.places.getLast? = some p ∧
      p.header.isMatched = false := by
  intro rules steps f
  obtain ⟨hmodules, hprojects, -, hnotes⟩ := matches_performAll rules steps
  have hhits : (f.module? 1 "main.cpp").map (fun m => m.places.filterMap (·.header.hit))
      = some [⟨5, 9⟩] := by decide
  obtain ⟨m, hm, hhits⟩ := Option.map_eq_some_iff.1 hhits
  have hhas : (f.projects.get? 1).map (·.hasMatch) = some true := by decide
  obtain ⟨project, hproject, -⟩ := Option.map_eq_some_iff.1 hhas
  obtain ⟨p, hp, hhit⟩ := List.mem_filterMap.1 (hhits ▸ List.mem_singleton_self (⟨5, 9⟩ : Span))
  obtain ⟨hplaces, hmodule⟩ := hmodules 1 "main.cpp" m hm
  obtain ⟨-, hsome, hspan, -⟩ := hplaces p hp
  have hmatched : p.header.isMatched = true := by
    rw [← hsome, hhit]
    rfl
  refine ⟨⟨m, project, hm, hproject, hmodule.2 ⟨p, hp, hmatched⟩, ?_, p, hp, hmatched, ?_⟩, ?_⟩
  · exact (hprojects 1 project hproject).2 ⟨"main.cpp", m, hm, p, hp, hmatched⟩
  · have hneedle : rules.policy.normalize rules.query = "\\b.h" := by decide
    exact hneedle ▸ hspan ⟨5, 9⟩ hhit
  · have houtcome : (f.insertNote 1 "main.cpp" 0 "a.h").toOption.map (·.2)
        = some ⟨false, false⟩ := by decide
    obtain ⟨f', hinsert⟩ := exists_of_outcome_insertNote houtcome
    obtain ⟨-, m', q, -, hm', -, hlast, -, -, hq⟩ := hnotes 1 "main.cpp" 0 "a.h" f' _ hinsert
    exact ⟨f', m', q, hinsert, hm', hlast, hq⟩

end Forest

end IncludeForest
