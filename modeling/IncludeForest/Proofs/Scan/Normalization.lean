import IncludeForest.Proofs.Forest.Normalization
import IncludeForest.Proofs.Scan.Projection

/-!
# Logs with the same paths

On a file system that ignores case one compiler writes `C:/Src/A.h` where
another writes `c:\src\a.h`, and the trees should come out the same. That is
more than a property of comparisons. A path is compared, searched, measured and
cut, and each of these could tell the two apart.

None does, because all of it happens to normalised paths. What a forest makes of
notes is what a forest that compares paths as they are written makes of the
normalised notes, but for the paths that are shown. So notes with the same
normal form have the same effect (`Scanner.readAll_of_same_announcements`).
-/

namespace IncludeForest

open IncludeTree Log

/-- The announcement with its path normalised, if it has one. -/
def Log.Announcement.normalized (policy : PathPolicy) : Announcement → Announcement
  | .header level path => .header level (policy.normalize path)
  | announced => announced

/-- **What a line announces, as paths are compared.** -/
def Log.comparedAnnouncement? (policy : PathPolicy) (filter : Option PathFilter)
    (line : List Char) : Option (StreamId × Announcement) :=
  (announcement? filter line).map fun found => (found.1, found.2.normalized policy)

/-- **What can be seen of the hits of a module**, header by header. -/
def Module.visibleHits (m : Module) : List (Option Span) :=
  m.places.map (·.header.visibleHit?)

theorem Module.visibleHits_normalized (m : Module) (policy : PathPolicy) :
    (m.normalized policy).visibleHits = m.visibleHits := by
  have hplaces : (m.normalized policy).places = m.places.map (Place.map (·.normalized policy)) :=
    places_mapAll (·.normalized policy) m.roots
  unfold visibleHits
  rw [hplaces, List.map_map]
  refine List.map_congr_left fun p _ => ?_
  show (p.map (·.normalized policy)).header.visibleHit? = p.header.visibleHit?
  rw [Place.header_map]
  exact p.header.visibleHit?_normalized policy

namespace Scanner

/-- The scanner with its headers shown as they are compared. -/
def normalized (s : Scanner) : Scanner :=
  { s with forest := s.forest.normalized }

theorem perform_normalized (s : Scanner) (id : StreamId) (announced : Announcement) :
    s.normalized.perform id (announced.normalized s.forest.rules.policy)
      = (s.perform id announced).map normalized := by
  cases announced with
  | project name =>
    show (do
      let forest ← s.forest.normalized.startProject id name
      return { s.normalized with forest := forest, tally := s.tally.addProject }) = _
    rw [Forest.startProject_normalized]
    unfold perform
    dsimp only
    cases s.forest.startProject id name <;> rfl
  | module name =>
    show (do
      let forest ← s.forest.normalized.startModule id name
      return { s.normalized with
        forest := forest
        latest := s.latest.insert id name
        tally := s.tally.addModule }) = _
    rw [Forest.startModule_normalized]
    unfold perform
    dsimp only
    cases s.forest.startModule id name <;> rfl
  | header level path =>
    show (do
      let inserted ← s.forest.normalized.insertNote id (s.target id) level
        (s.forest.rules.policy.normalize path)
      return { s.normalized with
        forest := inserted.1
        tally := s.tally.addHeader inserted.2 }) = _
    rw [Forest.insertNote_normalized]
    unfold perform
    dsimp only
    cases s.forest.insertNote id (s.target id) level path <;> rfl
  | filtered => rfl
  | nothing => rfl

/-- **An announcement can be heard before the paths are normalised or after.** -/
theorem hear_normalized (s : Scanner) (found : Option (StreamId × Announcement)) :
    s.normalized.hear (found.map fun f => (f.1, f.2.normalized s.forest.rules.policy))
      = ((s.hear found).1.normalized, (s.hear found).2) := by
  cases found with
  | none => rfl
  | some found =>
    obtain ⟨id, announced⟩ := found
    have hperform : perform { s.normalized with tally := s.normalized.tally.addLine } id
        (announced.normalized s.forest.rules.policy)
        = (perform { s with tally := s.tally.addLine } id announced).map normalized :=
      perform_normalized { s with tally := s.tally.addLine } id announced
    unfold hear
    dsimp only [Option.map_some]
    rw [hperform]
    cases perform { s with tally := s.tally.addLine } id announced <;> rfl

theorem rules_readAll (s : Scanner) (log : List (List Char)) :
    (s.readAll log).1.forest.rules = s.forest.rules := by
  induction log generalizing s with
  | nil => rfl
  | cons line log ih => exact (ih (s.readLine line).1).trans (s.rules_readLine line)

/-- **Logs that announce the same**, as paths are compared, are answered alike
and lead to the same forest, but for the paths that are shown. -/
theorem readAll_of_same_announcements {s s' : Scanner} (hs : s.normalized = s'.normalized)
    (hpolicy : s.forest.rules.policy = s'.forest.rules.policy) {log log' : List (List Char)}
    (h : log.map (comparedAnnouncement? s.forest.rules.policy s.filter)
      = log'.map (comparedAnnouncement? s.forest.rules.policy s.filter)) :
    (s.readAll log).2 = (s'.readAll log').2 ∧
      (s.readAll log).1.normalized = (s'.readAll log').1.normalized := by
  induction log generalizing s s' log' with
  | nil =>
    rw [List.map_nil, eq_comm, List.map_eq_nil_iff] at h
    subst h
    exact ⟨rfl, hs⟩
  | cons line log ih =>
    cases log' with
    | nil => cases h
    | cons line' log' =>
      obtain ⟨hline, hlog⟩ := List.cons.inj h
      have hfilter : s.filter = s'.filter := congrArg (·.filter) hs
      -- Both lines are heard as the same announcement by the same scanner.
      have hread : ((s.readLine line).1.normalized, (s.readLine line).2)
          = ((s'.readLine line').1.normalized, (s'.readLine line').2) := by
        rw [readLine, readLine, ← hear_normalized, ← hear_normalized, ← hs,
          ← hpolicy, ← hfilter]
        exact congrArg s.normalized.hear hline
      obtain ⟨hscanner, hanswer⟩ := Prod.mk.inj hread
      have hpolicies : (s.readLine line).1.forest.rules.policy
          = (s'.readLine line').1.forest.rules.policy := by
        rw [rules_readLine, rules_readLine, hpolicy]
      rw [← s.rules_readLine line, ← s.filter_readLine line] at hlog
      have hrest := ih hscanner hpolicies hlog
      exact ⟨congrArg₂ List.cons hanswer hrest.1, hrest.2⟩

end Scanner

/-- **To ignore case is to normalise the paths beforehand.** Take any operations
and any query, and run them twice: under the policy that ignores case, and with
every path and the query normalised under the policy that does not. The answers
are the same, and so are the forests, but that the second shows every path
normalised; in particular the same hits can be seen. So two logs that announce
the same but for the case of letters and the direction of slashes are answered
alike, are counted alike, and lead to the same forest but for the paths that are
shown. -/
theorem caseInsensitive_eq_identity_normalized (simplifyPaths : Bool) (query : String) :
    let policy : PathPolicy := .caseInsensitive
    let rules : ForestRules := { simplifyPaths, policy, query }
    let plain : ForestRules :=
      { simplifyPaths, policy := .identity, query := policy.normalize query }
    (∀ steps : List Forest.Step,
      let run := (Forest.empty rules).performAll steps
      let run' := (Forest.empty plain).performAll (steps.map (·.normalized policy))
      run'.2 = run.2 ∧ run'.1.projects = run.1.projects.map (·.normalized policy) ∧
        ∀ id name, (run'.1.module? id name).map (·.visibleHits)
          = (run.1.module? id name).map (·.visibleHits)) ∧
    ∀ filter log log',
      log.map (comparedAnnouncement? policy filter)
        = log'.map (comparedAnnouncement? policy filter) →
      let s := Scanner.start (.empty rules) filter
      (s.readAll log').2 = (s.readAll log).2 ∧
        (s.readAll log').1.tally = (s.readAll log).1.tally ∧
        (s.readAll log').1.forest.projects.map (·.normalized policy)
          = (s.readAll log).1.forest.projects.map (·.normalized policy) ∧
        ∀ id name, ((s.readAll log').1.forest.module? id name).map (·.visibleHits)
          = ((s.readAll log).1.forest.module? id name).map (·.visibleHits) := by
  intro policy rules plain
  have hvisible (f : Forest) (id : StreamId) (name : String) :
      (f.normalized.module? id name).map (·.visibleHits)
        = (f.module? id name).map (·.visibleHits) := by
    rw [Forest.module?_normalized, Option.map_map]
    exact congrArg (Option.map · (f.module? id name))
      (funext fun m => m.visibleHits_normalized f.rules.policy)
  constructor
  · intro steps run run'
    have hrun : run' = (run.1.normalized, run.2) :=
      (Forest.empty rules).performAll_normalized steps
    have hrules : run.1.rules = rules := Forest.rules_performAll (.empty rules) steps
    rw [hrun]
    refine ⟨rfl, ?_, hvisible run.1⟩
    show run.1.projects.map (·.normalized run.1.rules.policy) = _
    rw [hrules]
  · intro filter log log' h s
    obtain ⟨hanswers, hscanner⟩ := Scanner.readAll_of_same_announcements
      (rfl : s.normalized = s.normalized) rfl h
    have hforest := congrArg (·.forest) hscanner.symm
    refine ⟨hanswers.symm, congrArg (·.tally) hscanner.symm, ?_, fun id name => ?_⟩
    · have hprojects := congrArg (·.projects) hforest
      unfold Scanner.normalized Forest.normalized at hprojects
      dsimp only at hprojects
      rwa [Scanner.rules_readAll, Scanner.rules_readAll] at hprojects
    · rw [← hvisible, ← hvisible (s.readAll log).1.forest]
      exact congrArg (fun f => (f.module? id name).map (·.visibleHits)) hforest

/-- Two ways to write a header that includes itself, with a search: one forest
for both logs, but for the paths that are shown. -/
theorem caseInsensitive_eq_identity_normalized_cycle :
    let s := Scanner.start (.empty { policy := .caseInsensitive, query := "SRC/a" }) none
    let announced := comparedAnnouncement? .caseInsensitive none
    let log := [
      "1> Project: demo", "1> main.cpp", "1> Note: including file: C:/Src/A.h",
      "1> Note: including file:  c:\\src\\a.H"].map String.toList
    let log' := [
      "1> Project: demo", "1> main.cpp", "1> Note: including file: c:\\SRC\\a.h",
      "1> Note: including file:  C:/src/A.h"].map String.toList
    log.map announced = log'.map announced ∧
      (s.readAll log').2 = (s.readAll log).2 ∧
      (s.readAll log').1.tally = (s.readAll log).1.tally ∧
      (s.readAll log).1.tally.cycles = 1 ∧
      ((s.readAll log').1.forest.module? 1 "main.cpp").map (·.visibleHits)
        = ((s.readAll log).1.forest.module? 1 "main.cpp").map (·.visibleHits) := by
  intro s announced log log'
  have hs : s = .start (.empty { policy := .caseInsensitive, query := "SRC/a" }) none := rfl
  have hsame : log.map announced = log'.map announced := by decide +kernel
  obtain ⟨-, hlogs⟩ := caseInsensitive_eq_identity_normalized true "SRC/a"
  obtain ⟨hanswers, htally, -, hhits⟩ := hlogs none log log' hsame
  rw [hs]
  exact ⟨hsame, hanswers, htally, by decide +kernel, hhits 1 "main.cpp"⟩

end IncludeForest
