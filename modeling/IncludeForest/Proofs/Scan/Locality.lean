import IncludeForest.Proofs.Forest.Run
import IncludeForest.Proofs.Log.Streams
import IncludeForest.Scan.Basic

/-!
# What a line reads and writes

A scanner works on all streams at once, but a line concerns one of them at
most. Of all that the scanner keeps, it reads the project of its stream and
the module that the stream started last, and it writes nothing else, the
counters apart, to which it only adds.

`StreamState` is that part of a scanner. `StreamState.react` says what a line
does to it: what is to be written – a `Change` – and whether the line was
refused, in which case only a line is counted. `Scanner.readLine_eq` is the
place where the scanner's own definitions are opened; it says that reading a
line is to look at the state of its stream, to react, and to write the change.
The other statements are about `apply`, which writes a change: what it does to
the state of its own stream and of others, and that changes to different streams
can be written in either order.

A line that belongs to no stream has no state to look at, and is treated as
one of a stream of its own that stays empty. So the source of a line is an
`Option StreamId`.
-/

namespace IncludeForest

namespace Tally

/-- The counters added up. -/
instance : Add Tally where
  add t u :=
    { lines := t.lines + u.lines
      withoutStream := t.withoutStream + u.withoutStream
      idle := t.idle + u.idle
      filtered := t.filtered + u.filtered
      projects := t.projects + u.projects
      modules := t.modules + u.modules
      headers := t.headers + u.headers
      cycles := t.cycles + u.cycles
      matched := t.matched + u.matched
      purgedModules := t.purgedModules + u.purgedModules
      purgedProjects := t.purgedProjects + u.purgedProjects }

/-- The order in which counters are added does not matter. -/
theorem add_right_comm (t u v : Tally) : t + u + v = t + v + u := by
  show Tally.mk .. = Tally.mk ..
  congr 1 <;> exact Nat.add_right_comm ..

/-- Counters added one after another are counters added together. -/
theorem add_assoc (t u v : Tally) : t + u + v = t + (u + v) := by
  show Tally.mk .. = Tally.mk ..
  congr 1 <;> exact Nat.add_assoc ..

end Tally

/-- **What a scanner keeps for one stream.** -/
structure StreamState where
  /-- The project of the stream. -/
  project : Option Project := none
  /-- The module that the stream started last. -/
  latest : Option String := none

/-- **What is to be written for one stream**, and what is to be counted. -/
structure Change where
  /-- The project, if it changes. -/
  project : Option Project := none
  /-- The module started last, if it changes. -/
  latest : Option String := none
  /-- What is added to the counters. -/
  counted : Tally := {}

namespace StreamState

/-- The module of the stream's project, if there is one. -/
def module? (st : StreamState) (name : String) : Option Module :=
  st.project.bind (·.modules.get? name)

/-- The state when a change has been written. -/
def after (st : StreamState) (c : Change) : StreamState :=
  { project := c.project.or st.project, latest := c.latest.or st.latest }

/-- **What an announcement changes** in the state of its stream, unless it is
refused. -/
def change? (rules : ForestRules) (id : StreamId) (st : StreamState) :
    Log.Announcement → Except ForestError Change
  | .project name =>
    match st.project with
    | some _ => .error (.duplicateProject id name)
    | none => .ok { project := some { name }, counted := { projects := 1 } }
  | .module name =>
    match st.project with
    | none => .error (.unknownProject id)
    | some p =>
      match p.modules.get? name with
      | some _ => .error (.duplicateModule id name)
      | none => .ok
        { project := some { p with modules := p.modules.insert name {} }
          latest := some name
          counted := { modules := 1 } }
  | .header level path =>
    match st.project with
    | none => .error (.unknownProject id)
    | some p =>
      let name := st.latest.getD ""
      match p.modules.get? name with
      | none => .error (.unknownModule id name)
      | some m =>
        let (m, outcome) := m.insertNote rules level path
        .ok
          { project := some { p with modules := p.modules.insert name m }
            counted :=
              { headers := 1
                cycles := outcome.closesCycle.toNat
                matched := outcome.isMatched.toNat } }
  | .filtered => .ok { counted := { filtered := 1 } }
  | .nothing => .ok { counted := { idle := 1 } }

/-- **What a line changes** in the state of its stream, and why it was
refused, if it was. -/
def react (rules : ForestRules) (filter : Option PathFilter) (st : StreamState)
    (line : List Char) : Change × Option ForestError :=
  match Log.announcement? filter line with
  | none => ({ counted := { lines := 1, withoutStream := 1 } }, none)
  | some (id, announced) =>
    match st.change? rules id announced with
    | .ok c => ({ c with counted := { lines := 1 } + c.counted }, none)
    | .error e => ({ counted := { lines := 1 } }, some e)

/-! ## What is accepted and what is refused -/

section

variable {rules : ForestRules} {id : StreamId} {st : StreamState} {name path : String}
  {level : Nat} {c : Change} {cause : ForestError}

theorem change?_project_eq_ok (h : st.change? rules id (.project name) = .ok c) :
    st.project = none ∧ st.after c = { st with project := some { name } } := by
  unfold change? at h
  cases hp : st.project with
  | some p => rw [hp] at h; cases h
  | none =>
    rw [hp] at h
    cases h
    exact ⟨rfl, rfl⟩

theorem change?_module_eq_ok (h : st.change? rules id (.module name) = .ok c) :
    ∃ p, st.project = some p ∧ p.modules.get? name = none ∧
      st.after c =
        { project := some { p with modules := p.modules.insert name {} }
          latest := some name } := by
  unfold change? at h
  cases hp : st.project with
  | none => rw [hp] at h; cases h
  | some p =>
    cases hm : p.modules.get? name with
    | some m => simp only [hp, hm] at h; cases h
    | none =>
      simp only [hp, hm] at h
      cases h
      exact ⟨p, rfl, hm, rfl⟩

theorem change?_header_eq_ok (h : st.change? rules id (.header level path) = .ok c) :
    ∃ p m, st.project = some p ∧ p.modules.get? (st.latest.getD "") = some m ∧
      st.after c =
        let modules := p.modules.insert (st.latest.getD "") (m.insertNote rules level path).1
        { st with project := some { p with modules := modules } } := by
  unfold change? at h
  cases hp : st.project with
  | none => rw [hp] at h; cases h
  | some p =>
    cases hm : p.modules.get? (st.latest.getD "") with
    | none => simp only [hp, hm] at h; cases h
    | some m =>
      simp only [hp, hm] at h
      cases h
      exact ⟨p, m, rfl, hm, rfl⟩

theorem change?_project_eq_error (h : st.change? rules id (.project name) = .error cause) :
    st.project.isSome ∧ cause = .duplicateProject id name := by
  unfold change? at h
  cases hp : st.project with
  | none => rw [hp] at h; cases h
  | some p =>
    rw [hp] at h
    cases h
    exact ⟨rfl, rfl⟩

theorem change?_module_eq_error (h : st.change? rules id (.module name) = .error cause) :
    (st.project = none ∧ cause = .unknownProject id) ∨
      (st.project.isSome ∧ (st.module? name).isSome ∧ cause = .duplicateModule id name) := by
  unfold change? at h
  unfold module?
  cases hp : st.project with
  | none =>
    rw [hp] at h
    cases h
    exact .inl ⟨rfl, rfl⟩
  | some p =>
    cases hm : p.modules.get? name with
    | none => simp only [hp, hm] at h; cases h
    | some m =>
      simp only [hp, hm] at h
      cases h
      exact .inr ⟨rfl, by rw [Option.bind_some, hm]; rfl, rfl⟩

theorem change?_header_eq_error (h : st.change? rules id (.header level path) = .error cause) :
    (st.project = none ∧ cause = .unknownProject id) ∨
      (st.project.isSome ∧ st.module? (st.latest.getD "") = none ∧
        cause = .unknownModule id (st.latest.getD "")) := by
  unfold change? at h
  unfold module?
  cases hp : st.project with
  | none =>
    rw [hp] at h
    cases h
    exact .inl ⟨rfl, rfl⟩
  | some p =>
    cases hm : p.modules.get? (st.latest.getD "") with
    | some m => simp only [hp, hm] at h; cases h
    | none =>
      simp only [hp, hm] at h
      cases h
      exact .inr ⟨rfl, hm, rfl⟩

variable {filter : Option PathFilter} {line : List Char}

/-- A refused line announces what is refused, and changes nothing. -/
theorem react_eq_some (h : (st.react rules filter line).2 = some cause) :
    ∃ id announced, Log.announcement? filter line = some (id, announced) ∧
      st.change? rules id announced = .error cause ∧
      (st.react rules filter line).1 = { counted := { lines := 1 } } := by
  unfold react at h ⊢
  cases hline : Log.announcement? filter line with
  | none => rw [hline] at h; cases h
  | some found =>
    obtain ⟨id, announced⟩ := found
    rw [hline] at h
    cases hchange : st.change? rules id announced with
    | ok c => simp only [hchange] at h; cases h
    | error e =>
      simp only [hchange] at h
      cases h
      exact ⟨id, announced, rfl, hchange, by simp only [hchange]⟩

/-- An accepted line of a stream announces what is accepted, and changes that. -/
theorem react_eq_none {announced : Log.Announcement} (h : (st.react rules filter line).2 = none)
    (hline : Log.announcement? filter line = some (id, announced)) :
    ∃ c, st.change? rules id announced = .ok c ∧
      ∀ st' : StreamState, st'.after (st.react rules filter line).1 = st'.after c := by
  unfold react at h ⊢
  rw [hline] at h ⊢
  cases hchange : st.change? rules id announced with
  | error e => simp only [hchange] at h; cases h
  | ok c => exact ⟨c, rfl, fun st' => by simp only [hchange]; rfl⟩

end

end StreamState

namespace Scanner

/-- What the scanner keeps for the source of a line. -/
def stateAt (s : Scanner) : Option StreamId → StreamState
  | some id => { project := s.forest.projects.get? id, latest := s.latest.get? id }
  | none => {}

/-- The forest with a project written, if there is one to write. -/
def putProject (f : Forest) : Option StreamId → Option Project → Forest
  | some id, some p => { f with projects := f.projects.insert id p }
  | _, _ => f

/-- The modules started last with one written, if there is one to write. -/
def putLatest (latest : SortedMap StreamId String) :
    Option StreamId → Option String → SortedMap StreamId String
  | some id, some name => latest.insert id name
  | _, _ => latest

/-- **The scanner with a change written** for the source of a line. -/
def apply (s : Scanner) (source : Option StreamId) (c : Change) : Scanner :=
  { s with
    forest := putProject s.forest source c.project
    latest := putLatest s.latest source c.latest
    tally := s.tally + c.counted }

/-- Performing an announcement is writing what it changes. -/
theorem perform_eq (s : Scanner) (id : StreamId) (announced : Log.Announcement) :
    s.perform id announced
      = ((s.stateAt (some id)).change? s.forest.rules id announced).map (s.apply (some id)) := by
  cases announced with
  | project name =>
    unfold perform Forest.startProject SortedMap.contains StreamState.change? stateAt
    dsimp only
    cases s.forest.projects.get? id <;> rfl
  | module name =>
    unfold perform Forest.startModule SortedMap.contains StreamState.change? stateAt
    dsimp only
    cases s.forest.projects.get? id with
    | none => rfl
    | some p =>
      dsimp only
      cases p.modules.get? name <;> rfl
  | header level path =>
    unfold perform Forest.insertNote target StreamState.change? stateAt
    dsimp only
    cases s.forest.projects.get? id with
    | none => rfl
    | some p =>
      dsimp only
      cases p.modules.get? ((s.latest.get? id).getD "") <;> rfl
  | filtered => rfl
  | nothing => rfl

/-- **How a scanner reacts to a line**: as the state of the line's stream does. -/
def reaction (s : Scanner) (line : List Char) : Change × Option ForestError :=
  (s.stateAt (Log.streamOf? line)).react s.forest.rules s.filter line

/-- **Reading a line is reacting to it** in the state of its stream, and
writing what it changes there. -/
theorem readLine_eq (s : Scanner) (line : List Char) :
    s.readLine line = (s.apply (Log.streamOf? line) (s.reaction line).1, (s.reaction line).2) := by
  unfold readLine hear reaction StreamState.react
  rw [Log.streamOf?_eq s.filter]
  dsimp only
  cases Log.announcement? s.filter line with
  | none => rfl
  | some found =>
    obtain ⟨id, announced⟩ := found
    dsimp only [Option.map_some]
    rw [perform_eq]
    -- The counters have moved on, but no state depends on them.
    rw [show stateAt { s with tally := s.tally.addLine } (some id) = s.stateAt (some id) from rfl]
    cases (s.stateAt (some id)).change? s.forest.rules id announced with
    | error e => rfl
    | ok c =>
      -- Both sides write the same; the line is counted before or along with it.
      show (Scanner.mk .., none) = (Scanner.mk .., none)
      rw [← Tally.add_assoc]
      rfl

/-! ## Changes to different streams -/

/-- No change touches the rules. -/
@[simp] theorem rules_apply (s : Scanner) (source : Option StreamId) (c : Change) :
    (s.apply source c).forest.rules = s.forest.rules := by
  unfold apply putProject
  split <;> rfl

/-- No change touches the filter. -/
@[simp] theorem filter_apply (s : Scanner) (source : Option StreamId) (c : Change) :
    (s.apply source c).filter = s.filter := rfl

theorem rules_readLine (s : Scanner) (line : List Char) :
    (s.readLine line).1.forest.rules = s.forest.rules := by
  rw [readLine_eq, rules_apply]

theorem filter_readLine (s : Scanner) (line : List Char) :
    (s.readLine line).1.filter = s.filter := by
  rw [readLine_eq, filter_apply]

/-- A change is found where it was written. -/
theorem stateAt_apply_self (s : Scanner) (id : StreamId) (c : Change) :
    (s.apply (some id) c).stateAt (some id) = (s.stateAt (some id)).after c := by
  unfold stateAt apply StreamState.after
  obtain ⟨project, latest, counted⟩ := c
  cases project <;> cases latest <;> simp [putProject, putLatest]

/-- A change is not found anywhere else. -/
theorem stateAt_apply_ne (s : Scanner) {source other : Option StreamId} (h : other ≠ source)
    (c : Change) : (s.apply source c).stateAt other = s.stateAt other := by
  cases other with
  | none => rfl
  | some j =>
    cases source with
    | none => rfl
    | some i =>
      have hne : j ≠ i := fun hji => h (congrArg some hji)
      unfold stateAt apply
      obtain ⟨project, latest, counted⟩ := c
      cases project <;> cases latest <;>
        simp [putProject, putLatest, SortedMap.get?_insert_ne _ hne]

/-- Changes to different streams can be written in either order. -/
theorem apply_comm (s : Scanner) {source other : Option StreamId} (h : source ≠ other)
    (c d : Change) : (s.apply source c).apply other d = (s.apply other d).apply source c := by
  have hforest : putProject (putProject s.forest source c.project) other d.project
      = putProject (putProject s.forest other d.project) source c.project := by
    obtain _ | i := source <;> obtain _ | j := other <;> obtain _ | p := c.project <;>
      obtain _ | q := d.project <;> try rfl
    have hne : i ≠ j := fun hij => h (congrArg some hij)
    exact congrArg (Forest.mk s.forest.rules) (SortedMap.insert_comm _ hne ..)
  have hlatest : putLatest (putLatest s.latest source c.latest) other d.latest
      = putLatest (putLatest s.latest other d.latest) source c.latest := by
    obtain _ | i := source <;> obtain _ | j := other <;> obtain _ | m := c.latest <;>
      obtain _ | n := d.latest <;> try rfl
    have hne : i ≠ j := fun hij => h (congrArg some hij)
    exact SortedMap.insert_comm _ hne ..
  unfold apply
  rw [Scanner.mk.injEq]
  exact ⟨hforest, rfl, hlatest, Tally.add_right_comm ..⟩

end Scanner

end IncludeForest
