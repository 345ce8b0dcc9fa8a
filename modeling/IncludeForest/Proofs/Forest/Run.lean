import IncludeForest.Forest.Basic

/-!
# Runs of a forest

A forest is changed by five operations, in any order, and goes on as it is
when one of them is refused. A **step** is one operation with what it is given,
an **answer** is what it gives back, and a **run** performs a list of steps
and keeps every answer. What holds after every run from an empty forest holds
of every forest there is.

Three of the operations can be refused, and `startProject_eq_ok`,
`startModule_eq_ok` and `insertNote_eq_ok` say when they are not and what they
do then; nothing after them opens a definition. A run is followed through one
question, what `module?` finds, and for each operation there is a lemma on what
it does to the answer. A note is addressed to one module and no other is
touched, and a note to a module that is there is never refused
(`insertNote_of_module?`).
-/

namespace IncludeForest

namespace Forest

/-- **One operation on a forest.** -/
inductive Step where
  /-- A project starts. -/
  | project (id : StreamId) (name : String)
  /-- A module starts. -/
  | module (id : StreamId) (name : String)
  /-- A note is inserted into a module. -/
  | note (id : StreamId) (name : String) (level : Nat) (path : String)
  /-- What is empty is removed. -/
  | purge
  /-- The paths that are shown are shortened. -/
  | simplify
  deriving DecidableEq, Repr

/-- **What an operation gives back** when it is not refused. -/
inductive Answer where
  /-- Nothing. -/
  | done
  /-- What came of inserting a note. -/
  | inserted (outcome : Insertion)
  /-- How much was removed. -/
  | purged (removed : Purged)
  deriving DecidableEq, Repr

/-- **The forest after a step**, and the answer. A step that is refused leaves
the forest as it is. -/
def perform (f : Forest) : Step → Forest × Except ForestError Answer
  | .project id name =>
    match f.startProject id name with
    | .ok f' => (f', .ok .done)
    | .error e => (f, .error e)
  | .module id name =>
    match f.startModule id name with
    | .ok f' => (f', .ok .done)
    | .error e => (f, .error e)
  | .note id name level path =>
    match f.insertNote id name level path with
    | .ok (f', outcome) => (f', .ok (.inserted outcome))
    | .error e => (f, .error e)
  | .purge => (f.purge.1, .ok (.purged f.purge.2))
  | .simplify => (f.simplify, .ok .done)

/-- **The forest after a run**, and the answer to each step. -/
def performAll (f : Forest) : List Step → Forest × List (Except ForestError Answer)
  | [] => (f, [])
  | step :: rest =>
    let (f, answer) := f.perform step
    let (f, answers) := f.performAll rest
    (f, answer :: answers)

/-! ## When an operation succeeds -/

/-- A project starts under a number that is free. -/
theorem startProject_eq_ok {f f' : Forest} {id : StreamId} {name : String} :
    f.startProject id name = .ok f' ↔
      f.projects.get? id = none ∧
        f' = { f with projects := f.projects.insert id { name } } := by
  unfold startProject SortedMap.contains
  cases f.projects.get? id with
  | none => exact ⟨fun h => ⟨rfl, (Except.ok.inj h).symm⟩, fun h => congrArg Except.ok h.2.symm⟩
  | some project => exact ⟨nofun, nofun⟩

/-- A module starts in a project that is there and has none of its name. -/
theorem startModule_eq_ok {f f' : Forest} {id : StreamId} {name : String} :
    f.startModule id name = .ok f' ↔
      ∃ project, f.projects.get? id = some project ∧ project.modules.get? name = none ∧
        f' = { f with projects :=
          f.projects.insert id { project with modules := project.modules.insert name {} } } := by
  unfold startModule SortedMap.contains
  cases f.projects.get? id with
  | none => exact ⟨nofun, nofun⟩
  | some project =>
    dsimp only
    cases hname : project.modules.get? name with
    | none =>
      refine ⟨fun h => ⟨project, rfl, hname, (Except.ok.inj h).symm⟩, ?_⟩
      rintro ⟨_, ⟨⟩, -, rfl⟩
      rfl
    | some m =>
      refine ⟨nofun, ?_⟩
      rintro ⟨_, ⟨⟩, h, -⟩
      rw [hname] at h
      cases h

/-- A note goes to a module that is there, in a project that is there. -/
theorem insertNote_eq_ok {f f' : Forest} {id : StreamId} {name : String} {level : Nat}
    {path : String} {outcome : Insertion} :
    f.insertNote id name level path = .ok (f', outcome) ↔
      ∃ project m, f.projects.get? id = some project ∧ project.modules.get? name = some m ∧
        outcome = (m.insertNote f.rules level path).2 ∧
        f' = { f with projects :=
          f.projects.insert id { project with
            modules := project.modules.insert name (m.insertNote f.rules level path).1 } } := by
  unfold insertNote
  cases f.projects.get? id with
  | none => exact ⟨nofun, nofun⟩
  | some project =>
    dsimp only
    cases hname : project.modules.get? name with
    | none =>
      refine ⟨nofun, ?_⟩
      rintro ⟨_, _, ⟨⟩, h, -⟩
      rw [hname] at h
      cases h
    | some m =>
      refine ⟨fun h => ⟨project, m, rfl, hname, ?_⟩, ?_⟩
      · obtain ⟨rfl, rfl⟩ := Prod.mk.inj (Except.ok.inj h)
        exact ⟨rfl, rfl⟩
      · rintro ⟨_, _, ⟨⟩, h, rfl, rfl⟩
        rw [hname] at h
        cases h
        rfl

/-- A note to a module that is there is never refused, whatever its depth and
its path. -/
theorem insertNote_of_module? {f : Forest} {id : StreamId} {name : String} {m : Module}
    (h : f.module? id name = some m) (level : Nat) (path : String) :
    ∃ f', f.insertNote id name level path = .ok (f', (m.insertNote f.rules level path).2) := by
  obtain ⟨project, hproject, hm⟩ := Option.bind_eq_some_iff.1 h
  exact ⟨_, insertNote_eq_ok.2 ⟨project, m, hproject, hm, rfl, rfl⟩⟩

/-! ## What the operations do to what is found -/

/-- What is found when one project has been replaced. -/
theorem module?_insert (f : Forest) (id : StreamId) (project : Project) (i : StreamId)
    (n : String) :
    module? { f with projects := f.projects.insert id project } i n
      = if i = id then project.modules.get? n else f.module? i n := by
  unfold module?
  rw [SortedMap.get?_insert]
  by_cases h : i = id
  · rw [if_pos h, if_pos h, Option.bind_some]
  · rw [if_neg h, if_neg h]

/-- What is found when one module of a project has been replaced or added. -/
theorem module?_insert_insert {f : Forest} {id : StreamId} {project : Project}
    (h : f.projects.get? id = some project) (name : String) (m : Module) (i : StreamId)
    (n : String) :
    module? { f with projects :=
        f.projects.insert id { project with modules := project.modules.insert name m } } i n
      = if i = id ∧ n = name then some m else f.module? i n := by
  rw [module?_insert]
  by_cases hi : i = id
  · subst hi
    rw [if_pos rfl, SortedMap.get?_insert, module?, h, Option.bind_some]
    by_cases hn : n = name
    · rw [if_pos hn, if_pos ⟨rfl, hn⟩]
    · rw [if_neg hn, if_neg fun h => hn h.2]
  · rw [if_neg hi, if_neg fun h => hi h.1]

/-- A project that starts has no module yet, and there was none under its
number. -/
theorem module?_of_startProject {f f' : Forest} {id : StreamId} {name : String}
    (h : f.startProject id name = .ok f') (i : StreamId) (n : String) :
    f'.module? i n = f.module? i n := by
  obtain ⟨hfree, rfl⟩ := startProject_eq_ok.1 h
  rw [module?_insert]
  by_cases hi : i = id
  · subst hi
    rw [if_pos rfl, module?, hfree]
    rfl
  · rw [if_neg hi]

/-- A module that starts was not there, is empty, and is the only one to
change. -/
theorem module?_of_startModule {f f' : Forest} {id : StreamId} {name : String}
    (h : f.startModule id name = .ok f') :
    f.module? id name = none ∧
      ∀ i n, f'.module? i n = if i = id ∧ n = name then some {} else f.module? i n := by
  obtain ⟨project, hproject, hfree, rfl⟩ := startModule_eq_ok.1 h
  exact ⟨by rw [module?, hproject, Option.bind_some, hfree],
    module?_insert_insert hproject name {}⟩

/-- A note that is inserted goes to a module that is there, and this is the
only one to change. -/
theorem module?_of_insertNote {f f' : Forest} {id : StreamId} {name : String} {level : Nat}
    {path : String} {outcome : Insertion}
    (h : f.insertNote id name level path = .ok (f', outcome)) :
    ∃ m, f.module? id name = some m ∧ outcome = (m.insertNote f.rules level path).2 ∧
      ∀ i n, f'.module? i n =
        if i = id ∧ n = name then some (m.insertNote f.rules level path).1
        else f.module? i n := by
  obtain ⟨project, m, hproject, hm, rfl, rfl⟩ := insertNote_eq_ok.1 h
  exact ⟨m, by rw [module?, hproject, Option.bind_some, hm], rfl,
    module?_insert_insert hproject name _⟩

/-- Every module is simplified by itself. -/
theorem module?_simplify (f : Forest) (i : StreamId) (n : String) :
    f.simplify.module? i n = (f.module? i n).map (·.simplify) := by
  unfold module? simplify
  rw [SortedMap.get?_map]
  cases f.projects.get? i with
  | none => rfl
  | some project => exact SortedMap.get?_map project.modules _ n

/-- **A purge removes the empty modules and no others.** A project that goes
with them has none left to be found. -/
theorem module?_purge (f : Forest) (i : StreamId) (n : String) :
    f.purge.1.module? i n = (f.module? i n).filter (!·.isEmpty) := by
  unfold module? purge
  rw [SortedMap.get?_filter, SortedMap.get?_map]
  cases f.projects.get? i with
  | none => rfl
  | some project =>
    rw [Option.map_some, Option.bind_some, ← SortedMap.get?_filter]
    -- Whether the project stays makes no difference, since it goes without modules only.
    by_cases hkeep : (project.modules.filter (!·.isEmpty)).isEmpty
    · have hnone : (project.modules.filter (!·.isEmpty)).get? n = none := by
        rw [SortedMap.get?, List.isEmpty_iff.1 hkeep, SortedMap.find?]
      rw [Option.filter_some_neg (by simp [hkeep]), hnone]
      rfl
    · rw [Option.filter_some_pos (by simpa using hkeep), Option.bind_some]

/-! ## What a step keeps -/

/-- No step changes the rules. -/
theorem rules_perform (f : Forest) (step : Step) : (f.perform step).1.rules = f.rules := by
  cases step with
  | project id name =>
    rw [perform]
    split
    · next f' h =>
      obtain ⟨-, rfl⟩ := startProject_eq_ok.1 h
      rfl
    · rfl
  | module id name =>
    rw [perform]
    split
    · next f' h =>
      obtain ⟨_, -, -, rfl⟩ := startModule_eq_ok.1 h
      rfl
    · rfl
  | note id name level path =>
    rw [perform]
    split
    · next f' outcome h =>
      obtain ⟨_, _, -, -, -, rfl⟩ := insertNote_eq_ok.1 h
      rfl
    · rfl
  | purge => rfl
  | simplify => rfl

/-- No run changes the rules. -/
theorem rules_performAll (f : Forest) (steps : List Step) :
    (f.performAll steps).1.rules = f.rules := by
  induction steps generalizing f with
  | nil => rfl
  | cons step steps ih => exact (ih (f.perform step).1).trans (rules_perform f step)

/-- The steps that cannot concern a module that is there: projects and modules
that start, and notes to other modules. -/
def Step.Spares (id : StreamId) (name : String) : Step → Prop
  | .project .. | .module .. => True
  | .note i n .. => ¬(i = id ∧ n = name)
  | .purge | .simplify => False

/-- **Such a step leaves the module as it is.** A module that starts under the
same name is refused. -/
theorem module?_perform_of_spares {f : Forest} {id : StreamId} {name : String} {m : Module}
    (h : f.module? id name = some m) {step : Step} (hspares : step.Spares id name) :
    (f.perform step).1.module? id name = some m := by
  cases step with
  | project i n =>
    rw [perform]
    split
    · next f' hstart => rw [module?_of_startProject hstart, h]
    · exact h
  | module i n =>
    rw [perform]
    split
    · next f' hstart =>
      obtain ⟨hfree, hfound⟩ := module?_of_startModule hstart
      rw [hfound, if_neg, h]
      rintro ⟨rfl, rfl⟩
      rw [h] at hfree
      cases hfree
    · exact h
  | note i n level path =>
    rw [perform]
    split
    · next f' outcome hinsert =>
      obtain ⟨_, -, -, hfound⟩ := module?_of_insertNote hinsert
      rw [hfound, if_neg, h]
      rintro ⟨rfl, rfl⟩
      exact hspares ⟨rfl, rfl⟩
    · exact h
  | purge => exact hspares.elim
  | simplify => exact hspares.elim

/-! ## What holds of every module

A module starts empty, takes notes, and is simplified; nothing else happens to
it but that it is purged. So what holds of the empty module and is kept by notes
and by simplifying holds of every module that a run leads to. -/

/-- Whether something holds of every module of the forest. -/
def AllModules (P : Module → Prop) (f : Forest) : Prop :=
  ∀ id name m, f.module? id name = some m → P m

section

variable {rules : ForestRules} {P : Module → Prop}

/-- **What notes and simplifying keep, every step keeps.** -/
theorem AllModules.perform {f : Forest} (h : f.AllModules P) (hempty : P {})
    (hnote : ∀ m level path, P m → P (m.insertNote f.rules level path).1)
    (hsimplify : ∀ m : Module, P m → P m.simplify) (step : Step) :
    (f.perform step).1.AllModules P := by
  intro i n m hm
  cases step with
  | project id name =>
    rw [Forest.perform] at hm
    split at hm
    · next f' hstart =>
      rw [module?_of_startProject hstart] at hm
      exact h i n m hm
    · exact h i n m hm
  | module id name =>
    rw [Forest.perform] at hm
    split at hm
    · next f' hstart =>
      rw [(module?_of_startModule hstart).2] at hm
      by_cases hat : i = id ∧ n = name
      · rw [if_pos hat] at hm
        exact Option.some.inj hm ▸ hempty
      · rw [if_neg hat] at hm
        exact h i n m hm
    · exact h i n m hm
  | note id name level path =>
    rw [Forest.perform] at hm
    split at hm
    · next f' outcome hinsert =>
      obtain ⟨target, htarget, -, hfound⟩ := module?_of_insertNote hinsert
      rw [hfound] at hm
      by_cases hat : i = id ∧ n = name
      · rw [if_pos hat] at hm
        exact Option.some.inj hm ▸ hnote target level path (h id name target htarget)
      · rw [if_neg hat] at hm
        exact h i n m hm
    · exact h i n m hm
  | purge =>
    have hm : f.purge.1.module? i n = some m := hm
    rw [module?_purge, Option.filter_eq_some_iff] at hm
    exact h i n m hm.1
  | simplify =>
    have hm : f.simplify.module? i n = some m := hm
    rw [module?_simplify] at hm
    obtain ⟨before, hbefore, rfl⟩ := Option.map_eq_some_iff.1 hm
    exact hsimplify before (h i n before hbefore)

/-- **What notes and simplifying keep, every run keeps.** -/
theorem AllModules.performAll {f : Forest} (h : f.AllModules P) (hempty : P {})
    (hnote : ∀ m level path, P m → P (m.insertNote f.rules level path).1)
    (hsimplify : ∀ m : Module, P m → P m.simplify) (steps : List Step) :
    (f.performAll steps).1.AllModules P := by
  induction steps generalizing f with
  | nil => exact h
  | cons step steps ih =>
    have hkept : ∀ m level path, P m → P (m.insertNote (f.perform step).1.rules level path).1 := by
      rw [rules_perform]
      exact hnote
    show ((f.perform step).1.performAll steps).1.AllModules P
    exact ih (h.perform hempty hnote hsimplify step) hkept

/-- **A forest that some run leads to**, beginning with nothing. -/
def IsReachable (rules : ForestRules) (f : Forest) : Prop :=
  ∃ steps, ((empty rules).performAll steps).1 = f

theorem isReachable_empty (rules : ForestRules) : (empty rules).IsReachable rules :=
  ⟨[], rfl⟩

theorem isReachable_performAll (rules : ForestRules) (steps : List Step) :
    ((empty rules).performAll steps).1.IsReachable rules :=
  ⟨steps, rfl⟩

/-- A run can be followed by a run. -/
theorem performAll_append (f : Forest) (steps more : List Step) :
    (f.performAll (steps ++ more)).1 = ((f.performAll steps).1.performAll more).1 := by
  induction steps generalizing f with
  | nil => rfl
  | cons step steps ih =>
    show ((f.perform step).1.performAll (steps ++ more)).1
      = (((f.perform step).1.performAll steps).1.performAll more).1
    exact ih (f.perform step).1

namespace IsReachable

variable {f : Forest}

/-- One step more leads to a forest that can be reached. -/
theorem perform (h : f.IsReachable rules) (step : Step) : (f.perform step).1.IsReachable rules := by
  obtain ⟨steps, rfl⟩ := h
  exact ⟨steps ++ [step], performAll_append _ steps [step]⟩

theorem startProject (h : f.IsReachable rules) {f' : Forest} {id : StreamId} {name : String}
    (hstart : f.startProject id name = .ok f') : f'.IsReachable rules := by
  have hstep := h.perform (.project id name)
  rw [Forest.perform, hstart] at hstep
  exact hstep

theorem startModule (h : f.IsReachable rules) {f' : Forest} {id : StreamId} {name : String}
    (hstart : f.startModule id name = .ok f') : f'.IsReachable rules := by
  have hstep := h.perform (.module id name)
  rw [Forest.perform, hstart] at hstep
  exact hstep

theorem insertNote (h : f.IsReachable rules) {f' : Forest} {id : StreamId} {name : String}
    {level : Nat} {path : String} {outcome : Insertion}
    (hinsert : f.insertNote id name level path = .ok (f', outcome)) : f'.IsReachable rules := by
  have hstep := h.perform (.note id name level path)
  rw [Forest.perform, hinsert] at hstep
  exact hstep

theorem rules_eq (h : f.IsReachable rules) : f.rules = rules := by
  obtain ⟨steps, rfl⟩ := h
  exact rules_performAll (empty rules) steps

/-- **What notes and simplifying keep holds of every module** of a forest that
can be reached. -/
theorem allModules (h : f.IsReachable rules) (hempty : P {})
    (hnote : ∀ m level path, P m → P (m.insertNote rules level path).1)
    (hsimplify : ∀ m : Module, P m → P m.simplify) : f.AllModules P := by
  obtain ⟨steps, rfl⟩ := h
  have hnone : (empty rules).AllModules P := by
    intro id name m hm
    have hnone : (empty rules).module? id name = none := rfl
    rw [hnone] at hm
    cases hm
  exact hnone.performAll hempty hnote hsimplify steps

end IsReachable

end

end Forest

end IncludeForest
