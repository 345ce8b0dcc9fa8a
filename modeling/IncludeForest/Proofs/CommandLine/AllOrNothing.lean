import IncludeForest.CommandLine.Run
import IncludeForest.Proofs.CommandLine.Files

/-!
# A run shows all or nothing

What a run shows and what it exports is made before any of it is written. So if something
ends the run early (`EndsEarly`), nothing is shown and no file is touched, however much of
the log had been gone through; and if nothing does, there is a forest (`Builds`), all of it
is shown, and an export can do no more than fail. Which of the two it is does not depend on
the order in which a run looks at things: each of the four mistakes ends it, whatever else
is wrong (`prepare_eq_error`, `prepare_eq_ok`).

What is shown is a matter of the two files that are read and of the options but for the
export, which is last and adds nothing to it. An export that does not fail leaves the text
of the forest that was shown in its file, and that is the file that is found under the path
(`FileTree.content?_write`).
-/

namespace IncludeForest.CommandLine

variable {around : Surroundings} {language : PatternLanguage} {disk : Sink} {files : FileTree}
  {input path : String} {r : Request} {s : Settings}
  {config log : Except FileError (List UInt8)} {d : Delivery} {failure : Failure}

/-! ## What a run makes of its files -/

/-- The settings of a run: those of the file, or the usual ones. -/
def Request.loaded (r : Request) (around : Surroundings)
    (config : Except FileError (List UInt8)) : Settings :=
  (Settings.load (r.configPath around) config around.patterns).1

/-- **What comes of a log** under the options and the settings. An option goes before the
setting, and headers of the toolchain are dropped if either asks for it. -/
def Request.scan (r : Request) (s : Settings) (filter : PathFilter) (log : List UInt8) :
    Except LogError (Forest × Tally) :=
  Forest.ofLog
    { simplifyPaths := r.simplify.getD s.simplifyPaths
      policy := .ofIgnoreCase s.ignoreCase
      query := r.find.getD "" }
    (if r.hideToolchain || s.hideToolchain then some filter else none) log

/-- **What is shown of a forest** under the options and the settings: the cycle report, and
then the outline. What leads nowhere is folded if either asks for it. The option for styles
goes before the setting, and where the choice is left open styles are for a person. -/
def Request.shown (r : Request) (s : Settings) (interactive : Bool) (forest : Forest) : String :=
  let color :=
    match r.color.getD s.color with
    | .always => true
    | .never => false
    | .auto => interactive
  View.cyclesText color (Cycle.ofForest forest) ++
    View.forestText { autoExpand := r.autoExpand || s.autoExpand, color } forest

/-- **What ends a run early**, by what comes of reading its settings and its log. -/
inductive EndsEarly (around : Surroundings) (r : Request)
    (config log : Except FileError (List UInt8)) : Prop where
  /-- There is no settings file where one is asked for. -/
  | settingsMissing {e : FileError} (hasked : r.config.isSome) (hconfig : config = .error e)
      (hmissing : e.nameExists = false)
  /-- The patterns of the settings make no filter. -/
  | filterMalformed {pattern : String}
      (hpattern : PathFilter.ofPatterns (r.loaded around config).toolchainPatterns
        around.patterns = .error pattern)
  /-- The log cannot be read. -/
  | logUnreadable {e : FileError} (hlog : log = .error e)
  /-- A line of the log contradicts those before it. -/
  | logInconsistent {filter : PathFilter} {bytes : List UInt8} {e : LogError}
      (hpattern : PathFilter.ofPatterns (r.loaded around config).toolchainPatterns
        around.patterns = .ok filter)
      (hlog : log = .ok bytes) (hscan : r.scan (r.loaded around config) filter bytes = .error e)

/-- **The forest that a run builds** of its settings and its log. -/
def Builds (around : Surroundings) (r : Request) (config log : Except FileError (List UInt8))
    (forest : Forest) : Prop :=
  ∃ filter bytes tally,
    PathFilter.ofPatterns (r.loaded around config).toolchainPatterns around.patterns
      = .ok filter ∧
    log = .ok bytes ∧ r.scan (r.loaded around config) filter bytes = .ok (forest, tally)

/-! ## One stage after the other -/

theorem exists_of_bind_eq_ok {ε α β : Type} {x : Except ε α} {f : α → Except ε β} {b : β}
    (h : x >>= f = .ok b) : ∃ a, x = .ok a ∧ f a = .ok b := by
  cases x with
  | error e => cases h
  | ok a => exact ⟨a, rfl, h⟩

theorem bind_eq_error {ε α β : Type} {x : Except ε α} {f : α → Except ε β} {e : ε}
    (h : x >>= f = .error e) : x = .error e ∨ ∃ a, x = .ok a ∧ f a = .error e := by
  cases x with
  | error e' => exact .inl (congrArg Except.error (Except.error.inj h))
  | ok a => exact .inr ⟨a, rfl, h⟩

theorem settings_eq_ok {made : Settings × List String}
    (h : r.settings path config language = .ok made) :
    made = Settings.load path config language ∧
      ∀ e, r.config.isSome → config = .error e → e.nameExists = true := by
  cases config with
  | ok bytes => exact ⟨(Except.ok.inj h).symm, nofun⟩
  | error e =>
    rw [Request.settings] at h
    split at h
    · cases h
    · next hmissing =>
      refine ⟨(Except.ok.inj h).symm, ?_⟩
      intro e' hasked he
      obtain rfl : e = e' := Except.error.inj he
      exact Decidable.not_not.1 fun hname => hmissing ⟨hasked, hname⟩

theorem settings_eq_error (h : r.settings path config language = .error failure) :
    r.config.isSome ∧ ∃ e, config = .error e ∧ e.nameExists = false := by
  cases config with
  | ok bytes => cases h
  | error e =>
    rw [Request.settings] at h
    split at h
    · next hmissing => exact ⟨hmissing.1, e, rfl, Bool.eq_false_iff.2 hmissing.2⟩
    · cases h

theorem filter_eq_ok {chosen : Option PathFilter} (h : r.filter s language = .ok chosen) :
    ∃ filter, PathFilter.ofPatterns s.toolchainPatterns language = .ok filter ∧
      chosen = if r.hideToolchain || s.hideToolchain then some filter else none := by
  rw [Request.filter] at h
  split at h
  · next filter hfilter => exact ⟨filter, hfilter, (Except.ok.inj h).symm⟩
  · cases h

theorem filter_eq_error (h : r.filter s language = .error failure) :
    ∃ pattern, PathFilter.ofPatterns s.toolchainPatterns language = .error pattern := by
  rw [Request.filter] at h
  split at h
  · cases h
  · next pattern hfilter => exact ⟨pattern, hfilter⟩

theorem forestOf_eq_ok {rules : ForestRules} {filter : Option PathFilter} {forest : Forest}
    (h : Delivery.forestOf rules filter input log = .ok forest) :
    ∃ bytes tally, log = .ok bytes ∧ Forest.ofLog rules filter bytes = .ok (forest, tally) := by
  cases log with
  | error e => cases h
  | ok bytes =>
    rw [Delivery.forestOf] at h
    split at h
    · next made tally hforest =>
      obtain rfl : made = forest := Except.ok.inj h
      exact ⟨bytes, tally, rfl, hforest⟩
    · cases h

theorem forestOf_eq_error {rules : ForestRules} {filter : Option PathFilter}
    (h : Delivery.forestOf rules filter input log = .error failure) :
    (∃ e, log = .error e) ∨
      ∃ bytes e, log = .ok bytes ∧ Forest.ofLog rules filter bytes = .error e := by
  cases log with
  | error e => exact .inl ⟨e, rfl⟩
  | ok bytes =>
    rw [Delivery.forestOf] at h
    split at h
    · cases h
    · next e hforest => exact .inr ⟨bytes, e, rfl, hforest⟩

/-- **A run that has nothing to show ends early.** -/
theorem prepare_eq_error (h : Delivery.prepare around input r config log = .error failure) :
    EndsEarly around r config log := by
  obtain hsettings | ⟨⟨s, warnings⟩, hsettings, h⟩ := bind_eq_error h
  · obtain ⟨hasked, e, hconfig, hmissing⟩ := settings_eq_error hsettings
    exact .settingsMissing hasked hconfig hmissing
  obtain ⟨hloaded, -⟩ := settings_eq_ok hsettings
  obtain rfl : s = r.loaded around config := congrArg Prod.fst hloaded
  obtain hfilter | ⟨chosen, hfilter, h⟩ := bind_eq_error h
  · obtain ⟨pattern, hpattern⟩ := filter_eq_error hfilter
    exact .filterMalformed hpattern
  obtain ⟨filter, hpattern, rfl⟩ := filter_eq_ok hfilter
  obtain hforest | ⟨forest, hforest, h⟩ := bind_eq_error h
  · obtain ⟨e, hlog⟩ | ⟨bytes, e, hlog, hlines⟩ := forestOf_eq_error hforest
    · exact .logUnreadable hlog
    · exact .logInconsistent hpattern hlog hlines
  · cases h

/-- **A run that has something to show does not end early**, and what it has to show is the
forest that it builds. -/
theorem prepare_eq_ok (h : Delivery.prepare around input r config log = .ok d) :
    ¬ EndsEarly around r config log ∧ Builds around r config log d.forest ∧
      d.look = r.appearance (r.loaded around config) around.interactive ∧
      d.exportPath = r.json := by
  obtain ⟨⟨s, warnings⟩, hsettings, h⟩ := exists_of_bind_eq_ok h
  obtain ⟨hloaded, hnamed⟩ := settings_eq_ok hsettings
  obtain rfl : s = r.loaded around config := congrArg Prod.fst hloaded
  obtain ⟨chosen, hfilter, h⟩ := exists_of_bind_eq_ok h
  obtain ⟨filter, hpattern, rfl⟩ := filter_eq_ok hfilter
  obtain ⟨forest, hforest, h⟩ := exists_of_bind_eq_ok h
  obtain ⟨bytes, tally, hlog, hlines⟩ := forestOf_eq_ok hforest
  obtain rfl := Except.ok.inj h
  refine ⟨?_, ⟨filter, bytes, tally, hpattern, hlog, hlines⟩, rfl, rfl⟩
  rintro (⟨hasked, hconfig, hmissing⟩ | hmalformed | hunreadable | ⟨hpattern', hlog', hwrong⟩)
  · rw [hnamed _ hasked hconfig] at hmissing
    cases hmissing
  · rw [hpattern] at hmalformed
    cases hmalformed
  · rw [hlog] at hunreadable
    cases hunreadable
  · obtain rfl := Except.ok.inj (hpattern.symm.trans hpattern')
    obtain rfl := Except.ok.inj (hlog.symm.trans hlog')
    cases hlines.symm.trans hwrong

/-- **Asking for an export changes where it goes, and nothing else** of what a run makes. -/
theorem prepare_json (around : Surroundings) (disk : Sink) (input : String) (r : Request)
    (config log : Except FileError (List UInt8)) (json : Option String) :
    Delivery.prepare { around with disk } input { r with json } config log
      = (Delivery.prepare around input r config log).map fun d => { d with exportPath := json } := by
  unfold Delivery.prepare
  change (r.settings (r.configPath around) config around.patterns).bind _
    = ((r.settings (r.configPath around) config around.patterns).bind _).map _
  cases r.settings (r.configPath around) config around.patterns with
  | error e => rfl
  | ok made =>
    change (r.filter made.1 around.patterns).bind _
      = ((r.filter made.1 around.patterns).bind _).map _
    cases r.filter made.1 around.patterns with
    | error e => rfl
    | ok chosen =>
      change (Delivery.forestOf (r.rules made.1) chosen input log).bind _
        = ((Delivery.forestOf (r.rules made.1) chosen input log).bind _).map _
      cases Delivery.forestOf (r.rules made.1) chosen input log with
      | error e => rfl
      | ok forest => rfl

/-! ## What is written -/

/-- **An export that fails**: its file cannot be opened, or does not take the text. -/
def ExportFails (disk : Sink) (files : FileTree) (forest : Forest) (path : String) : Prop :=
  (∃ e, files.write path (Export.text forest).toUTF8.toList = .error e) ∨
    ∃ e, Export.toSink forest disk path = .error e

/-- What arrives is the text of the forest. -/
theorem toSink_eq_ok {forest : Forest} {text : String} {projects : Nat}
    (h : Export.toSink forest disk path = .ok (text, projects)) : text = Export.text forest := by
  obtain ⟨written, hwritten, h⟩ := exists_of_bind_eq_ok h
  obtain ⟨_, -, h⟩ := exists_of_bind_eq_ok h
  obtain rfl : written = text := congrArg Prod.fst (Except.ok.inj h)
  rw [Sink.write] at hwritten
  split at hwritten
  · exact (Except.ok.inj hwritten).symm
  · cases hwritten

/-- **An export fails or leaves the text of the forest** in the file that its path leads to. -/
theorem exportTo_cases (disk : Sink) (files : FileTree) (d : Delivery) (path : String) :
    (ExportFails disk files d.forest path ∧ ∃ e, (exportTo disk files d path).2 = some e) ∨
      ¬ ExportFails disk files d.forest path ∧ (exportTo disk files d path).2 = none ∧
        (exportTo disk files d path).1.content? path = some d.exportText.toUTF8.toList := by
  unfold exportTo
  cases hsink : Export.toSink d.forest disk path with
  | error e =>
    refine .inl ⟨.inr ⟨e, hsink⟩, ?_⟩
    dsimp only
    cases hwrite : files.write path (disk.remains d.exportText) with
    | error e' => exact ⟨_, rfl⟩
    | ok after => exact ⟨_, rfl⟩
  | ok made =>
    obtain ⟨text, projects⟩ := made
    obtain rfl := toSink_eq_ok hsink
    dsimp only
    cases hwrite : files.write path (Export.text d.forest).toUTF8.toList with
    | error e => exact .inl ⟨.inl ⟨e, hwrite⟩, _, rfl⟩
    | ok after =>
      refine .inr ⟨?_, rfl, FileTree.content?_write hwrite⟩
      rintro (⟨e, he⟩ | ⟨e, he⟩)
      · rw [hwrite] at he
        cases he
      · rw [hsink] at he
        cases he

/-- Without an export no file is touched. -/
theorem deliver_of_none (h : d.exportPath = none) :
    deliver disk files d = (files, { code := 0, output := d.output }) := by
  rw [deliver, h]

/-- **What becomes of an export decides nothing but the exit code.** -/
theorem deliver_of_some (h : d.exportPath = some path) :
    deliver disk files d = ((exportTo disk files d path).1,
      match (exportTo disk files d path).2 with
      | none => { code := 0, output := d.output }
      | some e => .failed d.output e) := by
  rw [deliver, h]
  dsimp only
  split
  · next hexport => rw [hexport]
  · next hexport => rw [hexport]

/-- What is shown is shown, whatever becomes of the export. -/
theorem output_deliver : (deliver disk files d).2.output = d.output := by
  cases hpath : d.exportPath with
  | none => rw [deliver_of_none hpath]
  | some path =>
    rw [deliver_of_some hpath]
    dsimp only
    split <;> rfl

/-- **All of a run**: what it leaves behind besides what it found, by the forest that it
builds. -/
structure ShowsAll (around : Surroundings) (files : FileTree) (r : Request) (s : Settings)
    (forest : Forest) (after : FileTree) (outcome : Outcome) : Prop where
  /-- The cycle report is shown, and then the outline. -/
  output : outcome.output = r.shown s around.interactive forest
  /-- The run goes well or fails. -/
  code : outcome.code = 0 ∨ outcome.code = 1
  /-- It fails if an export is asked for and fails. -/
  code_eq_one_iff : outcome.code = 1 ↔
    ∃ path, r.json = some path ∧ ExportFails around.disk files forest path
  /-- Without an export no file is touched. -/
  unchanged : r.json = none → after = files
  /-- An export is the text of the forest. -/
  exported : ∀ path, r.json = some path → outcome.code = 0 →
    after.content? path = some (Export.text forest).toUTF8.toList

/-- What a run has to show is what is shown of its forest under the options and the settings. -/
theorem output_eq_shown (h : d.look = r.appearance s around.interactive) :
    d.output = r.shown s around.interactive d.forest := by
  rw [Delivery.output, h, Request.shown, Request.appearance]
  cases r.color.getD s.color <;> rfl

/-- What a run has to show is shown, whatever becomes of the export. -/
theorem showsAll_deliver (hlook : d.look = r.appearance s around.interactive)
    (hpath : d.exportPath = r.json) :
    ShowsAll around files r s d.forest (deliver around.disk files d).1
      (deliver around.disk files d).2 := by
  have hshown : (deliver around.disk files d).2.output
      = r.shown s around.interactive d.forest := by
    rw [output_deliver, output_eq_shown hlook]
  cases hjson : r.json with
  | none =>
    have hdone : deliver around.disk files d = (files, { code := 0, output := d.output }) :=
      deliver_of_none (hpath.trans hjson)
    refine ⟨hshown, ?_, ?_, ?_, ?_⟩
    all_goals rw [hdone]
    · exact .inl rfl
    · refine iff_of_false Nat.zero_ne_one ?_
      rintro ⟨path, hasked, -⟩
      exact Option.some_ne_none path (hasked.symm.trans hjson)
    · exact fun _ => rfl
    · intro path hasked
      exact absurd (hasked.symm.trans hjson) (Option.some_ne_none path)
  | some path =>
    have hdone : deliver around.disk files d = ((exportTo around.disk files d path).1, _) :=
      deliver_of_some (hpath.trans hjson)
    have honly (path' : String) (hasked : r.json = some path') : path' = path :=
      Option.some.inj (hasked.symm.trans hjson)
    have hunchanged (hnone : r.json = none) : (deliver around.disk files d).1 = files :=
      absurd (hjson.symm.trans hnone) (Option.some_ne_none path)
    obtain ⟨hfails, e, hexport⟩ | ⟨hfails, hexport, hread⟩ :=
      exportTo_cases around.disk files d path
    · rw [hexport] at hdone
      have hcode : (deliver around.disk files d).2.code = 1 := by rw [hdone]; rfl
      refine ⟨hshown, .inr hcode, iff_of_true hcode ⟨path, hjson, hfails⟩, hunchanged, ?_⟩
      intro _ _ hzero
      exact absurd (hzero.symm.trans hcode) Nat.zero_ne_one
    · rw [hexport] at hdone
      have hcode : (deliver around.disk files d).2.code = 0 := by rw [hdone]
      refine ⟨hshown, .inl hcode, iff_of_false ?_ ?_, hunchanged, ?_⟩
      · exact fun hone => Nat.zero_ne_one (hcode.symm.trans hone)
      · rintro ⟨path', hasked, hfails'⟩
        exact hfails (honly path' hasked ▸ hfails')
      · intro path' hasked _
        rw [honly path' hasked, hdone]
        exact hread

/-! ## A whole run -/

variable {files' : FileTree} {arguments arguments' : List String} {json : Option String}

/-- A run that ends early. -/
theorem run_of_prepare_eq_error (h : Invocation.ofArguments arguments = .scan input r)
    (hconfig : files.read (r.configPath around) = config) (hlog : files.read input = log)
    (hprepare : Delivery.prepare around input r config log = .error failure) :
    run around files arguments = (files, .failed "" failure) := by
  rw [run, h]
  dsimp only
  rw [hconfig, hlog, hprepare]

/-- A run that has something to show. -/
theorem run_of_prepare_eq_ok (h : Invocation.ofArguments arguments = .scan input r)
    (hconfig : files.read (r.configPath around) = config) (hlog : files.read input = log)
    (hprepare : Delivery.prepare around input r config log = .ok d) :
    run around files arguments = deliver around.disk files d := by
  rw [run, h]
  dsimp only
  rw [hconfig, hlog, hprepare]

/-- **What is shown is a matter of what is read**: neither an export nor what becomes of it,
nor any other file, makes a difference. -/
theorem output_run_eq (h : Invocation.ofArguments arguments = .scan input r)
    (h' : Invocation.ofArguments arguments' = .scan input { r with json })
    (hconfig : files'.read (r.configPath around) = files.read (r.configPath around))
    (hlog : files'.read input = files.read input) :
    (run { around with disk } files' arguments').2.output
      = (run around files arguments).2.output := by
  have hprepare' := prepare_json around disk input r (files.read (r.configPath around))
    (files.read input) json
  cases hprepare : Delivery.prepare around input r (files.read (r.configPath around))
      (files.read input) with
  | error e =>
    rw [hprepare] at hprepare'
    have hrun' : run { around with disk } files' arguments' = (files', .failed "" e) :=
      run_of_prepare_eq_error h' hconfig hlog hprepare'
    rw [run_of_prepare_eq_error h rfl rfl hprepare, hrun']
  | ok d =>
    rw [hprepare] at hprepare'
    have hrun' : run { around with disk } files' arguments'
        = deliver disk files' { d with exportPath := json } :=
      run_of_prepare_eq_ok h' hconfig hlog hprepare'
    rw [run_of_prepare_eq_ok h rfl rfl hprepare, hrun', output_deliver, output_deliver]
    rfl

/-- **A run shows all or nothing.** If anything ends it early, its exit code is 1, nothing is
shown and no file is touched. If nothing does, the cycle report and the outline of the forest
that it builds are shown; the exit code is 1 if an export is asked for and fails, and 0
otherwise; and a file that an export did not fail on has the text of the same forest. What is
shown does not depend on the export. -/
theorem run_all_or_nothing {after : FileTree} {outcome : Outcome}
    (h : Invocation.ofArguments arguments = .scan input r)
    (hrun : run around files arguments = (after, outcome)) :
    (EndsEarly around r (files.read (r.configPath around)) (files.read input) →
      outcome.code = 1 ∧ outcome.output = "" ∧ after = files) ∧
    (¬ EndsEarly around r (files.read (r.configPath around)) (files.read input) →
      ∃ forest, Builds around r (files.read (r.configPath around)) (files.read input) forest ∧
        ShowsAll around files r (r.loaded around (files.read (r.configPath around))) forest
          after outcome) ∧
    ∀ disk files' arguments' json after' outcome',
      Invocation.ofArguments arguments' = .scan input { r with json } →
      files'.read (r.configPath around) = files.read (r.configPath around) →
      files'.read input = files.read input →
      run { around with disk } files' arguments' = (after', outcome') →
      outcome'.output = outcome.output := by
  refine ⟨?_, ?_, ?_⟩
  · intro hearly
    cases hprepare : Delivery.prepare around input r (files.read (r.configPath around))
        (files.read input) with
    | error failure =>
      rw [run_of_prepare_eq_error h rfl rfl hprepare] at hrun
      obtain ⟨rfl, rfl⟩ := Prod.mk.inj hrun
      exact ⟨rfl, rfl, rfl⟩
    | ok d => exact absurd hearly (prepare_eq_ok hprepare).1
  · intro hnot
    cases hprepare : Delivery.prepare around input r (files.read (r.configPath around))
        (files.read input) with
    | error failure => exact absurd (prepare_eq_error hprepare) hnot
    | ok d =>
      rw [run_of_prepare_eq_ok h rfl rfl hprepare] at hrun
      obtain ⟨-, hbuilds, hlook, hpath⟩ := prepare_eq_ok hprepare
      have hall : ShowsAll around files r _ d.forest (deliver around.disk files d).1
          (deliver around.disk files d).2 := showsAll_deliver hlook hpath
      rw [hrun] at hall
      exact ⟨d.forest, hbuilds, hall⟩
  · intro disk files' arguments' json after' outcome' h' hconfig hlog hrun'
    have hsame : (run { around with disk } files' arguments').2.output
        = (run around files arguments).2.output := output_run_eq h h' hconfig hlog
    rw [hrun, hrun'] at hsame
    exact hsame

/-- Two logs, one that is in order and one whose last line contradicts the first, with paths
that lead from the root and out of the working directory, and a directory that takes no
file. -/
theorem run_all_or_nothing_logs :
    let files : FileTree :=
      { FileTree.ofFiles
          [("/etc/view.toml", "[view]\nauto_expand = true\n".toUTF8.toList),
            ("/logs/build.log", ("1> Project: demo\n1> main.cpp\n1> Note: including file: a.h\n" ++
              "1> Note: including file:  b.h\n1> Note: including file:   a.h\n").toUTF8.toList),
            ("/logs/broken.log", ("1> Project: demo\n1> main.cpp\n" ++
              "1> Note: including file: a.h\n1> Project: demo\n").toUTF8.toList)] with
        directories := [(["sealed"], { writing := some "Permission denied (os error 13)" })]
        noDirectory := by decide +kernel }
    let around : Surroundings := { defaultConfig := "config.toml" }
    let arguments (json log : String) := ["--config", "/etc/view.toml", "--json", json, log]
    let done := run around files (arguments "../logs/out.json" "/logs/build.log")
    let failed := run around files (arguments "/sealed/out.json" "/logs/build.log")
    let ended := run around files (arguments "../logs/out.json" "/logs/broken.log")
    (∃ forest, done.2.code = 0 ∧
      done.2.output = View.cyclesText false (Cycle.ofForest forest) ++
        View.forestText { autoExpand := true } forest ∧
      done.1.content? "../logs/out.json" = some (Export.text forest).toUTF8.toList) ∧
    (failed.2.code = 1 ∧ failed.2.output = done.2.output) ∧
    ended.2.code = 1 ∧ ended.2.output = "" ∧ ended.1 = files := by
  intro files around arguments done failed ended
  let request (json log : String) : Request :=
    { input := some log, json := some json, config := some "/etc/view.toml" }
  have hdone : Invocation.ofArguments (arguments "../logs/out.json" "/logs/build.log")
      = .scan "/logs/build.log" (request "../logs/out.json" "/logs/build.log") := by
    decide +kernel
  have hfailed : Invocation.ofArguments (arguments "/sealed/out.json" "/logs/build.log")
      = .scan "/logs/build.log" (request "/sealed/out.json" "/logs/build.log") := by
    decide +kernel
  have hended : Invocation.ofArguments (arguments "../logs/out.json" "/logs/broken.log")
      = .scan "/logs/broken.log" (request "../logs/out.json" "/logs/broken.log") := by
    decide +kernel
  obtain ⟨hcode, hsealed, hsettings, hnone⟩ : done.2.code = 0 ∧ failed.2.code = 1 ∧
      (request "../logs/out.json" "/logs/build.log").loaded around (files.read "/etc/view.toml")
        = { autoExpand := true } ∧
      (Delivery.prepare around "/logs/broken.log" (request "../logs/out.json" "/logs/broken.log")
        (files.read "/etc/view.toml") (files.read "/logs/broken.log")).isOk = false := by
    decide +kernel
  obtain ⟨hnothing, hall, hsame⟩ := run_all_or_nothing hdone (Prod.eta done).symm
  obtain ⟨forest, -, hshows⟩ := hall fun hearly =>
    Nat.zero_ne_one (hcode.symm.trans (hnothing hearly).1)
  have houtput := hshows.output
  have hshown : failed.2.output = done.2.output :=
    hsame {} files _ (some "/sealed/out.json") _ _ hfailed rfl rfl (Prod.eta failed).symm
  have hearly : EndsEarly around (request "../logs/out.json" "/logs/broken.log")
      (files.read "/etc/view.toml") (files.read "/logs/broken.log") := by
    cases hprepare : Delivery.prepare around "/logs/broken.log" _ (files.read "/etc/view.toml")
        (files.read "/logs/broken.log") with
    | error e => exact prepare_eq_error hprepare
    | ok d =>
      rw [hprepare] at hnone
      cases hnone
  refine ⟨⟨forest, hcode, ?_, hshows.exported "../logs/out.json" rfl hcode⟩, ⟨hsealed, hshown⟩,
    (run_all_or_nothing hended (Prod.eta ended).symm).1 hearly⟩
  have hfolded : (request "../logs/out.json" "/logs/build.log").shown { autoExpand := true }
      around.interactive forest = View.cyclesText false (Cycle.ofForest forest) ++
        View.forestText { autoExpand := true } forest := rfl
  rw [← hfolded, ← hsettings]
  exact houtput

end IncludeForest.CommandLine
