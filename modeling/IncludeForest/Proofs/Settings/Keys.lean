import Mathlib.Data.List.Forall2
import IncludeForest.CommandLine.Delivery
import IncludeForest.Proofs.Text.Occurrence

/-!
# Every key of a settings file stands for itself

A key that makes no sense counts as if the file did not have it. So a setting comes from
its own key and from nothing else (`FollowsKey`): it is what is accepted of what the file
gives for the key, and the built-in choice if there is no such thing.

Of the keys that a check can refuse, exactly those that it refuses have a warning, one
each (`RawSettings.exists_refused`). All three checks do the same: a choice is made or a
warning that begins with the name of the key, and which of the two it is can be said
without the check (`Checked.Meets`).

What comes out of a settings file, whatever is in it, does not stop a run. All that is
needed of the language of patterns is that the built-in patterns are some of it: then each
of the patterns can be used by itself, and all that could be wrong with them is that they
cannot be used together. This is not looked at when the settings are checked, and it can
be the case (`exists_patterns_too_large_together`).
-/

namespace IncludeForest

open Text

/-! ## What a setting comes from -/

/-- **What a setting comes from**: what is accepted of what is given for its key, or the
built-in choice where nothing is given or nothing of it accepted. -/
def FollowsKey {α β : Type} (accepts : β → α → Prop) (builtin : α) (given : Option β)
    (setting : α) : Prop :=
  ∀ a, setting = a ↔ (∃ b, given = some b ∧ accepts b a) ∨
    (∀ b, given = some b → ∀ a', ¬ accepts b a') ∧ a = builtin

/-- **A choice that is made by what is accepted of what is given**, with the built-in one
where none is made. -/
theorem followsKey_getD {α β : Type} {accepts : β → α → Prop} {given : Option β}
    {chosen : Option α} (h : ∀ a, chosen = some a ↔ ∃ b, given = some b ∧ accepts b a)
    (builtin : α) : FollowsKey accepts builtin given (chosen.getD builtin) := by
  intro a
  cases chosen with
  | none =>
    have hnone (b : β) (hb : given = some b) (a' : α) : ¬ accepts b a' := fun ha =>
      Option.some_ne_none a' ((h a').2 ⟨b, hb, ha⟩).symm
    constructor
    · rintro rfl
      exact .inr ⟨hnone, rfl⟩
    · rintro (⟨b, hb, ha⟩ | ⟨-, rfl⟩)
      · exact absurd ha (hnone b hb a)
      · rfl
  | some chosen =>
    obtain ⟨b, hb, hchosen⟩ := (h chosen).1 rfl
    constructor
    · rintro rfl
      exact .inl ⟨b, hb, hchosen⟩
    · rintro (haccepted | ⟨hnone, -⟩)
      · exact Option.some.inj ((h a).2 haccepted)
      · exact absurd hchosen (hnone b hb chosen)

/-- A key that accepts all that can be given for it. -/
theorem followsKey_of_all {α : Type} (builtin : α) (given : Option α) :
    FollowsKey (fun b a => a = b) builtin given (given.getD builtin) := by
  refine followsKey_getD (fun a => ?_) builtin
  constructor
  · exact fun hgiven => ⟨a, hgiven, rfl⟩
  · rintro ⟨_, hgiven, rfl⟩
    exact hgiven

namespace Checked

variable {α β : Type} {check : β → Checked α} {label : String} {accepts : β → α → Prop}

/-- **What a check has to do**: to make the one choice that is accepted, or to give a
warning about the key where there is none. -/
def Meets (check : β → Checked α) (label : String) (accepts : β → α → Prop) : Prop :=
  ∀ b, (∃ a, check b = .chosen a ∧ ∀ a', accepts b a' ↔ a' = a) ∨
    (∃ text, check b = .refused (label ++ text)) ∧ ∀ a, ¬ accepts b a

/-- **A choice is made by what the check accepts.** -/
theorem Meets.toOption_eq_some_iff (h : Meets check label accepts) {given : Option β} {a : α} :
    (ofOption check given).toOption = some a ↔ ∃ b, given = some b ∧ accepts b a := by
  cases given with
  | none => exact iff_of_false nofun nofun
  | some b =>
    have hgiven : (∃ b', some b = some b' ∧ accepts b' a) ↔ accepts b a :=
      ⟨fun ⟨_, hb, ha⟩ => Option.some.inj hb ▸ ha, fun ha => ⟨b, rfl, ha⟩⟩
    rw [hgiven]
    show (check b).toOption = some a ↔ _
    obtain ⟨chosen, hcheck, haccepts⟩ | ⟨⟨text, hcheck⟩, hnone⟩ := h b
    · rw [hcheck, haccepts]
      exact Option.some_inj.trans eq_comm
    · rw [hcheck]
      exact iff_of_false nofun (hnone a)

/-- A setting with a built-in choice comes from its key. -/
theorem Meets.followsKey (h : Meets check label accepts) (builtin : α) (given : Option β) :
    FollowsKey accepts builtin given ((ofOption check given).toOption.getD builtin) :=
  followsKey_getD (fun _ => h.toOption_eq_some_iff) builtin

/-- So does one that need not be chosen. -/
theorem Meets.followsKey_toOption (h : Meets check label accepts) (given : Option β) :
    FollowsKey (fun b chosen => ∃ a, chosen = some a ∧ accepts b a) none given
      (ofOption check given).toOption := by
  have hchosen (chosen : Option α) : (ofOption check given).toOption.map some = some chosen ↔
      ∃ b, given = some b ∧ ∃ a, chosen = some a ∧ accepts b a := by
    rw [Option.map_eq_some_iff]
    constructor
    · rintro ⟨a, ha, rfl⟩
      obtain ⟨b, hb, haccepted⟩ := h.toOption_eq_some_iff.1 ha
      exact ⟨b, hb, a, rfl, haccepted⟩
    · rintro ⟨b, hb, a, rfl, haccepted⟩
      exact ⟨a, h.toOption_eq_some_iff.2 ⟨b, hb, haccepted⟩, rfl⟩
  have hsame : ((ofOption check given).toOption.map some).getD none
      = (ofOption check given).toOption := by
    cases (ofOption check given).toOption <;> rfl
  exact hsame ▸ followsKey_getD hchosen none

/-- **A key has one warning or none**: one if something is given for it and nothing of it
accepted. -/
theorem Meets.warnings_cases (h : Meets check label accepts) (given : Option β) :
    ((∃ b, given = some b ∧ ∀ a, ¬ accepts b a) ∧
      ∃ text, (ofOption check given).warnings = [label ++ text]) ∨
    (¬ ∃ b, given = some b ∧ ∀ a, ¬ accepts b a) ∧ (ofOption check given).warnings = [] := by
  cases given with
  | none => exact .inr ⟨nofun, rfl⟩
  | some b =>
    show (_ ∧ ∃ text, (check b).warnings = [label ++ text]) ∨ _ ∧ (check b).warnings = []
    obtain ⟨a, hcheck, haccepts⟩ | ⟨⟨text, hcheck⟩, hnone⟩ := h b
    · refine .inr ⟨?_, by rw [hcheck]; rfl⟩
      rintro ⟨_, ⟨⟩, hnone⟩
      exact hnone a ((haccepts a).2 rfl)
    · exact .inl ⟨⟨b, rfl, hnone⟩, text, by rw [hcheck]; rfl⟩

end Checked

/-! ## What the checks accept -/

/-- **Whether a list of patterns can be taken**: it is not too long, no pattern in it is,
and the language has each of them. -/
structure ArePatterns (language : PatternLanguage) (texts : List String) : Prop where
  /-- There are not too many of them. -/
  length_le : texts.length ≤ 64
  /-- None has too many bytes. -/
  size_le : ∀ text ∈ texts, text.utf8ByteSize ≤ 1024
  /-- Each can be used by itself. -/
  isSome : ∀ text ∈ texts, (language.read? text).isSome = true

variable {language : PatternLanguage}

/-- There is nothing wrong with a pattern of the language that is short enough. -/
theorem patternProblem?_eq_none_iff {text : String} :
    patternProblem? language text = none ↔
      text.utf8ByteSize ≤ 1024 ∧ (language.read? text).isSome = true := by
  unfold patternProblem? maxPatternBytes
  rw [byteLength_toList]
  dsimp only
  by_cases hsize : 1024 < text.utf8ByteSize
  · rw [if_pos hsize]
    exact iff_of_false nofun fun h => Nat.not_lt.2 h.1 hsize
  · rw [if_neg hsize, and_iff_right (Nat.not_lt.1 hsize)]
    cases language.read? text with
    | none => exact iff_of_false nofun nofun
    | some p => exact iff_of_true rfl rfl

/-- **There is nothing wrong with the lists that can be taken.** -/
theorem patternsProblem?_eq_none_iff {texts : List String} :
    patternsProblem? language texts = none ↔ ArePatterns language texts := by
  unfold patternsProblem? maxPatterns
  by_cases hlength : 64 < texts.length
  · rw [if_pos hlength]
    exact iff_of_false nofun fun h => Nat.not_lt.2 h.length_le hlength
  · rw [if_neg hlength, List.findSome?_eq_none_iff]
    simp only [patternProblem?_eq_none_iff]
    exact ⟨fun h => ⟨Nat.not_lt.1 hlength, fun text ht => (h text ht).1, fun text ht => (h text ht).2⟩,
      fun h text ht => ⟨h.size_le text ht, h.isSome text ht⟩⟩

/-- A word that is looked up among the names of some things stands for the one that it
names, if each is the first of its name. -/
theorem find?_name_eq_some_iff {α : Type} {all : List α} {name : α → String} {word : String}
    {a : α} (hfirst : all.find? (fun b => name b == name a) = some a) :
    all.find? (fun b => name b == word) = some a ↔ name a = word := by
  constructor
  · intro h
    exact beq_iff_eq.1 (List.find?_some (p := fun b => name b == word) h)
  · rintro rfl
    exact hfirst

/-- A word stands for the mode that it names. -/
theorem ColorMode.ofName?_eq_some_iff {word : String} {mode : ColorMode} :
    ofName? word = some mode ↔ mode.name = word :=
  find?_name_eq_some_iff (by cases mode <;> decide)

/-- A word stands for the level that it names. -/
theorem LogLevel.ofName?_eq_some_iff {word : String} {level : LogLevel} :
    ofName? word = some level ↔ level.name = word :=
  find?_name_eq_some_iff (by cases level <;> decide)

/-- **A check that looks up a word** takes what the word names, written in whatever case. -/
theorem Checked.meets_of_lookup {α : Type} {check : String → Checked α} {label : String}
    {name : α → String} {ofName? : String → Option α}
    (hname : ∀ word a, ofName? word = some a ↔ name a = word)
    (hsome : ∀ word a, ofName? (lowerCase word) = some a → check word = .chosen a)
    (hnone : ∀ word, ofName? (lowerCase word) = none →
      ∃ text, check word = .refused (label ++ text)) :
    Meets check label fun word a => name a = lowerCase word := by
  intro word
  cases hfound : ofName? (lowerCase word) with
  | some a =>
    refine .inl ⟨a, hsome word a hfound, fun a' => ?_⟩
    show name a' = lowerCase word ↔ _
    rw [← hname, hfound]
    exact Option.some_inj.trans eq_comm
  | none =>
    refine .inr ⟨hnone word hfound, fun a haccepted => ?_⟩
    rw [(hname _ a).2 haccepted] at hfound
    cases hfound

/-- **The keys that a check can refuse**, in the order in which it warns of them. -/
inductive CheckedKey where
  /-- The patterns that tell the headers of the toolchain. -/
  | patterns
  /-- When styles are used. -/
  | color
  /-- How much the program tells of itself. -/
  | level
  deriving DecidableEq, Repr

namespace CheckedKey

/-- What a warning about the key begins with. -/
def label : CheckedKey → String
  | patterns => "[filters] std_include_patterns: "
  | color => "[view] color = \""
  | level => "[logging] level = \""

/-- **Whether what a file gives for the key makes no sense.** -/
def IsRefused (language : PatternLanguage) (raw : RawSettings) : CheckedKey → Prop
  | patterns => ∃ texts, raw.toolchainPatterns = some texts ∧ ¬ ArePatterns language texts
  | color => ∃ word, raw.color = some word ∧ ∀ mode : ColorMode, mode.name ≠ lowerCase word
  | level => ∃ word, raw.level = some word ∧ ∀ level : LogLevel, level.name ≠ lowerCase word

/-- The warnings about the key. -/
def warnings (language : PatternLanguage) (raw : RawSettings) : CheckedKey → List String
  | patterns => (Checked.ofOption (checkPatterns language) raw.toolchainPatterns).warnings
  | color => (Checked.ofOption checkColor raw.color).warnings
  | level => (Checked.ofOption checkLevel raw.level).warnings

end CheckedKey

/-- A list of patterns is taken as it is. -/
theorem checkPatterns_meets :
    Checked.Meets (checkPatterns language) CheckedKey.patterns.label
      fun texts chosen => ArePatterns language texts ∧ chosen = texts := by
  intro texts
  unfold checkPatterns
  cases hproblem : patternsProblem? language texts with
  | none =>
    exact .inl ⟨texts, rfl, fun _ => and_iff_right (patternsProblem?_eq_none_iff.1 hproblem)⟩
  | some problem =>
    refine .inr ⟨⟨problem ++ ". Using built-in patterns.", ?_⟩, fun _ haccepted => ?_⟩
    · exact congrArg Checked.refused String.append_assoc
    · rw [patternsProblem?_eq_none_iff.2 haccepted.1] at hproblem
      cases hproblem

/-- The mode that a word names is taken. -/
theorem checkColor_meets : Checked.Meets checkColor CheckedKey.color.label
    fun word (mode : ColorMode) => mode.name = lowerCase word := by
  refine Checked.meets_of_lookup (fun _ _ => ColorMode.ofName?_eq_some_iff)
    (fun word mode hfound => ?_) fun word hfound => ⟨word ++ ("\" is not recognised. " ++
      "Expected \"auto\", \"always\" or \"never\". Using default (auto)."), ?_⟩
  · rw [checkColor, hfound]
  · rw [checkColor, hfound]
    exact congrArg Checked.refused (by rw [← String.append_assoc, ← String.append_assoc]; rfl)

/-- The level that a word names is taken. -/
theorem checkLevel_meets : Checked.Meets checkLevel CheckedKey.level.label
    fun word (level : LogLevel) => level.name = lowerCase word := by
  refine Checked.meets_of_lookup (fun _ _ => LogLevel.ofName?_eq_some_iff)
    (fun word level hfound => ?_) fun word hfound => ⟨word ++ ("\" is not recognised. " ++
      "Valid values: error, warn, info, debug, trace. Using default (info)."), ?_⟩
  · rw [checkLevel, hfound]
  · rw [checkLevel, hfound]
    exact congrArg Checked.refused (by rw [← String.append_assoc, ← String.append_assoc]; rfl)

/-! ## What is told of the keys -/

/-- A key that is refused has one warning, and any other key has none. -/
theorem CheckedKey.warnings_cases (language : PatternLanguage) (raw : RawSettings)
    (key : CheckedKey) :
    (key.IsRefused language raw ∧ ∃ text, key.warnings language raw = [key.label ++ text]) ∨
      ¬ key.IsRefused language raw ∧ key.warnings language raw = [] := by
  cases key with
  | patterns =>
    have hrefused : IsRefused language raw patterns ↔ ∃ texts,
        raw.toolchainPatterns = some texts ∧
          ∀ chosen, ¬ (ArePatterns language texts ∧ chosen = texts) :=
      exists_congr fun texts => and_congr_right fun _ =>
        ⟨fun h _ haccepted => h haccepted.1, fun h hpatterns => h texts ⟨hpatterns, rfl⟩⟩
    rw [hrefused]
    exact checkPatterns_meets.warnings_cases raw.toolchainPatterns
  | color => exact checkColor_meets.warnings_cases raw.color
  | level => exact checkLevel_meets.warnings_cases raw.level

/-- The warnings come key by key. -/
theorem RawSettings.warnings_check (language : PatternLanguage) (raw : RawSettings) :
    (raw.check language).2
      = [.patterns, .color, .level].flatMap (CheckedKey.warnings language raw) := by
  rw [List.flatMap_cons, List.flatMap_cons, List.flatMap_cons, List.flatMap_nil, List.append_nil,
    ← List.append_assoc]
  rfl

/-- **Of some keys, those that are refused have a warning each**, in the order of the
keys. -/
theorem RawSettings.exists_refused (language : PatternLanguage) (raw : RawSettings)
    (keys : List CheckedKey) :
    ∃ refused, refused.Sublist keys ∧
      (∀ key, key ∈ refused ↔ key ∈ keys ∧ key.IsRefused language raw) ∧
      List.Forall₂ (fun key warning => ∃ text, warning = key.label ++ text) refused
        (keys.flatMap (CheckedKey.warnings language raw)) := by
  induction keys with
  | nil => exact ⟨[], .slnil, fun _ => (iff_of_false List.not_mem_nil fun h => List.not_mem_nil h.1),
      .nil⟩
  | cons key keys ih =>
    obtain ⟨refused, hsub, hmem, htold⟩ := ih
    rw [List.flatMap_cons]
    obtain ⟨hrefused, text, hwarnings⟩ | ⟨hkept, hwarnings⟩ :=
      key.warnings_cases language raw
    · refine ⟨key :: refused, hsub.cons_cons key, fun key' => ?_, ?_⟩
      · rw [List.mem_cons, List.mem_cons, hmem]
        constructor
        · rintro (rfl | ⟨hkey, h⟩)
          · exact ⟨.inl rfl, hrefused⟩
          · exact ⟨.inr hkey, h⟩
        · rintro ⟨hkey, h⟩
          exact hkey.imp_right fun hkey => ⟨hkey, h⟩
      · rw [hwarnings]
        exact .cons ⟨text, rfl⟩ htold
    · refine ⟨refused, hsub.cons key, fun key' => ?_, ?_⟩
      · rw [List.mem_cons, hmem]
        constructor
        · rintro ⟨hkey, h⟩
          exact ⟨.inr hkey, h⟩
        · rintro ⟨rfl | hkey, h⟩
          · exact absurd h hkept
          · exact ⟨hkey, h⟩
      · rw [hwarnings]
        exact htold

/-! ## What a run can use -/

/-- **Each of the patterns of checked settings can be used by itself**, if the built-in ones
can. -/
theorem RawSettings.isSome_read?_check (raw : RawSettings)
    (hbuiltin : ∀ text ∈ PathFilter.builtinPatterns, (language.read? text).isSome = true)
    {text : String} (htext : text ∈ (raw.check language).1.toolchainPatterns) :
    (language.read? text).isSome = true := by
  obtain ⟨texts, -, hpatterns, hchosen⟩ | ⟨-, hchosen⟩ :=
    (checkPatterns_meets.followsKey PathFilter.builtinPatterns raw.toolchainPatterns _).1 rfl
  · exact hpatterns.isSome text (hchosen ▸ htext)
  · exact hbuiltin text (hchosen ▸ htext)

/-- **The settings of a file are those of a check, or the built-in ones**, whatever comes of
reading it. -/
theorem Settings.load_cases (path : String) (content : Except FileError (List UInt8))
    (language : PatternLanguage) :
    (∃ raw : RawSettings, (load path content language).1 = (raw.check language).1) ∨
      (load path content language).1 = {} := by
  cases content with
  | error e => exact .inr rfl
  | ok bytes =>
    rw [load, ofBytes]
    split
    · exact .inr rfl
    · split
      · exact .inr rfl
      · split
        · exact .inr rfl
        · next raw _ => exact .inl ⟨raw, rfl⟩

/-- So each of their patterns can be used by itself. -/
theorem Settings.isSome_read?_load (path : String) (content : Except FileError (List UInt8))
    (hbuiltin : ∀ text ∈ PathFilter.builtinPatterns, (language.read? text).isSome = true)
    {text : String} (htext : text ∈ (load path content language).1.toolchainPatterns) :
    (language.read? text).isSome = true := by
  obtain ⟨raw, hload⟩ | hload := load_cases path content language
  · rw [hload] at htext
    exact raw.isSome_read?_check hbuiltin htext
  · rw [hload] at htext
    exact hbuiltin text htext

/-- **A key that makes no sense is the only one that suffers, and a run goes on**, in every
language that has the built-in patterns. Every setting comes from its own key: what the file
gives for it if that is accepted, and the built-in choice otherwise. A list of patterns is
taken whole or not at all, and a word in whatever case. The keys that are refused have a
warning each, in the order of the keys, and no other has one. Each of the patterns that come
out of a check, and out of a file with whatever is in it, can be used by itself; so if those
that can be used by themselves can be used together, a run gets its filter. If not, nothing
else is wrong. -/
theorem settings_exact (language : PatternLanguage)
    (hbuiltin : ∀ text ∈ PathFilter.builtinPatterns, (language.read? text).isSome = true) :
    (∀ raw : RawSettings,
      let s := (raw.check language).1
      (FollowsKey (fun given chosen => chosen = given) false raw.hideToolchain s.hideToolchain ∧
        FollowsKey (fun texts chosen => ArePatterns language texts ∧ chosen = texts)
          PathFilter.builtinPatterns raw.toolchainPatterns s.toolchainPatterns ∧
        FollowsKey (fun given chosen => chosen = given) true raw.simplifyPaths s.simplifyPaths ∧
        FollowsKey (fun given chosen => chosen = given) false raw.autoExpand s.autoExpand ∧
        FollowsKey (fun word mode => mode.name = lowerCase word) .auto raw.color s.color ∧
        FollowsKey (fun given chosen => chosen = given) false raw.ignoreCase s.ignoreCase ∧
        FollowsKey (fun word chosen => ∃ level, chosen = some level ∧ level.name = lowerCase word)
          none raw.level s.logLevel) ∧
      (∃ refused, refused.Sublist [.patterns, .color, .level] ∧
        (∀ key, key ∈ refused ↔ CheckedKey.IsRefused language raw key) ∧
        List.Forall₂ (fun key warning => ∃ text, warning = CheckedKey.label key ++ text) refused
          (raw.check language).2) ∧
      (∀ text ∈ s.toolchainPatterns, (language.read? text).isSome = true) ∧
      ∀ level, s.logLevel = some level →
        level.name ∈ ["error", "warn", "info", "debug", "trace"]) ∧
    ∀ path content,
      let s := (Settings.load path content language).1
      (∀ text ∈ s.toolchainPatterns, (language.read? text).isSome = true) ∧
      (((∀ text ∈ s.toolchainPatterns, (language.read? text).isSome = true) →
          language.fit s.toolchainPatterns = true) →
        PathFilter.ofPatterns s.toolchainPatterns language
          = .ok ⟨s.toolchainPatterns.filterMap language.read?⟩ ∧
        ∀ r : CommandLine.Request, ∃ filter, r.filter s language = .ok filter) ∧
      (language.fit s.toolchainPatterns = false →
        PathFilter.ofPatterns s.toolchainPatterns language
          = .error (PathFilter.nameOf s.toolchainPatterns)) := by
  refine ⟨fun raw => ⟨⟨?_, ?_, ?_, ?_, ?_, ?_, ?_⟩, ?_, ?_, ?_⟩, fun path content => ?_⟩
  · exact followsKey_of_all _ _
  · exact checkPatterns_meets.followsKey _ _
  · exact followsKey_of_all _ _
  · exact followsKey_of_all _ _
  · exact checkColor_meets.followsKey _ _
  · exact followsKey_of_all _ _
  · exact checkLevel_meets.followsKey_toOption _
  · obtain ⟨refused, hsub, hmem, htold⟩ :=
      raw.exists_refused language [.patterns, .color, .level]
    rw [← raw.warnings_check language] at htold
    refine ⟨refused, hsub, fun key => (hmem key).trans (and_iff_right ?_), htold⟩
    cases key <;> decide
  · exact fun text htext => raw.isSome_read?_check hbuiltin htext
  · intro level _
    cases level <;> decide
  · intro s
    have hread (text : String) (htext : text ∈ s.toolchainPatterns) :=
      Settings.isSome_read?_load path content hbuiltin htext
    have hmade := PathFilter.ofPatterns_of_isSome hread
    refine ⟨hread, fun hfit => ?_, fun hunfit => ?_⟩
    · rw [if_pos (hfit hread)] at hmade
      refine ⟨hmade, fun r => ?_⟩
      unfold CommandLine.Request.filter
      rw [hmade]
      exact ⟨_, rfl⟩
    · rwa [hunfit, if_neg Bool.false_ne_true] at hmade

/-- Of three keys that can be refused, one is taken and two are not, and a run gets its
filter from a file with one pattern. -/
theorem settings_exact_mixed :
    let language := PatternLanguage.standard
    let raw : RawSettings :=
      { toolchainPatterns := some ["/usr/", "(unclosed"], color := some "ALWAYS"
        level := some "loud" }
    let s := (raw.check language).1
    let bytes := "[filters]\nstd_include_patterns = ['/usr/']\n".toUTF8.data.toList
    let s' := (Settings.load "config.toml" (.ok bytes) language).1
    (∀ text ∈ PathFilter.builtinPatterns, (language.read? text).isSome = true) ∧
      (s.toolchainPatterns = PathFilter.builtinPatterns ∧ s.color = .always ∧
        s.logLevel = none) ∧
      s'.toolchainPatterns = ["/usr/"] ∧
      ∀ r : CommandLine.Request, ∃ filter, r.filter s' language = .ok filter := by
  intro language raw s bytes s'
  have hbuiltin (text : String) (h : text ∈ PathFilter.builtinPatterns) :
      (language.read? text).isSome = true := PathFilter.isSome_of_mem_builtinPatterns h
  obtain ⟨hcheck, hload⟩ := settings_exact language hbuiltin
  obtain ⟨⟨-, hpatterns, -, -, hcolor, -, hlevel⟩, -⟩ := hcheck raw
  have hfound : s'.toolchainPatterns = ["/usr/"] := by decide +kernel
  refine ⟨hbuiltin, ⟨(hpatterns _).2 (.inr ⟨?_, rfl⟩),
    (hcolor _).2 (.inl ⟨"ALWAYS", rfl, by decide⟩), (hlevel _).2 (.inr ⟨?_, rfl⟩)⟩, hfound,
    ((hload "config.toml" (.ok bytes)).2.1 fun _ => ?_).2⟩
  · rintro _ ⟨⟩ _ ⟨haccepted, -⟩
    have hread := haccepted.isSome "(unclosed" (by decide)
    revert hread
    decide +kernel
  · rintro _ ⟨⟩ _ ⟨level, -, hname⟩
    cases level <;> exact absurd hname (by decide)
  · show language.fit s'.toolchainPatterns = true
    rw [hfound]
    decide +kernel

/-- That patterns can be used by themselves does not make it so together: four that can, in
a list that can be taken, are too large for one machine. -/
theorem exists_patterns_too_large_together :
    let language := PatternLanguage.standard
    let texts := List.replicate 4 "a\x7b100000\x7d"
    ArePatterns language texts ∧
      PathFilter.ofPatterns texts language = .error (PathFilter.nameOf texts) := by
  intro language texts
  have hpatterns : ArePatterns language texts := ⟨by decide, by decide, by decide +kernel⟩
  refine ⟨hpatterns, ?_⟩
  rw [PathFilter.ofPatterns_of_isSome hpatterns.isSome, if_neg (by decide +kernel)]

end IncludeForest
