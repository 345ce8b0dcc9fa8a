import Mathlib.Data.List.Infix
import IncludeForest.Log.Line
import IncludeForest.Proofs.Text.Words

/-!
# What lines look like

The recognisers of `Log.Line` take a line apart from its front. Here is what
they look for, said without them: a name is one or more word characters
(`IsName`), a module's name is two or more of them joined by dots
(`IsDottedName`), and a text names a project if the label stands in it, with a
name behind it and nothing but blanks between (`NamesProject`).

Each recogniser is then tied to what it looks for, in both directions where it
answers yes or no. A path that is to be read back from a note must not look
like anything else (`IsNotePath`).
-/

namespace IncludeForest

namespace Log

open Text

/-! ## Names -/

/-- **A name**: one or more word characters. -/
structure IsName (text : List Char) : Prop where
  /-- There is one. -/
  ne_nil : text ≠ []
  /-- There is nothing else. -/
  word : ∀ c ∈ text, isWord c = true

/-- **A dotted name**: two or more names joined by single dots. -/
def IsDottedName (text : List Char) : Prop :=
  ∃ words : List (List Char),
    2 ≤ words.length ∧ (∀ word ∈ words, IsName word) ∧ text = ['.'].intercalate words

theorem isName_iff {text : List Char} :
    IsName text ↔ (!text.isEmpty && text.all isWord) = true := by
  rw [Bool.and_eq_true, Bool.not_eq_true', List.isEmpty_eq_false_iff, List.all_eq_true]
  exact ⟨fun h => ⟨h.ne_nil, h.word⟩, fun h => ⟨h.1, h.2⟩⟩

/-- **The test for a dotted name is right.** -/
theorem isDottedName_iff {text : List Char} : isDottedName text = true ↔ IsDottedName text := by
  unfold isDottedName
  rw [Bool.and_eq_true, decide_eq_true_eq, List.all_eq_true]
  constructor
  · rintro ⟨hlength, hall⟩
    exact ⟨_, hlength, fun word hword => isName_iff.2 (hall word hword),
      (intercalate_fields '.' text).symm⟩
  · rintro ⟨words, hlength, hall, rfl⟩
    -- No word holds a dot, so the name falls into the words it was joined from.
    have hdot (word : List Char) (hword : word ∈ words) : '.' ∉ word := fun hmem => by
      have := (hall word hword).word '.' hmem
      revert this
      decide
    rw [fields_intercalate (by rintro rfl; simp at hlength) hdot]
    exact ⟨hlength, fun word hword => isName_iff.1 (hall word hword)⟩

instance (text : List Char) : Decidable (IsName text) :=
  decidable_of_iff _ isName_iff.symm

instance (text : List Char) : Decidable (IsDottedName text) :=
  decidable_of_iff _ isDottedName_iff

/-- A dotted name holds words and dots only. -/
theorem IsDottedName.isWord_or_eq {text : List Char} (h : IsDottedName text) {c : Char}
    (hc : c ∈ text) : isWord c = true ∨ c = '.' := by
  obtain ⟨words, -, hall, rfl⟩ := h
  obtain hdot | ⟨word, hword, hmem⟩ := mem_or_mem_of_mem_intercalate hc
  · exact .inr (List.mem_singleton.1 hdot)
  · exact .inl ((hall word hword).word c hmem)

/-- A dotted name does not hold a character that is neither of a word nor a
dot. -/
theorem IsDottedName.notMem {text : List Char} (h : IsDottedName text) {c : Char}
    (hword : isWord c = false) (hdot : c ≠ '.') : c ∉ text := fun hc => by
  obtain hc | rfl := h.isWord_or_eq hc
  · rw [hc] at hword
    cases hword
  · exact hdot rfl

theorem IsDottedName.isBlank_eq_false {text : List Char} (h : IsDottedName text) {c : Char}
    (hc : c ∈ text) : isBlank c = false := by
  obtain hword | rfl := h.isWord_or_eq hc
  · exact isBlank_eq_false_of_isWord hword
  · decide

theorem IsDottedName.ne_nil {text : List Char} (h : IsDottedName text) : text ≠ [] := by
  rintro rfl
  have := isDottedName_iff.2 h
  revert this
  decide

/-- **The name that a text gives a module**: all of it but the blanks at its ends, where
that is a dotted name. -/
def GivesModule (text name : List Char) : Prop :=
  IsDottedName name ∧ ∃ before after, text = before ++ (name ++ after) ∧
    (∀ b ∈ before, isBlank b = true) ∧ ∀ b ∈ after, isBlank b = true

/-- **The name that a module is announced by is the one that the text gives it.** -/
theorem announcedModule?_eq_some_iff {text name : List Char} :
    announcedModule? text = some name ↔ GivesModule text name := by
  unfold announcedModule?
  constructor
  · intro h
    dsimp only at h
    split at h
    · next hname =>
      obtain rfl := Option.some.inj h
      exact ⟨isDottedName_iff.1 hname, exists_append_trimBlanks text⟩
    · cases h
  · rintro ⟨hname, before, after, rfl, hbefore, hafter⟩
    rw [trimBlanks_append hbefore hname.ne_nil (fun c hc => hname.isBlank_eq_false hc) hafter]
    exact if_pos (isDottedName_iff.2 hname)

/-- A dotted name is announced as it stands. -/
theorem announcedModule?_of_isDottedName {name : List Char} (h : IsDottedName name) :
    announcedModule? name = some name :=
  announcedModule?_eq_some_iff.2 ⟨h, [], [], (List.append_nil name).symm, nofun, nofun⟩

/-- What holds a colon announces no module. -/
theorem announcedModule?_of_colon {rest : List Char} (h : ':' ∈ rest) :
    announcedModule? rest = none := by
  unfold announcedModule?
  refine if_neg fun hname => ?_
  exact (isDottedName_iff.1 hname).notMem (by decide) (by decide) (mem_trimBlanks h (by decide))

/-! ## Projects -/

/-- Whether the text begins with the label and a word behind it. -/
def BeginsWithProject (text : List Char) : Prop :=
  ∃ blanks c behind, text = projectLabel ++ (blanks ++ c :: behind) ∧
    (∀ b ∈ blanks, isBlank b = true) ∧ isWord c = true

/-- **Whether the label stands in the text**, with a word behind it. -/
def NamesProject (text : List Char) : Prop :=
  ∃ front rest, text = front ++ rest ∧ BeginsWithProject rest

/-- Whatever begins with the label begins with its first letter. -/
theorem BeginsWithProject.head? {text : List Char} (h : BeginsWithProject text) :
    text.head? = some 'P' := by
  obtain ⟨blanks, c, behind, rfl, -, -⟩ := h
  rfl

theorem labelledName?_eq (rest : List Char) :
    labelledName? (projectLabel ++ rest) =
      let name := (rest.dropWhile isBlank).takeWhile isWord
      if name.isEmpty then none else some name := by
  unfold labelledName?
  rw [List.isPrefixOf?_eq_some_iff_append_eq.2 rfl]
  rfl

/-- Whether the text begins with the label and this name behind it, with nothing but
blanks between. The name is the whole word. -/
def BeginsWithName (text name : List Char) : Prop :=
  ∃ blanks behind, text = projectLabel ++ (blanks ++ (name ++ behind)) ∧
    (∀ b ∈ blanks, isBlank b = true) ∧ IsName name ∧ ∀ c ∈ behind.head?, isWord c = false

/-- Where a word follows the label, it is a name. -/
theorem beginsWithProject_iff {text : List Char} :
    BeginsWithProject text ↔ ∃ name, BeginsWithName text name := by
  constructor
  · rintro ⟨blanks, c, behind, rfl, hblanks, hc⟩
    refine ⟨(c :: behind).takeWhile isWord, blanks, (c :: behind).dropWhile isWord, ?_, hblanks,
      ⟨?_, fun _ => List.mem_takeWhile_imp⟩, head?_dropWhile isWord _⟩
    · rw [List.takeWhile_append_dropWhile]
    · rw [List.takeWhile_cons_of_pos hc]
      exact List.cons_ne_nil c _
  · rintro ⟨name, blanks, behind, rfl, hblanks, hname, -⟩
    obtain ⟨c, name, rfl⟩ := List.exists_cons_of_ne_nil hname.ne_nil
    exact ⟨blanks, c, name ++ behind, rfl, hblanks, hname.word c List.mem_cons_self⟩

/-- **The name that is found behind the label is the one that stands there.** -/
theorem labelledName?_eq_some_iff {text name : List Char} :
    labelledName? text = some name ↔ BeginsWithName text name := by
  constructor
  · intro h
    cases hlabel : projectLabel.isPrefixOf? text with
    | none =>
      unfold labelledName? at h
      rw [hlabel] at h
      cases h
    | some rest =>
      obtain rfl := List.isPrefixOf?_eq_some_iff_append_eq.1 hlabel
      rw [labelledName?_eq] at h
      dsimp only at h
      split at h
      · cases h
      · next hname =>
        obtain rfl := Option.some.inj h
        refine ⟨rest.takeWhile isBlank, (rest.dropWhile isBlank).dropWhile isWord, ?_,
          fun _ => List.mem_takeWhile_imp,
          ⟨mt List.isEmpty_iff.2 hname, fun _ => List.mem_takeWhile_imp⟩,
          head?_dropWhile isWord _⟩
        rw [List.takeWhile_append_dropWhile, List.takeWhile_append_dropWhile]
  · rintro ⟨blanks, behind, rfl, hblanks, hname, hbehind⟩
    have hfirst : ∀ c ∈ (name ++ behind).head?, isBlank c = false := by
      intro c hc
      rw [List.head?_append_of_ne_nil _ hname.ne_nil] at hc
      exact isBlank_eq_false_of_isWord (hname.word c (List.mem_of_mem_head? hc))
    rw [labelledName?_eq, dropWhile_run_append hblanks hfirst,
      takeWhile_run_append hname.word hbehind]
    exact if_neg (by rw [List.isEmpty_iff]; exact hname.ne_nil)

/-- The label's test is right. -/
theorem labelledName?_eq_none_iff {text : List Char} :
    labelledName? text = none ↔ ¬ BeginsWithProject text := by
  rw [beginsWithProject_iff, not_exists, Option.eq_none_iff_forall_ne_some]
  exact forall_congr' fun name => not_congr labelledName?_eq_some_iff

theorem not_namesProject_nil : ¬ NamesProject [] := by
  rintro ⟨front, rest, h, hrest⟩
  obtain ⟨-, rfl⟩ := List.append_eq_nil_iff.1 h.symm
  cases hrest.head?

theorem namesProject_cons {c : Char} {rest : List Char} :
    NamesProject (c :: rest) ↔ BeginsWithProject (c :: rest) ∨ NamesProject rest := by
  constructor
  · rintro ⟨front, behind, h, hbegins⟩
    cases front with
    | nil => exact .inl (h ▸ hbegins)
    | cons d front =>
      obtain ⟨rfl, rfl⟩ := List.cons_eq_cons.1 h
      exact .inr ⟨front, behind, rfl, hbegins⟩
  · rintro (hbegins | ⟨front, behind, rfl, hbegins⟩)
    · exact ⟨[], c :: rest, rfl, hbegins⟩
    · exact ⟨c :: front, behind, rfl, hbegins⟩

/-- **A project is announced where one is named**, and nowhere else. -/
theorem announcedProject?_eq_none_iff {text : List Char} :
    announcedProject? text = none ↔ ¬ NamesProject text := by
  induction text with
  | nil => exact iff_of_true rfl not_namesProject_nil
  | cons c rest ih =>
    rw [announcedProject?, Option.or_eq_none_iff, labelledName?_eq_none_iff, ih, namesProject_cons,
      not_or]

instance (text : List Char) : Decidable (NamesProject text) :=
  decidable_of_iff (announcedProject? text ≠ none)
    ((not_congr announcedProject?_eq_none_iff).trans Classical.not_not)

/-- Where the label cannot begin, it need not be looked for. -/
theorem namesProject_append {front rest : List Char} (h : 'P' ∉ front) :
    NamesProject (front ++ rest) ↔ NamesProject rest := by
  induction front with
  | nil => rfl
  | cons c front ih =>
    rw [List.mem_cons, not_or] at h
    rw [List.cons_append, namesProject_cons, ih h.2]
    refine or_iff_right fun hbegins => h.1 ?_
    exact (Option.some.inj hbegins.head?).symm

/-- A text without a colon names no project. -/
theorem not_namesProject_of_colon {text : List Char} (h : ':' ∉ text) : ¬ NamesProject text := by
  rintro ⟨front, rest, rfl, blanks, c, behind, rfl, -, -⟩
  refine h (List.mem_append_right front (List.mem_append_left _ ?_))
  decide

/-- **The name that a text gives a project**: the one behind the first label that has
a word behind it. -/
def GivesProject (text name : List Char) : Prop :=
  ∃ front rest, text = front ++ rest ∧ BeginsWithName rest name ∧
    ∀ front' rest', text = front' ++ rest' → BeginsWithProject rest' → front.length ≤ front'.length

theorem GivesProject.namesProject {text name : List Char} (h : GivesProject text name) :
    NamesProject text := by
  obtain ⟨front, rest, htext, hname, -⟩ := h
  exact ⟨front, rest, htext, beginsWithProject_iff.2 ⟨name, hname⟩⟩

/-- The first label counts, and if it is at the front of the text, there is none
before it. -/
theorem givesProject_of_begins {text name : List Char} (h : BeginsWithProject text) :
    GivesProject text name ↔ BeginsWithName text name := by
  constructor
  · rintro ⟨front, rest, rfl, hname, hfirst⟩
    have hfront : front = [] := List.length_eq_zero_iff.1 (Nat.le_zero.1 (hfirst [] _ rfl h))
    rwa [hfront]
  · exact fun hname => ⟨[], text, rfl, hname, fun _ _ _ _ => Nat.zero_le _⟩

/-- What is not the label can be left out at the front. -/
theorem givesProject_cons {c : Char} {rest name : List Char} (h : ¬ BeginsWithProject (c :: rest)) :
    GivesProject (c :: rest) name ↔ GivesProject rest name := by
  have hlater {front behind : List Char} (htext : c :: rest = front ++ behind)
      (hbegins : BeginsWithProject behind) :
      ∃ later, front = c :: later ∧ rest = later ++ behind := by
    cases front with
    | nil => exact absurd (htext ▸ hbegins) h
    | cons d later =>
      obtain ⟨rfl, hrest⟩ := List.cons_eq_cons.1 htext
      exact ⟨later, rfl, hrest⟩
  constructor
  · rintro ⟨front, behind, htext, hname, hfirst⟩
    obtain ⟨later, rfl, rfl⟩ := hlater htext (beginsWithProject_iff.2 ⟨name, hname⟩)
    refine ⟨later, behind, rfl, hname, fun front' rest' hrest hbegins => ?_⟩
    exact Nat.le_of_succ_le_succ (hfirst (c :: front') rest' (congrArg (c :: ·) hrest) hbegins)
  · rintro ⟨front, behind, rfl, hname, hfirst⟩
    refine ⟨c :: front, behind, rfl, hname, fun front' rest' htext hbegins => ?_⟩
    obtain ⟨later, rfl, hrest⟩ := hlater htext hbegins
    exact Nat.succ_le_succ (hfirst later rest' hrest hbegins)

/-- **The name that a project is announced by is the one that the text gives it.** -/
theorem announcedProject?_eq_some_iff {text name : List Char} :
    announcedProject? text = some name ↔ GivesProject text name := by
  induction text with
  | nil => exact iff_of_false nofun fun h => not_namesProject_nil h.namesProject
  | cons c rest ih =>
    rw [announcedProject?]
    by_cases hbegins : BeginsWithProject (c :: rest)
    · obtain ⟨found, hfound⟩ := Option.ne_none_iff_exists'.1
        (mt labelledName?_eq_none_iff.1 (not_not_intro hbegins))
      rw [givesProject_of_begins hbegins, ← labelledName?_eq_some_iff, hfound, Option.some_or]
    · rw [labelledName?_eq_none_iff.2 hbegins, Option.none_or, ih, givesProject_cons hbegins]

/-- **A name behind the label is announced.** -/
theorem announcedProject?_append {name blanks : List Char} (hname : IsName name)
    (hblanks : ∀ b ∈ blanks, isBlank b = true) :
    announcedProject? (projectLabel ++ (blanks ++ name)) = some name := by
  have hbegins : BeginsWithName (projectLabel ++ (blanks ++ name)) name :=
    ⟨blanks, [], by rw [List.append_nil], hblanks, hname, nofun⟩
  rw [announcedProject?_eq_some_iff,
    givesProject_of_begins (beginsWithProject_iff.2 ⟨name, hbegins⟩)]
  exact hbegins

/-! ## Notes -/

/-- **A path that a note carries**: it can be told from the spaces before it,
stays on its line, and looks like no project. -/
structure IsNotePath (path : List Char) : Prop where
  /-- There is a path. -/
  ne_nil : path ≠ []
  /-- The spaces before it end. -/
  head?_ne : path.head? ≠ some ' '
  /-- It stays on its line. -/
  newline : '\n' ∉ path
  /-- It names no project. -/
  project : ¬ NamesProject path

theorem isNotePath_iff {path : List Char} :
    IsNotePath path ↔
      path ≠ [] ∧ path.head? ≠ some ' ' ∧ '\n' ∉ path ∧ ¬ NamesProject path :=
  ⟨fun h => ⟨h.ne_nil, h.head?_ne, h.newline, h.project⟩, fun h => ⟨h.1, h.2.1, h.2.2.1, h.2.2.2⟩⟩

instance (path : List Char) : Decidable (IsNotePath path) :=
  decidable_of_iff _ isNotePath_iff.symm

/-- The spaces that count the depth, and the path. -/
theorem depthAndPath_append {path : List Char} (h : path.head? ≠ some ' ') (depth : Nat) :
    depthAndPath (List.replicate depth ' ' ++ path) = (depth, path) := by
  have hspaces : ∀ c ∈ List.replicate depth ' ', (c == ' ') = true := by simp
  have htake : path.takeWhile (· == ' ') = [] := by
    cases path with
    | nil => rfl
    | cons c rest => exact List.takeWhile_cons_of_neg (by simpa using h)
  have hdrop : path.dropWhile (· == ' ') = path := by
    cases path with
    | nil => rfl
    | cons c rest => exact List.dropWhile_cons_of_neg (by simpa using h)
  unfold depthAndPath
  rw [List.takeWhile_append_of_pos hspaces, List.dropWhile_append_of_pos hspaces, htake, hdrop,
    List.append_nil, List.length_replicate]

/-- **What follows the phrase is carried by the note**, if it is something and stays on
its line. -/
theorem announcedNote?_eq_some_iff {rest raw : List Char} :
    announcedNote? rest = some raw ↔ rest = includeLabel ++ raw ∧ raw ≠ [] ∧ '\n' ∉ raw := by
  unfold announcedNote?
  cases hlabel : includeLabel.isPrefixOf? rest with
  | none =>
    refine iff_of_false nofun ?_
    rintro ⟨rfl, -⟩
    rw [List.isPrefixOf?_eq_some_iff_append_eq.2 rfl] at hlabel
    cases hlabel
  | some behind =>
    obtain rfl := List.isPrefixOf?_eq_some_iff_append_eq.1 hlabel
    show (if behind.isEmpty = true ∨ '\n' ∈ behind then none else some behind) = some raw ↔ _
    rw [List.append_cancel_left_eq]
    constructor
    · intro h
      split at h
      · cases h
      · next hraw =>
        obtain rfl := Option.some.inj h
        rw [List.isEmpty_iff, not_or] at hraw
        exact ⟨rfl, hraw⟩
    · rintro ⟨rfl, hraw⟩
      refine if_neg ?_
      rw [List.isEmpty_iff, not_or]
      exact hraw

/-- **What a note announces**: nothing but that it is filtered, if the filter accepts it,
and otherwise its header, if it has a path. -/
theorem ofNote_append {path : List Char} (h : path.head? ≠ some ' ') (filter : Option PathFilter)
    (depth : Nat) :
    Announcement.ofNote filter (List.replicate depth ' ' ++ path) =
      if isFiltered filter (List.replicate depth ' ' ++ path) then .filtered
      else if path = [] then .nothing else .header depth (String.ofList path) := by
  unfold Announcement.ofNote
  rw [depthAndPath_append h]
  cases path with
  | nil => rfl
  | cons c rest => rfl

/-! ## Streams -/

/-- **What can stand behind the angle of a line**: something that begins with no
blank and stays on its line. -/
structure IsRest (rest : List Char) : Prop where
  /-- There is something. -/
  ne_nil : rest ≠ []
  /-- It begins with no blank. -/
  head? : ∀ c ∈ rest.head?, isBlank c = false
  /-- It stays on its line. -/
  newline : '\n' ∉ rest

/-- **A line of a stream** is a number and an angle, with blanks at will, and
what stands behind. -/
theorem splitStream?_append {before digits between rest : List Char}
    (hbefore : ∀ b ∈ before, isBlank b = true) (hne : digits ≠ [])
    (hdigits : ∀ d ∈ digits, isAsciiDigit d = true) (hvalue : decimalValue digits < UInt32.size)
    (hbetween : ∀ b ∈ between, isBlank b = true) (hrest : IsRest rest) :
    splitStream? (before ++ (digits ++ '>' :: (between ++ rest)))
      = some (UInt32.ofNat (decimalValue digits), rest) := by
  have hdigit : ∀ c ∈ (digits ++ '>' :: (between ++ rest)).head?, isBlank c = false := by
    intro c hc
    rw [List.head?_append_of_ne_nil _ hne] at hc
    exact isBlank_eq_false_of_isAsciiDigit (hdigits c (List.mem_of_mem_head? hc))
  have hangle : ∀ c ∈ ('>' :: (between ++ rest)).head?, isAsciiDigit c = false := by
    rintro c ⟨⟩
    decide
  unfold splitStream?
  rw [dropWhile_run_append hbefore hdigit]
  dsimp only
  rw [takeWhile_run_append hdigits hangle, dropWhile_run_append hdigits hangle]
  show (if _ ∨ ((between ++ rest).dropWhile isBlank).isEmpty ∨
      '\n' ∈ (between ++ rest).dropWhile isBlank ∨ _ then none
    else some (_, (between ++ rest).dropWhile isBlank)) = _
  rw [dropWhile_run_append hbetween hrest.head?]
  refine if_neg ?_
  rintro (h | h | h | h)
  · exact hne (List.isEmpty_iff.1 h)
  · exact hrest.ne_nil (List.isEmpty_iff.1 h)
  · exact hrest.newline h
  · exact absurd hvalue (Nat.not_lt.2 h)

end Log

end IncludeForest
