import Mathlib.Data.List.Basic
import IncludeForest.Pattern.Basic

/-!
# What patterns match

A pattern is run on rows of positions, all of them at once. What it means is said here
one match at a time: `Pattern.Matches` is about a stretch of a text, given with what
stands before it and behind it, since an assertion asks for the neighbours of a
position and takes nothing.

## Standing still

A repetition is a number of passes (`Passes`). A pass that takes nothing can be made
once more or left out. So a stretch that falls into more passes than it has characters
falls into any greater number of them (`Passes.of_length_lt`), and one that falls into
many falls into as few as it has characters (`Passes.of_length_le`). Only as many passes
as there are characters have to be looked for, and one more (`exists_passes_iff`).
-/

namespace IncludeForest

namespace Pattern

/-- **Whether a stretch of a text falls into so many passes**, each of which matches
where it stands. -/
def Passes (matched : List Char → List Char → List Char → Prop) :
    Nat → List Char → List Char → List Char → Prop
  | 0, _, word, _ => word = []
  | n + 1, before, word, behind =>
    ∃ first rest, word = first ++ rest ∧ matched before first (rest ++ behind) ∧
      Passes matched n (before ++ first) rest behind

/-- **Whether a pattern matches a stretch of a text**, between what stands before it and
what stands behind it. A repetition never makes fewer passes than its least, even if its
most is smaller. -/
def Matches : Pattern → List Char → List Char → List Char → Prop
  | empty, _, word, _ => word = []
  | char set, _, word, _ => ∃ c, word = [c] ∧ set.contains c = true
  | look assertion, before, word, behind =>
    word = [] ∧ assertion.holds before.getLast? behind.head? = true
  | seq p q, before, word, behind =>
    ∃ first rest, word = first ++ rest ∧ p.Matches before first (rest ++ behind) ∧
      q.Matches (before ++ first) rest behind
  | alt p q, before, word, behind => p.Matches before word behind ∨ q.Matches before word behind
  | times p least most, before, word, behind =>
    ∃ n, least ≤ n ∧ (∀ m ∈ most, n ≤ max least m) ∧ Passes p.Matches n before word behind

/-- **Whether a pattern matches somewhere in a text.** -/
def MatchesIn (p : Pattern) (text : List Char) : Prop :=
  ∃ before word behind, text = before ++ (word ++ behind) ∧ p.Matches before word behind

/-! ## Passes -/

section

variable {matched : List Char → List Char → List Char → Prop} {m n : Nat}
  {before word behind : List Char}

/-- Some passes and some more are passes one after the other. -/
theorem passes_add :
    Passes matched (m + n) before word behind ↔
      ∃ first rest, word = first ++ rest ∧ Passes matched m before first (rest ++ behind) ∧
        Passes matched n (before ++ first) rest behind := by
  induction m generalizing before word with
  | zero =>
    rw [Nat.zero_add]
    constructor
    · intro h
      exact ⟨[], word, rfl, rfl, by rwa [List.append_nil]⟩
    · rintro ⟨_, rest, rfl, rfl, h⟩
      rwa [List.append_nil] at h
  | succ m ih =>
    rw [Nat.succ_add]
    constructor
    · rintro ⟨first, rest, rfl, hfirst, hrest⟩
      obtain ⟨second, rest, rfl, hsecond, hrest⟩ := ih.1 hrest
      refine ⟨first ++ second, rest, (List.append_assoc ..).symm, ⟨first, second, rfl, ?_, hsecond⟩,
        by rwa [← List.append_assoc]⟩
      rwa [← List.append_assoc]
    · rintro ⟨_, rest, rfl, ⟨first, second, rfl, hfirst, hsecond⟩, hrest⟩
      refine ⟨first, second ++ rest, List.append_assoc .., by rwa [List.append_assoc],
        ih.2 ⟨second, rest, rfl, hsecond, ?_⟩⟩
      rwa [List.append_assoc]

theorem passes_one : Passes matched 1 before word behind ↔ matched before word behind := by
  constructor
  · rintro ⟨first, _, rfl, h, rfl⟩
    rwa [List.append_nil]
  · exact fun h => ⟨word, [], (List.append_nil word).symm, h, rfl⟩

/-- A pass that takes nothing can be made any number of times before the others. -/
theorem Passes.of_still (hstill : matched before [] (word ++ behind))
    (h : Passes matched n before word behind) (extra : Nat) :
    Passes matched (extra + n) before word behind := by
  induction extra with
  | zero => rwa [Nat.zero_add]
  | succ extra ih =>
    rw [Nat.succ_add]
    exact ⟨[], word, rfl, hstill, by rwa [List.append_nil]⟩

/-- **Passes that take nothing can be left out.** -/
theorem Passes.of_length_le (h : Passes matched n before word behind) (hword : word.length ≤ m)
    (hm : m ≤ n) : Passes matched m before word behind := by
  induction n generalizing before word m with
  | zero =>
    obtain rfl := Nat.le_zero.1 hm
    exact h
  | succ n ih =>
    obtain rfl | hm := Nat.eq_or_lt_of_le hm
    · exact h
    · obtain ⟨first, rest, rfl, hfirst, hrest⟩ := h
      cases first with
      | nil =>
        rw [List.append_nil] at hrest
        exact ih hrest hword (Nat.le_of_lt_succ hm)
      | cons c first =>
        rw [List.length_append, List.length_cons] at hword
        cases m with
        | zero => omega
        | succ m => exact ⟨c :: first, rest, rfl, hfirst, ih hrest (by omega) (by omega)⟩

/-- **Of more passes than characters one takes nothing**, and it can be made again. -/
theorem Passes.of_length_lt (h : Passes matched n before word behind) (hword : word.length < n)
    (hm : n ≤ m) : Passes matched m before word behind := by
  induction n generalizing before word m with
  | zero => exact absurd hword (Nat.not_lt_zero _)
  | succ n ih =>
    obtain ⟨first, rest, rfl, hfirst, hrest⟩ := h
    cases first with
    | nil =>
      obtain ⟨extra, rfl⟩ := Nat.exists_eq_add_of_le' hm
      have hall : Passes matched (n + 1) before rest behind := ⟨[], rest, rfl, hfirst, hrest⟩
      exact hall.of_still hfirst extra
    | cons c first =>
      rw [List.length_append, List.length_cons] at hword
      cases m with
      | zero => omega
      | succ m => exact ⟨c :: first, rest, rfl, hfirst, ih hrest (by omega) (by omega)⟩

/-- **A repetition can be told from few passes.** `bound` is more than there are
characters; no more passes than that are required, and no more besides. -/
theorem exists_passes_iff {least : Nat} {most : Option Nat} {bound : Nat}
    (hbound : word.length < bound) :
    (∃ n, least ≤ n ∧ (∀ k ∈ most, n ≤ max least k) ∧ Passes matched n before word behind) ↔
      ∃ n ≤ min ((most.map (· - least)).getD bound) bound,
        Passes matched (min least bound + n) before word behind := by
  constructor
  · rintro ⟨n, hleast, hmost, h⟩
    refine ⟨min (n - least) bound, ?_, ?_⟩
    · cases most with
      | none => exact Nat.le_min.2 ⟨Nat.min_le_right _ _, Nat.min_le_right _ _⟩
      | some k =>
        have hk := hmost k rfl
        show _ ≤ min (k - least) bound
        omega
    · by_cases hshort : min least bound + min (n - least) bound = n
      · rwa [hshort]
      · exact h.of_length_le (by omega) (by omega)
  · rintro ⟨n, hn, h⟩
    have hmost : ∀ k ∈ most, least + n ≤ max least k := by
      rintro k rfl
      have hk : n ≤ min (k - least) bound := hn
      omega
    refine ⟨least + n, Nat.le_add_right _ _, hmost, ?_⟩
    by_cases hleast : least ≤ bound
    · rwa [Nat.min_eq_left hleast] at h
    · rw [Nat.min_eq_right (Nat.le_of_not_le hleast)] at h
      exact h.of_length_lt (by omega) (by omega)

end

/-! ## Sequences and runs -/

variable {before word behind : List Char}

theorem matches_sequence_cons {p : Pattern} {ps : List Pattern} :
    (sequence (p :: ps)).Matches before word behind ↔
      ∃ first rest, word = first ++ rest ∧ p.Matches before first (rest ++ behind) ∧
        (sequence ps).Matches (before ++ first) rest behind := by
  cases ps with
  | nil =>
    show p.Matches before word behind ↔ _
    constructor
    · exact fun h => ⟨word, [], (List.append_nil word).symm, h, rfl⟩
    · rintro ⟨first, _, rfl, h, rfl⟩
      rwa [List.append_nil]
  | cons q ps => rfl

/-- **A sequence matches what its parts match one after the other.** -/
theorem matches_sequence_append {ps qs : List Pattern} :
    (sequence (ps ++ qs)).Matches before word behind ↔
      ∃ first rest, word = first ++ rest ∧ (sequence ps).Matches before first (rest ++ behind) ∧
        (sequence qs).Matches (before ++ first) rest behind := by
  induction ps generalizing before word with
  | nil =>
    constructor
    · exact fun h => ⟨[], word, rfl, rfl, by rwa [List.append_nil]⟩
    · rintro ⟨_, rest, rfl, rfl, h⟩
      rwa [List.append_nil] at h
  | cons p ps ih =>
    rw [List.cons_append, matches_sequence_cons]
    constructor
    · rintro ⟨first, rest, rfl, hfirst, hrest⟩
      obtain ⟨second, rest, rfl, hsecond, hrest⟩ := ih.1 hrest
      refine ⟨first ++ second, rest, (List.append_assoc ..).symm, ?_,
        by rwa [← List.append_assoc]⟩
      exact matches_sequence_cons.2 ⟨first, second, rfl, by rwa [← List.append_assoc], hsecond⟩
    · rintro ⟨_, rest, rfl, hparts, hrest⟩
      obtain ⟨first, second, rfl, hfirst, hsecond⟩ := matches_sequence_cons.1 hparts
      refine ⟨first, second ++ rest, List.append_assoc .., by rwa [List.append_assoc],
        ih.2 ⟨second, rest, rfl, hsecond, ?_⟩⟩
      rwa [List.append_assoc]

/-- The characters of a text, one after the other, as patterns. -/
def literal (text : String) : List Pattern :=
  text.toList.map fun c => char (.single c)

theorem contains_single {c d : Char} : (CharSet.single c).contains d = true ↔ d = c := by
  show decide (c ≤ d ∧ d ≤ c) = true ↔ d = c
  rw [decide_eq_true_iff]
  constructor
  · rintro ⟨hle, hge⟩
    exact Char.le_antisymm hge hle
  · rintro rfl
    exact ⟨Char.le_refl d, Char.le_refl d⟩

/-- **A literal matches its text** and nothing else. -/
theorem matches_literal {text : String} :
    (sequence (literal text)).Matches before word behind ↔ word = text.toList := by
  unfold literal
  generalize text.toList = chars
  induction chars generalizing before word with
  | nil => rfl
  | cons c chars ih =>
    rw [List.map_cons, matches_sequence_cons]
    constructor
    · rintro ⟨_, rest, rfl, ⟨d, rfl, hd⟩, hrest⟩
      rw [ih.1 hrest, contains_single.1 hd]
      rfl
    · rintro rfl
      exact ⟨[c], chars, rfl, ⟨c, rfl, contains_single.2 rfl⟩, ih.2 rfl⟩

/-- Passes of one set are as many characters of it. -/
theorem passes_char {set : CharSet} {n : Nat} :
    Passes (char set).Matches n before word behind ↔
      word.length = n ∧ ∀ c ∈ word, set.contains c = true := by
  induction n generalizing before word with
  | zero =>
    rw [List.length_eq_zero_iff]
    constructor
    · rintro rfl
      exact ⟨rfl, nofun⟩
    · exact fun h => h.1
  | succ n ih =>
    constructor
    · rintro ⟨_, rest, rfl, ⟨c, rfl, hc⟩, hrest⟩
      obtain ⟨hlength, hall⟩ := ih.1 hrest
      exact ⟨congrArg (· + 1) hlength, List.forall_mem_cons.2 ⟨hc, hall⟩⟩
    · rintro ⟨hlength, hall⟩
      obtain ⟨c, rest, rfl⟩ := List.exists_of_length_succ word hlength
      obtain ⟨hc, hall⟩ := List.forall_mem_cons.1 hall
      exact ⟨[c], rest, rfl, ⟨c, rfl, hc⟩, ih.2 ⟨Nat.succ.inj hlength, hall⟩⟩

/-- **A set that is repeated at least once matches a run of its characters.** -/
theorem matches_run {set : CharSet} :
    (times (char set) 1 none).Matches before word behind ↔
      word ≠ [] ∧ ∀ c ∈ word, set.contains c = true := by
  constructor
  · rintro ⟨n, hn, -, h⟩
    obtain ⟨rfl, hall⟩ := passes_char.1 h
    exact ⟨List.length_pos_iff.1 hn, hall⟩
  · rintro ⟨hne, hall⟩
    exact ⟨word.length, List.length_pos_iff.2 hne, nofun, passes_char.2 ⟨rfl, hall⟩⟩

end Pattern

end IncludeForest
