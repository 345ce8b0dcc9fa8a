import Mathlib.Data.List.Basic
import Mathlib.Data.List.TakeWhile
import IncludeForest.Text.CharClass
import IncludeForest.Text.Digits
import IncludeForest.Text.Fields

/-!
# Words, numbers and fields

A line is read in runs of blanks, digits and word characters, and a run ends where
another kind of character begins, so there is one way only to cut a text at the end
of its first run (`run_append_inj`).

A name in a log is recognised by what it is made of: it is trimmed of blanks,
cut at its dots, and each piece has to be a word. Nothing of a name is lost on
the way, because no character is both a blank and part of a word – a fact about
the tables of code points, which `CodeTable.holds_eq_false_of_apart` reduces to
a comparison of ranges – and because a text cut at a separator falls into the
pieces it was joined from (`fields_intercalate`). The digits of a number have its
value and hold no blank either.
-/

namespace IncludeForest.Text

/-! ## Runs -/

section

variable {p : Char → Bool} {run run' rest rest' text : List Char}

/-- Where a run ends, there is a character of another kind, if there is any. -/
theorem head?_dropWhile (p : Char → Bool) (text : List Char) :
    ∀ c ∈ (text.dropWhile p).head?, p c = false := by
  intro c hc
  have hend := text.head?_dropWhile_not p
  rw [Option.mem_def.1 hc] at hend
  exact hend

/-- A text that does not begin with such a character loses none at its front. -/
theorem dropWhile_of_head? (h : ∀ c ∈ text.head?, p c = false) : text.dropWhile p = text := by
  cases text with
  | nil => rfl
  | cons c rest => exact List.dropWhile_cons_of_neg (by rw [h c rfl]; exact Bool.false_ne_true)

/-- A run is taken whole, and nothing behind it. -/
theorem takeWhile_run_append (hrun : ∀ c ∈ run, p c = true)
    (hrest : ∀ c ∈ rest.head?, p c = false) :
    (run ++ rest).takeWhile p = run := by
  rw [List.takeWhile_append_of_pos hrun]
  cases rest with
  | nil => exact List.append_nil run
  | cons c rest =>
    rw [List.takeWhile_cons_of_neg (by rw [hrest c rfl]; exact Bool.false_ne_true), List.append_nil]

/-- What is left behind a run is all that stands there. -/
theorem dropWhile_run_append (hrun : ∀ c ∈ run, p c = true)
    (hrest : ∀ c ∈ rest.head?, p c = false) :
    (run ++ rest).dropWhile p = rest := by
  rw [List.dropWhile_append_of_pos hrun, dropWhile_of_head? hrest]

/-- **A text falls into a run and the rest in one way only.** -/
theorem run_append_inj (hrun : ∀ c ∈ run, p c = true) (hrest : ∀ c ∈ rest.head?, p c = false)
    (hrun' : ∀ c ∈ run', p c = true) (hrest' : ∀ c ∈ rest'.head?, p c = false)
    (h : run ++ rest = run' ++ rest') : run = run' ∧ rest = rest' := by
  have hfront := congrArg (List.takeWhile p) h
  have hback := congrArg (List.dropWhile p) h
  rw [takeWhile_run_append hrun hrest, takeWhile_run_append hrun' hrest'] at hfront
  rw [dropWhile_run_append hrun hrest, dropWhile_run_append hrun' hrest'] at hback
  exact ⟨hfront, hback⟩

end

/-! ## Blanks and words -/

/-- What holds of all characters below a bound can be tried one by one. -/
theorem of_forall_lt {p : Char → Prop} {bound : Nat} (h : ∀ n < bound, p (Char.ofNat n)) {c : Char}
    (hc : c.toNat < bound) : p c := by
  have hp := h c.toNat hc
  rwa [Char.ofNat_toNat] at hp

/-- No character is in two tables whose ranges are apart. -/
theorem CodeTable.holds_eq_false_of_apart (other : CodeTable) {table : CodeTable} {c : Char}
    (h : ∀ r ∈ table, ∀ q ∈ other, r.2 < q.1 ∨ q.2 < r.1) (hc : table.holds c = true) :
    other.holds c = false := by
  obtain ⟨r, hr, hr₁, hr₂⟩ := (table.holds_iff c).1 hc
  refine Bool.eq_false_iff.2 fun hother => ?_
  obtain ⟨q, hq, hq₁, hq₂⟩ := (other.holds_iff c).1 hother
  obtain hlt | hlt := h r hr q hq <;> omega

/-- **No blank belongs to a word.** -/
theorem isWord_eq_false_of_isBlank {c : Char} (h : isBlank c = true) : isWord c = false := by
  unfold isWord
  -- Below 128 there are few enough characters to try them all; above, tables decide.
  by_cases hascii : c.toNat < 128
  · rw [if_pos hascii]
    revert h
    exact of_forall_lt (p := fun c => isBlank c = true → (c.isAlphanum || c == '_') = false)
      (by decide) hascii
  · rw [if_neg hascii,
      CodeTable.holds_eq_false_of_apart alphabeticTable (by decide +kernel) h,
      CodeTable.holds_eq_false_of_apart markTable (by decide +kernel) h,
      CodeTable.holds_eq_false_of_apart decimalDigitTable (by decide +kernel) h,
      CodeTable.holds_eq_false_of_apart connectorTable (by decide +kernel) h]
    rfl

/-- No character of a word is a blank. -/
theorem isBlank_eq_false_of_isWord {c : Char} (h : isWord c = true) : isBlank c = false := by
  refine Bool.eq_false_iff.2 fun hblank => ?_
  rw [isWord_eq_false_of_isBlank hblank] at h
  cases h

/-- What is no blank stays when blanks are dropped. -/
theorem mem_dropWhile_isBlank {text : List Char} {c : Char} (h : c ∈ text)
    (hc : isBlank c = false) : c ∈ text.dropWhile isBlank := by
  rw [← List.takeWhile_append_dropWhile (p := isBlank) (l := text), List.mem_append] at h
  obtain htaken | hrest := h
  · rw [List.mem_takeWhile_imp htaken] at hc
    cases hc
  · exact hrest

/-- What is no blank stays when a text is trimmed. -/
theorem mem_trimBlanks {text : List Char} {c : Char} (h : c ∈ text) (hc : isBlank c = false) :
    c ∈ trimBlanks text := by
  unfold trimBlanks
  rw [List.mem_reverse]
  refine mem_dropWhile_isBlank ?_ hc
  rw [List.mem_reverse]
  exact mem_dropWhile_isBlank h hc

/-- Blanks and nothing else are trimmed. -/
theorem exists_append_trimBlanks (text : List Char) :
    ∃ before after, text = before ++ (trimBlanks text ++ after) ∧
      (∀ b ∈ before, isBlank b = true) ∧ ∀ b ∈ after, isBlank b = true := by
  refine ⟨text.takeWhile isBlank, ((text.dropWhile isBlank).reverse.takeWhile isBlank).reverse,
    ?_, fun _ => List.mem_takeWhile_imp,
    fun _ hb => List.mem_takeWhile_imp (List.mem_reverse.1 hb)⟩
  unfold trimBlanks
  rw [← List.reverse_append, List.takeWhile_append_dropWhile, List.reverse_reverse,
    List.takeWhile_append_dropWhile]

/-- All blanks are trimmed, as far as nothing else stands before or behind them. -/
theorem trimBlanks_append {before text after : List Char} (hbefore : ∀ b ∈ before, isBlank b = true)
    (hne : text ≠ []) (h : ∀ c ∈ text, isBlank c = false) (hafter : ∀ b ∈ after, isBlank b = true) :
    trimBlanks (before ++ (text ++ after)) = text := by
  have hfirst : ∀ c ∈ (text ++ after).head?, isBlank c = false := by
    intro c hc
    rw [List.head?_append_of_ne_nil _ hne] at hc
    exact h c (List.mem_of_mem_head? hc)
  have hlast : ∀ c ∈ text.reverse.head?, isBlank c = false := fun c hc =>
    h c (List.mem_reverse.1 (List.mem_of_mem_head? hc))
  unfold trimBlanks
  rw [dropWhile_run_append hbefore hfirst, List.reverse_append,
    dropWhile_run_append (fun b hb => hafter b (List.mem_reverse.1 hb)) hlast, List.reverse_reverse]

/-! ## Numbers -/

theorem isBlank_eq_false_of_isAsciiDigit {c : Char} (h : isAsciiDigit c = true) :
    isBlank c = false := by
  have hascii : c.toNat < 128 := by
    rw [isAsciiDigit, Bool.and_eq_true, decide_eq_true_eq, decide_eq_true_eq, Char.le_def,
      Char.le_def, UInt32.le_iff_toNat_le, UInt32.le_iff_toNat_le] at h
    exact Nat.lt_of_le_of_lt h.2 (by decide)
  revert h
  exact of_forall_lt (p := fun c => isAsciiDigit c = true → isBlank c = false) (by decide) hascii

theorem isAsciiDigit_of_mem_toDigits {n : Nat} {c : Char} (h : c ∈ Nat.toDigits 10 n) :
    isAsciiDigit c = true := by
  have hdigit := Nat.isDigit_of_mem_toDigits (by decide) (by decide) h
  unfold Char.isDigit at hdigit
  exact hdigit

/-- The value of some digits is the number that they stand for to the base 10. -/
theorem decimalValue_eq_ofDigitChars (digits : List Char) :
    decimalValue digits = Nat.ofDigitChars 10 digits 0 := by
  have hstep : (fun value (c : Char) => value * 10 + (c.toNat - '0'.toNat))
      = fun value c => 10 * value + (c.toNat - '0'.toNat) := by
    funext value c
    rw [Nat.mul_comm]
  unfold decimalValue
  rw [hstep, ← Nat.ofDigitChars_eq_foldl]

/-- **The digits of a number have its value.** -/
theorem decimalValue_toDigits (n : Nat) : decimalValue (Nat.toDigits 10 n) = n := by
  rw [decimalValue_eq_ofDigitChars]
  exact Nat.ofDigitChars_ten_toDigits

/-! ## Fields -/

variable {sep : Char}

/-- A text without a separator is one field. -/
theorem fields_of_notMem {field : List Char} (h : sep ∉ field) : fields sep field = [field] := by
  induction field with
  | nil => rfl
  | cons c rest ih =>
    rw [List.mem_cons, not_or] at h
    rw [fields, ih h.2]
    exact if_neg (Ne.symm h.1)

/-- The first field ends at the first separator. -/
theorem fields_append_cons {field : List Char} (h : sep ∉ field) (rest : List Char) :
    fields sep (field ++ sep :: rest) = field :: fields sep rest := by
  induction field with
  | nil =>
    rw [List.nil_append, fields]
    cases hrest : fields sep rest with
    | nil => exact absurd hrest (fields_ne_nil sep rest)
    | cons first more => exact if_pos rfl
  | cons c field ih =>
    rw [List.mem_cons, not_or] at h
    rw [List.cons_append, fields, ih h.2]
    exact if_neg (Ne.symm h.1)

/-- **Texts that are joined by a separator are the fields again**, if none of
them holds it. -/
theorem fields_intercalate :
    {words : List (List Char)} → words ≠ [] → (∀ word ∈ words, sep ∉ word) →
      fields sep ([sep].intercalate words) = words
  | [], hne, _ => absurd rfl hne
  | [word], _, h => by
    rw [List.intercalate_singleton]
    exact fields_of_notMem (h word List.mem_cons_self)
  | word :: next :: words, _, h => by
    have hlater := fields_intercalate (List.cons_ne_nil next words)
      fun w hw => h w (List.mem_cons_of_mem word hw)
    have hjoined : [sep].intercalate (word :: next :: words)
        = word ++ sep :: [sep].intercalate (next :: words) := by
      rw [List.intercalate_cons_cons, List.append_assoc]
      rfl
    rw [hjoined, fields_append_cons (h word List.mem_cons_self), hlater]

/-- What joined texts hold is in the separator or in one of them. -/
theorem mem_or_mem_of_mem_intercalate {between : List Char} {words : List (List Char)} {c : Char}
    (h : c ∈ between.intercalate words) : c ∈ between ∨ ∃ word ∈ words, c ∈ word := by
  induction words with
  | nil => cases h
  | cons word words ih =>
    cases words with
    | nil =>
      rw [List.intercalate_singleton] at h
      exact .inr ⟨word, List.mem_cons_self, h⟩
    | cons next words =>
      rw [List.intercalate_cons_cons, List.append_assoc, List.mem_append, List.mem_append] at h
      obtain hword | hbetween | hrest := h
      · exact .inr ⟨word, List.mem_cons_self, hword⟩
      · exact .inl hbetween
      · exact (ih hrest).imp_right fun ⟨w, hw, hc⟩ => ⟨w, List.mem_cons_of_mem _ hw, hc⟩

end IncludeForest.Text
