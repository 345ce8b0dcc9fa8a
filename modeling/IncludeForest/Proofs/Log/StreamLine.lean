import Mathlib.Data.Set.Subsingleton
import IncludeForest.Proofs.Log.Grammar

/-!
# The parts of a stream's line

`splitStream?` goes through a line once, and from its front it takes all blanks, all
digits, an angle and all blanks again. It never goes back to take less. So there is a
question whether a line that it gives up could have been cut elsewhere and be one of
a stream after all.

It could not. A `StreamLine` is a line in its parts, and whatever else the parts are,
each run ends where the next part begins, with a character of another kind. So a line
has its parts in one way only (`StreamLine.text_injective`), and these are the ones
that are taken.

The number is what the digits stand for, however many zeros come first. It may be one
that is too great for a stream. Such a line has its parts, too, but no stream.
-/

namespace IncludeForest

namespace Log

open Text

/-- **A line of a stream in its parts**: a number and an angle, with blanks around them
at will, and what stands behind. -/
@[ext] structure StreamLine where
  /-- The blanks before the number. -/
  before : List Char
  /-- The digits of the number. -/
  digits : List Char
  /-- The blanks behind the angle. -/
  between : List Char
  /-- What stands behind. -/
  rest : List Char
  /-- Blanks and nothing else stand before the number. -/
  isBlank_before : ∀ c ∈ before, isBlank c = true
  /-- There is a number. -/
  digits_ne_nil : digits ≠ []
  /-- It is a decimal one. -/
  isAsciiDigit_digits : ∀ c ∈ digits, isAsciiDigit c = true
  /-- Blanks and nothing else stand behind the angle. -/
  isBlank_between : ∀ c ∈ between, isBlank c = true
  /-- What stands behind them begins with no blank and stays on its line. -/
  isRest : IsRest rest

namespace StreamLine

variable {l l' : StreamLine} {line rest : List Char} {id : StreamId}

/-- **The line that is made of the parts.** -/
def text (l : StreamLine) : List Char :=
  l.before ++ (l.digits ++ '>' :: (l.between ++ l.rest))

/-- **The number that the digits stand for.** -/
def number (l : StreamLine) : Nat :=
  Nat.ofDigitChars 10 l.digits 0

/-- The number ends where the angle stands. -/
theorem head?_angle (l : StreamLine) :
    ∀ c ∈ ('>' :: (l.between ++ l.rest)).head?, isAsciiDigit c = false := by
  rintro c ⟨⟩
  decide

/-- The first blanks end where the number begins. -/
theorem head?_digits (l : StreamLine) (behind : List Char) :
    ∀ c ∈ (l.digits ++ behind).head?, isBlank c = false := by
  intro c hc
  rw [List.head?_append_of_ne_nil _ l.digits_ne_nil] at hc
  exact isBlank_eq_false_of_isAsciiDigit (l.isAsciiDigit_digits c (List.mem_of_mem_head? hc))

/-- **A line has its parts in one way only.** -/
theorem text_injective : Function.Injective text := by
  intro l l' h
  obtain ⟨hbefore, hline⟩ := run_append_inj l.isBlank_before (l.head?_digits _)
    l'.isBlank_before (l'.head?_digits _) h
  obtain ⟨hdigits, hangle⟩ := run_append_inj l.isAsciiDigit_digits l.head?_angle
    l'.isAsciiDigit_digits l'.head?_angle hline
  obtain ⟨hbetween, hrest⟩ := run_append_inj l.isBlank_between l.isRest.head?
    l'.isBlank_between l'.isRest.head? (List.cons.inj hangle).2
  exact StreamLine.ext hbefore hdigits hbetween hrest

/-- **A line is split at its parts**, if its number is one of a stream. -/
theorem splitStream?_text (l : StreamLine) (h : l.number < UInt32.size) :
    splitStream? l.text = some (UInt32.ofNat l.number, l.rest) := by
  unfold number at h ⊢
  rw [← decimalValue_eq_ofDigitChars] at h ⊢
  exact splitStream?_append l.isBlank_before l.digits_ne_nil l.isAsciiDigit_digits h
    l.isBlank_between l.isRest

/-- **A line that is split has parts**, and it is split at these. -/
theorem exists_of_splitStream? (h : splitStream? line = some (id, rest)) :
    ∃ l : StreamLine, l.text = line ∧ l.number = id.toNat ∧ l.rest = rest := by
  unfold splitStream? at h
  dsimp only at h
  split at h
  · next behind hangle =>
    split at h
    · cases h
    · next hparts =>
      simp only [not_or, List.isEmpty_iff, Nat.not_le] at hparts
      obtain ⟨hdigits, hrest, hnewline, hnumber⟩ := hparts
      obtain ⟨rfl, rfl⟩ := Prod.mk.inj (Option.some.inj h)
      refine ⟨⟨line.takeWhile isBlank, (line.dropWhile isBlank).takeWhile isAsciiDigit,
        behind.takeWhile isBlank, behind.dropWhile isBlank, fun _ => List.mem_takeWhile_imp,
        hdigits, fun _ => List.mem_takeWhile_imp, fun _ => List.mem_takeWhile_imp,
        hrest, head?_dropWhile isBlank behind, hnewline⟩, ?_, ?_, rfl⟩
      · show _ ++ (_ ++ '>' :: (_ ++ _)) = line
        rw [List.takeWhile_append_dropWhile, ← hangle, List.takeWhile_append_dropWhile,
          List.takeWhile_append_dropWhile]
      · rw [UInt32.toNat_ofNat_of_lt' hnumber, decimalValue_eq_ofDigitChars]
        rfl
  · cases h

end StreamLine

/-- **A line belongs to a stream exactly if it has the parts of one**, and a number below
2^32. The stream and the rest are then the number and the last of its parts, and there
is no second way to see parts in the line. A line without such parts – because there
is no number, no angle or nothing but blanks behind it, because what stands behind goes
on after a line feed, or because the number is too great – belongs to none. -/
theorem splitStream?_exact (line : List Char) :
    (∀ id rest, splitStream? line = some (id, rest) ↔
      ∃ l : StreamLine, l.text = line ∧ l.number = id.toNat ∧ l.rest = rest) ∧
    {l : StreamLine | l.text = line}.Subsingleton ∧
    (splitStream? line = none ↔ ¬∃ l : StreamLine, l.text = line ∧ l.number < UInt32.size) := by
  have hsplit (l : StreamLine) (hl : l.number < UInt32.size) := l.splitStream?_text hl
  refine ⟨fun id rest => ⟨StreamLine.exists_of_splitStream?, ?_⟩, ?_, ?_⟩
  · rintro ⟨l, rfl, hnumber, rfl⟩
    rw [hsplit l (hnumber ▸ id.toNat_lt_size), hnumber, UInt32.ofNat_toNat]
  · intro l hl l' hl'
    exact StreamLine.text_injective (hl.trans hl'.symm)
  · constructor
    · rintro hnone ⟨l, rfl, hl⟩
      rw [hsplit l hl] at hnone
      cases hnone
    · intro hparts
      rw [Option.eq_none_iff_forall_ne_some]
      rintro ⟨id, rest⟩ hsome
      obtain ⟨l, hl, hnumber, -⟩ := StreamLine.exists_of_splitStream? hsome
      exact hparts ⟨l, hl, hnumber ▸ id.toNat_lt_size⟩

/-- Zeros before the number change nothing, and a line feed may be one of the blanks. -/
example : splitStream? "\u00a0007>\n x y".toList = some (7, "x y".toList) := by decide

end Log

end IncludeForest
