import Mathlib.Data.List.Basic
import IncludeForest.Text.Preview

/-!
# Lines by cutting

`lines` goes through a text once, character by character, and keeps what it has
of a line backwards. What comes out can be said without going through anything:
the text is cut at every line feed, the pieces before the last lose a return at
their ends, and the last is a line if there is anything in it. `cutLines` says
this, and `lines_eq_cutLines` that it is the same.

Nothing in it is about characters, so `cutLines` tells the lines of a byte string
as well. Whatever is cut, it is one line and the text after it, or the last piece
alone (`induction_on_lines`); and which line stands at a number depends on the
piece that stands there (`getElem?_cutLines`).
-/

namespace IncludeForest.Text

section

variable {α : Type} [DecidableEq α] {feed ret : α} {piece : List α}

/-- A piece without the return that it ends in, if it does. -/
def withoutReturn (ret : α) (piece : List α) : List α :=
  if piece.getLast? = some ret then piece.dropLast else piece

/-- **The lines of a text, by cutting it** at every line feed. -/
def cutLines (feed ret : α) (text : List α) : List (List α) :=
  let pieces := text.splitOn feed
  pieces.dropLast.map (withoutReturn ret) ++ (pieces.getLast?.filter (!·.isEmpty)).toList

/-- **A text is a line and what comes after it**, or the last piece of one. -/
theorem induction_on_lines {motive : List α → Prop} (feed : α)
    (last : ∀ piece, feed ∉ piece → motive piece)
    (line : ∀ piece rest, feed ∉ piece → motive rest → motive (piece ++ feed :: rest))
    (text : List α) : motive text := by
  by_cases h : feed ∈ text
  · obtain ⟨piece, rest, htext, hpiece⟩ := List.eq_append_cons_of_mem h
    have hshorter : rest.length < text.length := by
      rw [htext, List.length_append, List.length_cons]
      omega
    rw [htext]
    exact line piece rest hpiece (induction_on_lines feed last line rest)
  · exact last text h
termination_by text.length

/-- The last piece is a line if there is anything in it. -/
theorem cutLines_of_notMem (h : feed ∉ piece) :
    cutLines feed ret piece = if piece.isEmpty then [] else [piece] := by
  unfold cutLines
  rw [List.splitOn_eq_singleton h]
  cases piece <;> rfl

/-- A piece before a line feed is a line. -/
theorem cutLines_append_cons (h : feed ∉ piece) (rest : List α) :
    cutLines feed ret (piece ++ feed :: rest)
      = withoutReturn ret piece :: cutLines feed ret rest := by
  obtain ⟨first, pieces, hrest⟩ := List.exists_cons_of_ne_nil (List.splitOn_ne_nil feed rest)
  unfold cutLines
  dsimp only
  rw [List.splitOn_append_cons_self_of_not_mem h, hrest, List.dropLast_cons_cons,
    List.getLast?_cons_cons]
  rfl

/-- **A line depends on its own piece**, and on whether this is the last. -/
theorem getElem?_cutLines (text : List α) (i : Nat) :
    (cutLines feed ret text)[i]? =
      if i + 1 < (text.splitOn feed).length then (text.splitOn feed)[i]?.map (withoutReturn ret)
      else (text.splitOn feed)[i]?.filter (!·.isEmpty) := by
  induction text using induction_on_lines feed generalizing i with
  | last piece h =>
    rw [cutLines_of_notMem h, List.splitOn_eq_singleton h]
    cases i with
    | zero => cases piece <;> rfl
    | succ i => cases piece <;> rfl
  | line piece rest h ih =>
    have hpos := List.length_pos_of_ne_nil (List.splitOn_ne_nil feed rest)
    rw [cutLines_append_cons h, List.splitOn_append_cons_self_of_not_mem h, List.length_cons]
    cases i with
    | zero =>
      rw [if_pos (by omega)]
      rfl
    | succ i =>
      rw [List.getElem?_cons_succ, List.getElem?_cons_succ, ih]
      exact if_congr (Nat.add_lt_add_iff_right).symm rfl rfl

end

/-! ## Character by character -/

variable {piece : List Char}

/-- A piece that is read backwards loses its return at its front. -/
theorem reverse_dropReturn (piece : List Char) :
    (dropReturn piece.reverse).reverse = withoutReturn '\r' piece := by
  obtain rfl | ⟨front, c, rfl⟩ := piece.eq_nil_or_concat
  · rfl
  · rw [List.concat_eq_append, List.reverse_append, List.reverse_singleton, List.singleton_append,
      withoutReturn, List.getLast?_concat, List.dropLast_concat]
    by_cases hc : c = '\r'
    · rw [hc, if_pos rfl, dropReturn, List.reverse_reverse]
    · have hkept : dropReturn (c :: front.reverse) = c :: front.reverse := by
        unfold dropReturn
        split
        · next heq => exact absurd (List.cons.inj heq).1 hc
        · rfl
      rw [hkept, if_neg fun h => hc (Option.some.inj h), List.reverse_cons, List.reverse_reverse]

theorem linesAfter_append (h : '\n' ∉ piece) (line rest : List Char) :
    linesAfter line (piece ++ rest) = linesAfter (piece.reverse ++ line) rest := by
  induction piece generalizing line with
  | nil => rfl
  | cons c piece ih =>
    obtain ⟨hc, hpiece⟩ := List.ne_and_not_mem_of_not_mem_cons h
    rw [List.cons_append, linesAfter, if_neg (Ne.symm hc), ih hpiece, List.reverse_cons,
      List.append_assoc]
    rfl

/-- **The lines of a text are those that cutting it gives.** -/
theorem lines_eq_cutLines (text : List Char) : lines text = cutLines '\n' '\r' text := by
  induction text using induction_on_lines '\n' with
  | last piece h =>
    have hread := linesAfter_append h [] []
    rw [List.append_nil, List.append_nil, linesAfter, List.isEmpty_reverse,
      List.reverse_reverse] at hread
    rw [cutLines_of_notMem h]
    exact hread
  | line piece rest h ih =>
    have hread := linesAfter_append h [] ('\n' :: rest)
    rw [List.append_nil, linesAfter, if_pos rfl, reverse_dropReturn] at hread
    rw [cutLines_append_cons h, ← ih]
    exact hread

end IncludeForest.Text
