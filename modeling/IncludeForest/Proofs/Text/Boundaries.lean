import IncludeForest.Proofs.Text.Cut
import IncludeForest.Text.Preview

/-!
# Boundaries are near

A line that is too long to be quoted is cut at a boundary, and the boundary is looked
for backwards from the last byte that may be kept. A character has at most four bytes,
so one is found after three steps at the latest (`exists_isBoundary_near`), and the
search is over long before it could pass the beginning of the line. What it finds is
the last one there is (`boundaryBack?_eq_some_iff`), and what is kept up to there is
the longest beginning of the line that fits, whichever characters stand around the
cut.

What a boundary is can be seen in the bytes alone: no byte of a character but its
first looks like a first one. `isBoundary_toList_iff` says that the boundaries of a
text are the positions of its string that are valid in this sense.
-/

namespace IncludeForest.Text

variable {text : List Char} {n stop : Nat}

/-- The boundaries are the ends of the fronts, and no other offsets. -/
theorem isBoundary_iff :
    isBoundary n text = true ↔ ∃ front back, text = front ++ back ∧ byteLength front = n := by
  rw [isBoundary, Option.isSome_iff_exists]
  constructor
  · rintro ⟨⟨front, back⟩, hcut⟩
    exact ⟨front, back, splitAtByte?_eq_some_iff.1 hcut⟩
  · rintro ⟨front, back, hcut⟩
    exact ⟨(front, back), splitAtByte?_eq_some_iff.2 hcut⟩

/-- **The boundaries of a text are the valid positions of its string**, which are its end
and the positions of the bytes that a character can begin with. -/
theorem isBoundary_toList_iff {s : String} :
    isBoundary n s.toList = true ↔ (String.Pos.Raw.mk n).IsValid s := by
  rw [isBoundary_iff, String.Pos.Raw.isValid_iff_exists_append]
  constructor
  · rintro ⟨front, back, hs, rfl⟩
    refine ⟨String.ofList front, String.ofList back, ?_, ?_⟩
    · rw [← String.ofList_append, ← hs, String.ofList_toList]
    · exact String.Pos.Raw.ext (byteLength_eq front)
  · rintro ⟨front, back, rfl, hn⟩
    refine ⟨front.toList, back.toList, String.toList_append, ?_⟩
    exact (byteLength_toList front).trans (congrArg String.Pos.Raw.byteIdx hn).symm

/-! ## Looking back for one -/

theorem isBoundary_zero (text : List Char) : isBoundary 0 text = true :=
  isBoundary_iff.2 ⟨[], text, rfl, rfl⟩

/-- **There is a boundary among any four offsets in a row.** -/
theorem exists_isBoundary_near (h : n ≤ byteLength text) :
    ∃ stop, stop ≤ n ∧ n ≤ stop + 3 ∧ isBoundary stop text = true := by
  induction text generalizing n with
  | nil => exact ⟨0, Nat.zero_le n, Nat.le_add_right_of_le h, isBoundary_zero []⟩
  | cons c rest ih =>
    rw [byteLength_cons] at h
    by_cases hinside : n < c.utf8Size
    · -- The offset lies in the first character, which has no more than four bytes.
      have hsize := c.utf8Size_le_four
      exact ⟨0, Nat.zero_le n, by omega, isBoundary_zero (c :: rest)⟩
    · obtain ⟨stop, hle, hnear, hstop⟩ := ih (n := n - c.utf8Size) (by omega)
      obtain ⟨front, back, rfl, rfl⟩ := isBoundary_iff.1 hstop
      refine ⟨c.utf8Size + byteLength front, by omega, by omega, ?_⟩
      exact isBoundary_iff.2 ⟨c :: front, back, rfl, byteLength_cons c front⟩

/-- **The way back ends at the last boundary**, and it ends. -/
theorem boundaryBack?_eq_some_iff :
    boundaryBack? text n = some stop ↔
      stop ≤ n ∧ isBoundary stop text = true ∧
        ∀ i, stop < i → i ≤ n → isBoundary i text = false := by
  induction n with
  | zero =>
    rw [boundaryBack?, if_pos (isBoundary_zero text)]
    constructor
    · rintro ⟨⟩
      exact ⟨Nat.le_refl 0, isBoundary_zero text, fun i hi hle => absurd hi (Nat.not_lt.2 hle)⟩
    · rintro ⟨hle, -, -⟩
      rw [Nat.le_zero.1 hle]
  | succ n ih =>
    rw [boundaryBack?]
    by_cases hhere : isBoundary (n + 1) text = true
    · rw [if_pos hhere]
      constructor
      · rintro ⟨⟩
        exact ⟨Nat.le_refl _, hhere, fun i hi hle => absurd hi (Nat.not_lt.2 hle)⟩
      · rintro ⟨hle, -, hlast⟩
        -- No boundary lies behind the last one, so it cannot be before this one.
        rcases Nat.lt_or_eq_of_le hle with hlt | rfl
        · rw [hlast (n + 1) hlt (Nat.le_refl _)] at hhere
          cases hhere
        · rfl
    · rw [if_neg hhere, ih]
      rw [Bool.not_eq_true] at hhere
      constructor
      · rintro ⟨hle, hstop, hlast⟩
        refine ⟨Nat.le_succ_of_le hle, hstop, fun i hi hle' => ?_⟩
        rcases Nat.lt_or_eq_of_le hle' with hlt | rfl
        · exact hlast i hi (Nat.le_of_lt_succ hlt)
        · exact hhere
      · rintro ⟨hle, hstop, hlast⟩
        refine ⟨Nat.le_of_lt_succ (Nat.lt_of_le_of_ne hle ?_), hstop, fun i hi hle' =>
          hlast i hi (Nat.le_succ_of_le hle')⟩
        rintro rfl
        rw [hhere] at hstop
        cases hstop

/-- Inside a text the way back is at most three steps long. -/
theorem exists_boundaryBack? (h : n ≤ byteLength text) :
    ∃ stop, boundaryBack? text n = some stop ∧ stop ≤ n ∧ n ≤ stop + 3 := by
  have hsome : (boundaryBack? text n).isSome = true := by
    induction n with
    | zero => rw [boundaryBack?, if_pos (isBoundary_zero text)]; rfl
    | succ n ih =>
      rw [boundaryBack?]
      split
      · rfl
      · exact ih (Nat.le_of_succ_le h)
  obtain ⟨stop, hback⟩ := Option.isSome_iff_exists.1 hsome
  obtain ⟨hle, -, hlast⟩ := boundaryBack?_eq_some_iff.1 hback
  obtain ⟨near, hnear, hsteps, hboundary⟩ := exists_isBoundary_near h
  have hpast : ¬ stop < near := fun hlt => by
    rw [hlast near hlt hnear] at hboundary
    cases hboundary
  exact ⟨stop, hback, hle, by omega⟩

/-- From the last byte of a character that has four it takes three. -/
example : boundaryBack? ['a', '😀', 'b'] 4 = some 1 := by decide

/-! ## What is kept -/

/-- Of two beginnings of a text the shorter is a beginning of the other. -/
theorem prefix_of_byteLength_le {front front' : List Char} (h : front <+: text)
    (h' : front' <+: text) (hle : byteLength front ≤ byteLength front') : front <+: front' := by
  rcases List.prefix_or_prefix_of_prefix h h' with hshort | ⟨more, rfl⟩
  · exact hshort
  · rw [byteLength_append] at hle
    cases more with
    | nil => exact ⟨[], by rw [List.append_nil, List.append_nil]⟩
    | cons c more =>
      have hpos := c.utf8Size_pos
      rw [byteLength_cons] at hle
      omega

/-- A text begins with another if its characters do. -/
theorem prefix_toList_iff {s t : String} : s.toList <+: t.toList ↔ ∃ rest, t = s ++ rest := by
  constructor
  · rintro ⟨rest, hrest⟩
    refine ⟨String.ofList rest, String.toList_injective ?_⟩
    rw [String.toList_append, String.toList_ofList, hrest]
  · rintro ⟨rest, rfl⟩
    exact String.toList_append ▸ List.prefix_append s.toList rest.toList

/-- A line that is short enough is quoted whole. -/
theorem preview_of_le {line : String} (h : line.utf8ByteSize ≤ 200) : preview line = line := by
  rw [preview, previewBytes, byteLength_toList, if_pos h]

/-- **A line that is too long is quoted up to the last boundary** that leaves it short
enough. -/
theorem preview_of_lt {line : String} (h : 200 < line.utf8ByteSize) :
    ∃ stop, boundaryBack? line.toList 200 = some stop ∧ 197 ≤ stop ∧ stop ≤ 200 ∧
      (preview line).toList <+: line.toList ∧ (preview line).utf8ByteSize = stop := by
  have hlong : 200 < byteLength line.toList := by rwa [byteLength_toList]
  obtain ⟨stop, hback, hle, hnear⟩ := exists_boundaryBack? (Nat.le_of_lt hlong)
  obtain ⟨front, back, hline, hfront⟩ :=
    isBoundary_iff.1 (boundaryBack?_eq_some_iff.1 hback).2.1
  have hcut : splitAtByte? stop line.toList = some (front, back) :=
    splitAtByte?_eq_some_iff.2 ⟨hline, hfront⟩
  have hpreview : preview line = String.ofList front := by
    rw [preview, previewBytes, if_neg (Nat.not_le.2 hlong), hback, Option.bind_some, hcut]
  refine ⟨stop, hback, by omega, hle, ?_, ?_⟩
  · rw [hpreview, String.toList_ofList, hline]
    exact List.prefix_append front back
  · rw [hpreview, ← byteLength_eq, hfront]

/-- **A preview is the longest beginning of the line that fits** into two hundred bytes.
The line begins with the preview, which ends between two characters, and the preview
begins with every beginning of the line that fits. Only a line that fits is quoted whole.
In any other the way back from the two hundredth byte is three steps long at most, so it
does not come to the beginning, and all it passes are offsets inside of characters. -/
theorem preview_exact (line : String) :
    (∃ rest, line = preview line ++ rest) ∧
      (preview line).utf8ByteSize ≤ 200 ∧
      (preview line).rawEndPos.IsValid line ∧
      (∀ front rest : String, line = front ++ rest → front.utf8ByteSize ≤ 200 →
        ∃ more, preview line = front ++ more) ∧
      (preview line = line ↔ line.utf8ByteSize ≤ 200) ∧
      (200 < line.utf8ByteSize →
        ∃ stop, boundaryBack? line.toList 200 = some stop ∧ 197 ≤ stop ∧ stop ≤ 200 ∧
          (preview line).utf8ByteSize = stop ∧
          ∀ i, stop < i → i ≤ 200 → ¬ (String.Pos.Raw.mk i).IsValid line) := by
  have hvalid {s : String} (hs : ∃ rest, line = s ++ rest) : s.rawEndPos.IsValid line :=
    String.Pos.Raw.isValid_iff_exists_append.2 (hs.elim fun rest h => ⟨s, rest, h, rfl⟩)
  rcases Nat.lt_or_ge 200 line.utf8ByteSize with hlong | hshort
  · obtain ⟨stop, hback, hnear, hle, hprefix, hsize⟩ := preview_of_lt hlong
    obtain ⟨-, -, hlast⟩ := boundaryBack?_eq_some_iff.1 hback
    have hpast (i : Nat) (hi : stop < i) (hle : i ≤ 200) :
        ¬ (String.Pos.Raw.mk i).IsValid line := fun h => by
      rw [← isBoundary_toList_iff, hlast i hi hle] at h
      cases h
    have hbegins := prefix_toList_iff.1 hprefix
    refine ⟨hbegins, hsize ▸ hle, hvalid hbegins, fun front rest hline hfits => ?_, ?_,
      fun _ => ⟨stop, hback, hnear, hle, hsize, hpast⟩⟩
    · -- A longer beginning would end at a boundary that the way back has passed.
      refine prefix_toList_iff.1 (prefix_of_byteLength_le ?_ hprefix ?_)
      · exact prefix_toList_iff.2 ⟨rest, hline⟩
      rw [byteLength_toList, byteLength_toList, hsize]
      exact Nat.not_lt.1 fun hlt => hpast _ hlt hfits (hvalid ⟨rest, hline⟩)
    · refine iff_of_false (fun heq => ?_) (Nat.not_le.2 hlong)
      rw [heq] at hsize
      omega
  · have hwhole := preview_of_le hshort
    rw [hwhole]
    have hself : ∃ rest, line = line ++ rest := ⟨"", String.append_empty.symm⟩
    exact ⟨hself, hshort, hvalid hself, fun front rest hline _ => ⟨rest, hline⟩,
      iff_of_true rfl hshort, fun hlong => absurd hlong (Nat.not_lt.2 hshort)⟩

end IncludeForest.Text
