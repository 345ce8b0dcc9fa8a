import IncludeForest.PathFilter
import IncludeForest.Proofs.Pattern.Meaning

/-!
# Running patterns is matching

A pattern maps a row of marked positions to the row of positions where its matches end.
`Pattern.follows_ends` is the statement that it does: a position is marked in the end if
and only if some match that starts at a marked position ends there. From this `isMatch`
is decided by whether there is a match (`isMatch_iff`), and a filter accepts a text in
which one of its patterns matches (`PathFilter.accepts_iff`).

What a row says of positions is all that counts, so every operation on rows has a
statement that says when a position is marked in the result. An operation that takes
each marked position to some others, whatever else is marked, follows a relation between
positions (`Row.Follows`). Such operations can be run one after the other and repeated.

## Spreading

`Row.spread` takes another round only from the positions that the last one was the first
to reach. Nothing is missed, for what the others lead to has been reached already. This
is its invariant, and with it `rounds` of spreading mark what up to as many passes reach
(`Row.marks_spread`).
-/

namespace IncludeForest

namespace Pattern

namespace Row

/-- **Whether a row marks a position.** -/
def Marks (row : Row) (i : Nat) : Prop :=
  row[i]? = some true

theorem anyMarked_iff {row : Row} : row.anyMarked = true ↔ ∃ i, row.Marks i := by
  unfold anyMarked Marks
  rw [List.any_eq_true, ← List.mem_iff_getElem?]
  constructor
  · rintro ⟨mark, hmem, rfl⟩
    exact hmem
  · exact fun hmem => ⟨true, hmem, rfl⟩

theorem Marks.lt {row : Row} {i : Nat} (h : row.Marks i) : i < row.length :=
  (List.getElem?_eq_some_iff.1 h).1

theorem marks_full {text : List Char} {i : Nat} : (full text).Marks i ↔ i ≤ text.length := by
  have hfull : full text = List.replicate (text.length + 1) true := by
    unfold full
    rw [List.map_const', List.replicate_succ]
  rw [Marks, hfull, List.getElem?_replicate, ← Nat.lt_succ_iff]
  constructor
  · intro h
    by_contra hlt
    rw [if_neg hlt] at h
    cases h
  · exact fun h => if_pos h

section

variable {row other : Row} {i : Nat}

theorem length_zipWith_of_eq {f : Bool → Bool → Bool} (h : row.length = other.length) :
    (List.zipWith f row other).length = row.length := by
  rw [List.length_zipWith, h, Nat.min_self]

theorem marks_and : (row.and other).Marks i ↔ row.Marks i ∧ other.Marks i := by
  unfold Marks Row.and
  rw [List.getElem?_zipWith]
  cases row[i]? <;> cases other[i]? <;> simp

theorem marks_or (h : row.length = other.length) :
    (row.or other).Marks i ↔ row.Marks i ∨ other.Marks i := by
  unfold Marks Row.or
  rw [List.getElem?_zipWith]
  by_cases hi : i < row.length
  · rw [List.getElem?_eq_getElem hi, List.getElem?_eq_getElem (h ▸ hi)]
    simp
  · rw [List.getElem?_eq_none (Nat.le_of_not_lt hi),
      List.getElem?_eq_none (h ▸ Nat.le_of_not_lt hi)]
    simp

theorem marks_without (h : row.length = other.length) :
    (row.without other).Marks i ↔ row.Marks i ∧ ¬ other.Marks i := by
  unfold Marks Row.without
  rw [List.getElem?_zipWith]
  by_cases hi : i < row.length
  · rw [List.getElem?_eq_getElem hi, List.getElem?_eq_getElem (h ▸ hi)]
    simp
  · rw [List.getElem?_eq_none (Nat.le_of_not_lt hi),
      List.getElem?_eq_none (h ▸ Nat.le_of_not_lt hi)]
    simp

end

/-! ## Characters and assertions -/

theorem length_advance (set : CharSet) (entering : Bool) {text : List Char} {row : Row}
    (h : row.length = text.length + 1) :
    (advance set entering text row).length = text.length + 1 := by
  induction text generalizing entering row with
  | nil => rfl
  | cons c rest ih =>
    obtain ⟨mark, row, rfl⟩ := List.exists_of_length_succ row h
    exact congrArg (· + 1) (ih _ (Nat.succ.inj h))

/-- **A position is marked behind a character of the set** that stands at a marked one. -/
theorem marks_advance (set : CharSet) (entering : Bool) {text : List Char} {row : Row}
    (h : row.length = text.length + 1) {j : Nat} :
    (advance set entering text row).Marks j ↔
      (j = 0 ∧ entering = true) ∨
        ∃ i c, j = i + 1 ∧ row.Marks i ∧ text[i]? = some c ∧ set.contains c = true := by
  induction text generalizing entering row j with
  | nil =>
    cases j with
    | zero => simp [advance, Marks]
    | succ j => simp [advance, Marks]
  | cons c rest ih =>
    obtain ⟨mark, row, rfl⟩ := List.exists_of_length_succ row h
    cases j with
    | zero => simp [advance, Marks]
    | succ j =>
      show (advance set (mark && set.contains c) rest row).Marks j ↔ _
      rw [ih _ (Nat.succ.inj h), Bool.and_eq_true]
      constructor
      · rintro (⟨rfl, hmark, hc⟩ | ⟨i, d, rfl, hi, hd⟩)
        · exact .inr ⟨0, c, rfl, congrArg some hmark, rfl, hc⟩
        · exact .inr ⟨i + 1, d, rfl, hi, hd⟩
      · rintro (⟨hj, -⟩ | ⟨i, d, hj, hi, hd⟩)
        · cases hj
        · obtain rfl := Nat.succ.inj hj
          cases j with
          | zero =>
            obtain ⟨rfl, hd⟩ : c = d ∧ _ := hd.imp_left Option.some.inj
            exact .inl ⟨rfl, Option.some.inj hi, hd⟩
          | succ i => exact .inr ⟨i, d, rfl, hi, hd⟩

theorem length_asserted (assertion : Assertion) (before : Option Char) (text : List Char) :
    (asserted assertion before text).length = text.length + 1 := by
  induction text generalizing before with
  | nil => rfl
  | cons c rest ih => exact congrArg (· + 1) (ih _)

/-- An assertion is asked of the neighbours of a position. -/
theorem getElem?_asserted (assertion : Assertion) (before : Option Char)
    (front behind : List Char) :
    (asserted assertion before (front ++ behind))[front.length]?
      = some (assertion.holds (front.getLast?.or before) behind.head?) := by
  induction front generalizing before with
  | nil => cases behind <;> rfl
  | cons c front ih =>
    show (asserted assertion (some c) (front ++ behind))[front.length]? = _
    rw [ih, List.getLast?_cons]
    cases front.getLast? <;> rfl

/-! ## Relations between positions -/

/-- **Whether an operation on rows of a length follows a relation** between positions:
marked in the end are the positions that a marked one is related to. -/
structure Follows (size : Nat) (related : Nat → Nat → Prop) (pass : Row → Row) : Prop where
  /-- Rows keep their length. -/
  length {row : Row} (h : row.length = size) : (pass row).length = size
  /-- A position is marked if a marked one is related to it. -/
  marks {row : Row} (h : row.length = size) (j : Nat) :
    (pass row).Marks j ↔ ∃ i, row.Marks i ∧ related i j

namespace Follows

variable {size : Nat} {pass : Row → Row} {related : Nat → Nat → Prop} {row other : Row}

/-- What several rows mark together leads to what each of them leads to. -/
theorem marks_of_or (h : Follows size related pass) (hrow : row.length = size)
    {left right : Row} (hleft : left.length = size) (hright : right.length = size)
    (hor : ∀ i, row.Marks i ↔ left.Marks i ∨ right.Marks i) (j : Nat) :
    (pass row).Marks j ↔ (pass left).Marks j ∨ (pass right).Marks j := by
  rw [h.marks hrow, h.marks hleft, h.marks hright, ← exists_or]
  refine exists_congr fun i => ?_
  rw [hor, or_and_right]

/-- **More marks lead to more marks.** -/
theorem marks_mono (h : Follows size related pass) (hrow : row.length = size)
    (hother : other.length = size) (hsub : ∀ i, row.Marks i → other.Marks i) {j : Nat}
    (hj : (pass row).Marks j) : (pass other).Marks j := by
  rw [h.marks hrow] at hj
  obtain ⟨i, hi, hrelated⟩ := hj
  exact (h.marks hother j).2 ⟨i, hsub i hi, hrelated⟩

/-- One operation after the other follows the relations one after the other. -/
theorem comp (h : Follows size related pass) {pass' : Row → Row} {related' : Nat → Nat → Prop}
    (h' : Follows size related' pass') :
    Follows size (fun i j => ∃ k, related i k ∧ related' k j) (fun row => pass' (pass row)) := by
  refine ⟨fun hrow => h'.length (h.length hrow), fun hrow j => ?_⟩
  rw [h'.marks (h.length hrow)]
  constructor
  · rintro ⟨k, hk, hkj⟩
    obtain ⟨i, hi, hik⟩ := (h.marks hrow k).1 hk
    exact ⟨i, hi, k, hik, hkj⟩
  · rintro ⟨i, hi, k, hik, hkj⟩
    exact ⟨k, (h.marks hrow k).2 ⟨i, hi, hik⟩, hkj⟩

/-- What is related at the positions of a row is all that counts. -/
theorem congr (h : Follows size related pass) {related' : Nat → Nat → Prop}
    (hrelated : ∀ i < size, ∀ j, related i j ↔ related' i j) : Follows size related' pass := by
  refine ⟨h.length, fun hrow j => ?_⟩
  rw [h.marks hrow]
  exact exists_congr fun i => and_congr_right fun hi => hrelated i (hrow ▸ hi.lt) j

end Follows

/-! ## Spreading -/

theorem repeat_succ (pass : Row → Row) (n : Nat) (row : Row) :
    Nat.repeat pass (n + 1) row = Nat.repeat pass n (pass row) := by
  induction n with
  | zero => rfl
  | succ n ih => exact congrArg pass ih

theorem repeat_add (pass : Row → Row) (m n : Nat) (row : Row) :
    Nat.repeat pass (m + n) row = Nat.repeat pass n (Nat.repeat pass m row) := by
  induction n with
  | zero => rfl
  | succ n ih => exact congrArg pass ih

/-- The relation that a number of passes follows. -/
def Steps (related : Nat → Nat → Prop) : Nat → Nat → Nat → Prop
  | 0, i, j => i = j
  | n + 1, i, j => ∃ k, Steps related n i k ∧ related k j

theorem Follows.repeat {size : Nat} {pass : Row → Row} {related : Nat → Nat → Prop}
    (h : Follows size related pass) (n : Nat) :
    Follows size (Steps related n) (Nat.repeat pass n) := by
  induction n with
  | zero =>
    refine ⟨fun h => h, fun _ j => ?_⟩
    show _ ↔ ∃ i, _ ∧ i = j
    rw [exists_eq_right]
    rfl
  | succ n ih => exact ih.comp h

/-- Where no pass leads on, no number of passes does. -/
theorem Follows.marks_of_repeat {size : Nat} {pass : Row → Row} {related : Nat → Nat → Prop}
    {row : Row} (h : Follows size related pass) (hrow : row.length = size)
    (hclosed : ∀ i, (pass row).Marks i → row.Marks i) (n : Nat) {j : Nat}
    (hj : (Nat.repeat pass n row).Marks j) : row.Marks j := by
  induction n generalizing j with
  | zero => exact hj
  | succ n ih => exact hclosed j (h.marks_mono ((h.repeat n).length hrow) hrow (fun _ => ih) hj)

section

variable {size : Nat} {pass : Row → Row} {related : Nat → Nat → Prop} {seen fresh : Row}

theorem length_spread (h : Follows size related pass) (rounds : Nat) (hseen : seen.length = size)
    (hfresh : fresh.length = size) : (spread pass rounds seen fresh).length = size := by
  induction rounds generalizing seen fresh with
  | zero => exact hseen
  | succ rounds ih =>
    have hreached : ((pass fresh).without seen).length = size :=
      (length_zipWith_of_eq ((h.length hfresh).trans hseen.symm)).trans (h.length hfresh)
    rw [spread]
    split
    · exact ih ((length_zipWith_of_eq (hseen.trans hreached.symm)).trans hseen) hreached
    · exact hseen

/-- **Rounds of spreading mark what up to as many passes reach**, if the positions seen
lead only to such as have been seen or as the fresh ones lead to. -/
theorem marks_spread (h : Follows size related pass) (rounds : Nat) (hseen : seen.length = size)
    (hfresh : fresh.length = size) (hsub : ∀ i, fresh.Marks i → seen.Marks i)
    (hnew : ∀ i, (pass seen).Marks i → seen.Marks i ∨ (pass fresh).Marks i) (j : Nat) :
    (spread pass rounds seen fresh).Marks j ↔ ∃ n ≤ rounds, (Nat.repeat pass n seen).Marks j := by
  induction rounds generalizing seen fresh with
  | zero =>
    constructor
    · exact fun hj => ⟨0, Nat.le_refl 0, hj⟩
    · rintro ⟨n, hn, hj⟩
      obtain rfl := Nat.le_zero.1 hn
      exact hj
  | succ rounds ih =>
    have hpass : (pass fresh).length = seen.length := (h.length hfresh).trans hseen.symm
    have hreached : ((pass fresh).without seen).length = size :=
      (length_zipWith_of_eq hpass).trans (h.length hfresh)
    rw [spread]
    split
    · -- What has been seen and reached is what one more pass can lead to.
      have hboth : ∀ i, (seen.or ((pass fresh).without seen)).Marks i ↔
          seen.Marks i ∨ (pass seen).Marks i := by
        intro i
        rw [marks_or (hseen.trans hreached.symm), marks_without hpass]
        constructor
        · rintro (hi | ⟨hi, -⟩)
          · exact .inl hi
          · exact .inr (h.marks_mono hfresh hseen hsub hi)
        · intro hi
          by_cases hold : seen.Marks i
          · exact .inl hold
          · exact .inr ⟨(hnew i (hi.resolve_left hold)).resolve_left hold, hold⟩
      have hsize : (seen.or ((pass fresh).without seen)).length = size :=
        (length_zipWith_of_eq (hseen.trans hreached.symm)).trans hseen
      rw [ih hsize hreached]
      · constructor
        · rintro ⟨n, hn, hj⟩
          obtain hj | hj := ((h.repeat n).marks_of_or hsize hseen (h.length hseen) hboth j).1 hj
          · exact ⟨n, Nat.le_succ_of_le hn, hj⟩
          · exact ⟨n + 1, Nat.succ_le_succ hn, by rwa [repeat_succ]⟩
        · rintro ⟨n, hn, hj⟩
          cases n with
          | zero => exact ⟨0, Nat.zero_le _, (hboth j).2 (.inl hj)⟩
          | succ n =>
            rw [repeat_succ] at hj
            exact ⟨n, Nat.le_of_succ_le_succ hn,
              ((h.repeat n).marks_of_or hsize hseen (h.length hseen) hboth j).2 (.inr hj)⟩
      · intro i hi
        exact (marks_or (hseen.trans hreached.symm)).2 (.inr hi)
      · intro i hi
        obtain hi | hi := (h.marks_of_or hsize hseen hreached
          (fun k => marks_or (hseen.trans hreached.symm)) i).1 hi
        · exact .inl ((hboth i).2 (.inr hi))
        · exact .inr hi
    · -- Nothing new has been reached, so no pass leads on.
      next hnone =>
      have hclosed : ∀ i, (pass seen).Marks i → seen.Marks i := by
        intro i hi
        by_contra hold
        refine hnone (anyMarked_iff.2 ⟨i, (marks_without hpass).2 ⟨?_, hold⟩⟩)
        exact (hnew i hi).resolve_left hold
      constructor
      · exact fun hj => ⟨0, Nat.zero_le _, hj⟩
      · rintro ⟨n, -, hj⟩
        exact h.marks_of_repeat hseen hclosed n hj

end

end Row

open Row

/-! ## Matches between positions -/

/-- **Whether a stretch between two positions of a text is matched.** -/
def Spans (text : List Char) (matched : List Char → List Char → List Char → Prop) (i j : Nat) :
    Prop :=
  ∃ before word behind, text = before ++ (word ++ behind) ∧ before.length = i ∧
    before.length + word.length = j ∧ matched before word behind

section

variable {text : List Char} {matched matched' : List Char → List Char → List Char → Prop}
  {i j : Nat}

theorem spans_congr (h : ∀ before word behind, text = before ++ (word ++ behind) →
    (matched before word behind ↔ matched' before word behind)) :
    Spans text matched i j ↔ Spans text matched' i j :=
  exists_congr fun before => exists_congr fun word => exists_congr fun behind =>
    and_congr_right fun htext => and_congr_right fun _ => and_congr_right fun _ =>
      h before word behind htext

/-- One of several ways to match is a match in one of several ways. -/
theorem spans_exists {ways : Nat → Prop}
    {matchedBy : Nat → List Char → List Char → List Char → Prop} :
    Spans text (fun before word behind => ∃ n, ways n ∧ matchedBy n before word behind) i j ↔
      ∃ n, ways n ∧ Spans text (matchedBy n) i j := by
  constructor
  · rintro ⟨before, word, behind, htext, hi, hj, n, hn, h⟩
    exact ⟨n, hn, before, word, behind, htext, hi, hj, h⟩
  · rintro ⟨n, hn, before, word, behind, htext, hi, hj, h⟩
    exact ⟨before, word, behind, htext, hi, hj, n, hn, h⟩

theorem spans_or :
    Spans text (fun before word behind => matched before word behind ∨ matched' before word behind)
        i j ↔
      Spans text matched i j ∨ Spans text matched' i j := by
  simp only [Spans, and_or_left, exists_or]

/-- **Two stretches that meet are one stretch of two parts.** -/
theorem spans_append :
    Spans text (fun before word behind => ∃ first rest, word = first ++ rest ∧
        matched before first (rest ++ behind) ∧ matched' (before ++ first) rest behind) i j ↔
      ∃ k, Spans text matched i k ∧ Spans text matched' k j := by
  constructor
  · rintro ⟨before, _, behind, rfl, rfl, rfl, first, rest, rfl, hfirst, hrest⟩
    refine ⟨before.length + first.length,
      ⟨before, first, rest ++ behind, by rw [List.append_assoc], rfl, rfl, hfirst⟩,
      before ++ first, rest, behind, by simp only [List.append_assoc], List.length_append, ?_, hrest⟩
    rw [List.length_append, List.length_append, Nat.add_assoc]
  · rintro ⟨k, ⟨before, first, back, rfl, rfl, rfl, hfirst⟩,
      ⟨front, rest, behind, htext, hlength, rfl, hrest⟩⟩
    rw [← List.append_assoc] at htext
    obtain ⟨rfl, rfl⟩ := List.append_inj htext (by rw [List.length_append, hlength])
    refine ⟨before, first ++ rest, behind, by rw [List.append_assoc], rfl, ?_,
      first, rest, rfl, hfirst, hrest⟩
    rw [List.length_append, List.length_append, Nat.add_assoc]

/-- **Passes lead from position to position.** -/
theorem steps_spans {n : Nat} (hi : i ≤ text.length) :
    Steps (Spans text matched) n i j ↔ Spans text (Passes matched n) i j := by
  induction n generalizing j with
  | zero =>
    constructor
    · rintro rfl
      refine ⟨text.take i, [], text.drop i, (List.take_append_drop i text).symm,
        List.length_take_of_le hi, ?_, rfl⟩
      exact List.length_take_of_le hi
    · rintro ⟨before, _, behind, -, rfl, rfl, rfl⟩
      rfl
  | succ n ih =>
    calc Steps (Spans text matched) (n + 1) i j
      _ ↔ ∃ k, Spans text (Passes matched n) i k ∧ Spans text matched k j :=
        exists_congr fun k => and_congr_left fun _ => ih
      _ ↔ Spans text (Passes matched (n + 1)) i j := by
        rw [← spans_append]
        refine spans_congr fun before word behind _ => ?_
        rw [passes_add]
        simp only [passes_one]

end

/-! ## What each constructor follows -/

section

variable {text : List Char} {p q : Pattern}

/-- Nothing is done to a row by what matches the empty stretch. -/
theorem follows_empty : Follows (text.length + 1) (Spans text empty.Matches) (ends text empty) := by
  have hsame : Follows (text.length + 1) (fun i j => i = j) (ends text empty) :=
    ⟨fun h => h, fun _ _ => exists_eq_right.symm⟩
  refine hsame.congr fun i hi j => ?_
  have hnone : Steps (Spans text empty.Matches) 0 i j ↔ Spans text (Passes empty.Matches 0) i j :=
    steps_spans (Nat.le_of_lt_succ hi)
  exact hnone

/-- **A set leads behind its characters.** -/
theorem follows_char (set : CharSet) :
    Follows (text.length + 1) (Spans text (char set).Matches) (ends text (char set)) := by
  refine ⟨fun h => length_advance set false h, fun h j => ?_⟩
  show (advance set false text _).Marks j ↔ _
  rw [marks_advance set false h, or_iff_right (fun h => Bool.false_ne_true h.2)]
  constructor
  · rintro ⟨i, c, rfl, hi, hc, hset⟩
    obtain ⟨hlt, rfl⟩ := List.getElem?_eq_some_iff.1 hc
    have hlength : (text.take i).length = i := List.length_take_of_le (Nat.le_of_lt hlt)
    refine ⟨i, hi, text.take i, [text[i]], text.drop (i + 1), ?_, hlength,
      congrArg (· + 1) hlength, _, rfl, hset⟩
    rw [List.singleton_append, ← List.drop_eq_getElem_cons hlt, List.take_append_drop]
  · rintro ⟨_, hi, before, _, behind, rfl, rfl, rfl, c, rfl, hset⟩
    refine ⟨before.length, c, rfl, hi, ?_, hset⟩
    rw [List.getElem?_append_right (Nat.le_refl _), Nat.sub_self]
    rfl

/-- **An assertion leads nowhere but where it holds.** -/
theorem follows_look (assertion : Assertion) :
    Follows (text.length + 1) (Spans text (look assertion).Matches) (ends text (look assertion)) := by
  have hlength : (asserted assertion none text).length = text.length + 1 :=
    length_asserted assertion none text
  refine ⟨fun h => (length_zipWith_of_eq (h.trans hlength.symm)).trans h, fun {row} h j => ?_⟩
  show (row.and (asserted assertion none text)).Marks j ↔ _
  rw [marks_and]
  constructor
  · rintro ⟨hj, hasserted⟩
    have hbefore : (text.take j).length = j :=
      List.length_take_of_le (Nat.le_of_lt_succ (Nat.lt_of_lt_of_eq hj.lt h))
    have hholds := getElem?_asserted assertion none (text.take j) (text.drop j)
    rw [List.take_append_drop, hbefore, hasserted, Option.or_none] at hholds
    exact ⟨j, hj, text.take j, [], text.drop j, (List.take_append_drop j text).symm, hbefore,
      hbefore, rfl, (Option.some.inj hholds).symm⟩
  · rintro ⟨_, hi, before, _, behind, rfl, rfl, rfl, rfl, hholds⟩
    refine ⟨hi, ?_⟩
    have hasserted := getElem?_asserted assertion none before behind
    rwa [Option.or_none, hholds] at hasserted

theorem follows_alt (hp : Follows (text.length + 1) (Spans text p.Matches) (ends text p))
    (hq : Follows (text.length + 1) (Spans text q.Matches) (ends text q)) :
    Follows (text.length + 1) (Spans text (alt p q).Matches) (ends text (alt p q)) := by
  have hsame {row : Row} (h : row.length = text.length + 1) :
      (ends text p row).length = (ends text q row).length := (hp.length h).trans (hq.length h).symm
  refine ⟨fun h => (length_zipWith_of_eq (hsame h)).trans (hp.length h), fun {row} h j => ?_⟩
  show ((ends text p row).or (ends text q row)).Marks j ↔ _
  rw [marks_or (hsame h), hp.marks h, hq.marks h, ← exists_or]
  refine exists_congr fun i => ?_
  rw [← and_or_left, ← spans_or]
  rfl

/-- **A repetition leads as far as its passes**, though it makes no more of them than there
are positions, and no more besides. -/
theorem follows_times (hp : Follows (text.length + 1) (Spans text p.Matches) (ends text p))
    (least : Nat) (most : Option Nat) :
    Follows (text.length + 1) (Spans text (times p least most).Matches)
      (ends text (times p least most)) := by
  have hpasses (n : Nat) :
      Follows (text.length + 1) (Spans text (Passes p.Matches n)) (Nat.repeat (ends text p) n) :=
    (hp.repeat n).congr fun i hi j => steps_spans (Nat.le_of_lt_succ hi)
  refine ⟨fun h => length_spread hp _ ((hpasses _).length h) ((hpasses _).length h),
    fun {row} h j => ?_⟩
  let required := min least row.length
  let more := min ((most.map (· - least)).getD row.length) row.length
  let passed := Nat.repeat (ends text p) required row
  have hpassed : passed.length = text.length + 1 := (hpasses required).length h
  calc (spread (ends text p) more passed passed).Marks j
    _ ↔ ∃ n ≤ more, (Nat.repeat (ends text p) n passed).Marks j :=
      marks_spread hp more hpassed hpassed (fun _ hi => hi) (fun _ => .inr) j
    _ ↔ ∃ n ≤ more, ∃ i, row.Marks i ∧ Spans text (Passes p.Matches (required + n)) i j := by
      refine exists_congr fun n => and_congr_right fun _ => ?_
      rw [← repeat_add, (hpasses _).marks h]
    _ ↔ ∃ i, row.Marks i ∧ Spans text (fun before word behind =>
          ∃ n ≤ more, Passes p.Matches (required + n) before word behind) i j := by
      simp only [spans_exists, ← exists_and_left]
      rw [exists_comm]
      simp only [and_left_comm]
    _ ↔ ∃ i, row.Marks i ∧ Spans text (times p least most).Matches i j := by
      refine exists_congr fun i => and_congr_right fun _ => ?_
      refine spans_congr fun before word behind htext => (exists_passes_iff ?_).symm
      rw [h, htext, List.length_append, List.length_append]
      omega

end

/-- **A position is marked in the end if a match that starts at a marked position ends
there**, and only then. -/
theorem follows_ends (text : List Char) (p : Pattern) :
    Follows (text.length + 1) (Spans text p.Matches) (ends text p) := by
  induction p with
  | empty => exact follows_empty
  | char set => exact follows_char set
  | look assertion => exact follows_look assertion
  | seq p q hp hq => exact (hp.comp hq).congr fun i _ j => spans_append.symm
  | alt p q hp hq => exact follows_alt hp hq
  | times p least most hp => exact follows_times hp least most

/-- **A pattern is found in a text if it matches somewhere in it**, and only then. -/
theorem isMatch_iff {p : Pattern} {text : List Char} : p.isMatch text = true ↔ p.MatchesIn text := by
  unfold isMatch MatchesIn
  rw [anyMarked_iff]
  have hfull : (full text).length = text.length + 1 := by
    rw [full, List.length_cons, List.length_map]
  constructor
  · rintro ⟨j, hj⟩
    obtain ⟨i, -, before, word, behind, htext, -, -, h⟩ := ((follows_ends text p).marks hfull j).1 hj
    exact ⟨before, word, behind, htext, h⟩
  · rintro ⟨before, word, behind, rfl, h⟩
    refine ⟨before.length + word.length, ((follows_ends _ p).marks hfull _).2 ⟨before.length, ?_,
      before, word, behind, rfl, rfl, rfl, h⟩⟩
    rw [marks_full, List.length_append]
    exact Nat.le_add_right _ _

end Pattern

/-- **A filter accepts the paths in which one of its patterns matches somewhere.** -/
theorem PathFilter.accepts_iff {filter : PathFilter} {path : List Char} :
    filter.accepts path = true ↔ ∃ p ∈ filter.patterns, p.MatchesIn path := by
  unfold accepts
  rw [List.any_eq_true]
  exact exists_congr fun p => and_congr_right fun _ => Pattern.isMatch_iff

end IncludeForest
