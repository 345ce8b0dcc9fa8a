/-!
# Reorderings of a log

A build that runs several projects at once writes their lines in whatever
order they come. Two logs of one build differ in that order, and only between
streams: what a single stream printed stands in the same order in both.

Such a log is a list of entries with a key each. `Reordering key` is the least
equivalence that lets two neighbours with different keys change places, and
`reordering_iff` says that it relates two lists exactly when every key has the
same entries in the same order in both. The one direction is what a reader of
logs knows, the other what an induction wants.
-/

namespace IncludeForest

namespace Log

variable {α κ : Type} {key : α → κ}

/-- **The same entries with those of one key in the same order**, by exchanges
of neighbours with different keys. -/
inductive Reordering (key : α → κ) : List α → List α → Prop where
  /-- Nothing is reordered. -/
  | refl (log : List α) : Reordering key log log
  /-- Entries behind the first are reordered. -/
  | cons (a : α) {log log' : List α} (h : Reordering key log log') :
    Reordering key (a :: log) (a :: log')
  /-- The first two entries change places. -/
  | swap {a b : α} (h : key a ≠ key b) (log : List α) :
    Reordering key (a :: b :: log) (b :: a :: log)
  /-- One reordering follows another. -/
  | trans {log log' log'' : List α} (h : Reordering key log log')
    (h' : Reordering key log' log'') : Reordering key log log''

namespace Reordering

/-- A reordering can be undone. -/
theorem symm {log log' : List α} (h : Reordering key log log') : Reordering key log' log := by
  induction h with
  | refl log => exact .refl log
  | cons a _ ih => exact ih.cons a
  | swap hne log => exact .swap hne.symm log
  | trans _ _ ih ih' => exact ih'.trans ih

/-- An entry can be moved in front of others with other keys. -/
theorem move {a : α} {front : List α} (h : ∀ b ∈ front, key b ≠ key a) (log : List α) :
    Reordering key (front ++ a :: log) (a :: (front ++ log)) := by
  induction front with
  | nil => exact .refl _
  | cons b front ih =>
    have hfront := ih fun c hc => h c (List.mem_cons_of_mem b hc)
    exact (hfront.cons b).trans (.swap (h b List.mem_cons_self) _)

/-- Nothing is added or lost. -/
theorem perm {log log' : List α} (h : Reordering key log log') : log.Perm log' := by
  induction h with
  | refl log => exact .refl log
  | cons a _ ih => exact ih.cons a
  | swap _ log => exact .swap _ _ log
  | trans _ _ ih ih' => exact ih.trans ih'

variable [DecidableEq κ]

/-- What has one key stays in order. -/
theorem filter_eq {log log' : List α} (h : Reordering key log log') (k : κ) :
    log.filter (key · = k) = log'.filter (key · = k) := by
  induction h with
  | refl _ => rfl
  | cons a _ ih => rw [List.filter_cons, List.filter_cons, ih]
  | @swap a b hne log =>
    by_cases ha : key a = k
    · have hb : key b ≠ k := fun hb => hne (ha.trans hb.symm)
      simp [ha, hb]
    · by_cases hb : key b = k <;> simp [ha, hb]
  | trans _ _ ih ih' => exact ih.trans ih'

/-- Logs that have the same entries of every key are reorderings of each
other: the first entry of one can be brought to the front of the other. -/
theorem of_filter_eq {log log' : List α}
    (h : ∀ k, log.filter (key · = k) = log'.filter (key · = k)) : Reordering key log log' := by
  induction log generalizing log' with
  | nil =>
    cases log' with
    | nil => exact .refl _
    | cons b log' =>
      have hb := h (key b)
      rw [List.filter_cons_of_pos (by simp)] at hb
      cases hb
  | cons a log ih =>
    -- The first entry has others of its own key only behind it, in both logs.
    have hfirst := h (key a)
    rw [List.filter_cons_of_pos (by simp)] at hfirst
    obtain ⟨front, rest, rfl, hfront, -, hrest⟩ := List.filter_eq_cons_iff.1 hfirst.symm
    have hother (b : α) (hb : b ∈ front) : key b ≠ key a := by
      simpa using hfront b hb
    have hbehind (k : κ) : log.filter (key · = k) = (front ++ rest).filter (key · = k) := by
      have hmoved := (h k).trans ((move hother rest).filter_eq k)
      rw [List.filter_cons, List.filter_cons] at hmoved
      by_cases ha : key a = k
      · simpa [ha] using hmoved
      · simpa [ha] using hmoved
    exact ((ih hbehind).cons a).trans (move hother rest).symm

end Reordering

/-- **A log is reordered when every key keeps its entries in order.** -/
theorem reordering_iff [DecidableEq κ] {log log' : List α} :
    Reordering key log log' ↔
      ∀ k, log.filter (key · = k) = log'.filter (key · = k) :=
  ⟨Reordering.filter_eq, Reordering.of_filter_eq⟩

end Log

end IncludeForest
