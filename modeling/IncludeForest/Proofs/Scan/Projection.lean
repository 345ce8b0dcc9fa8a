import IncludeForest.Proofs.Scan.Run

/-!
# What becomes of one stream

Of all lines of a log only those of a stream itself concern it, so what becomes
of its state can be told from what they announce, without the other lines and
without the counters. `StreamState.takeAll` does so: it takes one announcement
after another and fails at the first that is refused.

If it fails for no stream, the scan of the whole log gets to its end, and the
scanner then keeps for every stream what `takeAll` came to
(`Scanner.readLines_of_takeAll`).
-/

namespace IncludeForest

open Log

namespace StreamState

/-- The state after an announcement, unless that is refused. -/
def take (rules : ForestRules) (id : StreamId) (st : StreamState) (announced : Announcement) :
    Except ForestError StreamState :=
  (st.change? rules id announced).map st.after

/-- **The state after some announcements**, unless one is refused. -/
def takeAll (rules : ForestRules) (id : StreamId) (st : StreamState)
    (announced : List Announcement) : Except ForestError StreamState :=
  announced.foldlM (take rules id) st

variable {rules : ForestRules} {id : StreamId} {st st' : StreamState} {announced : Announcement}

theorem takeAll_cons_of_take (h : st.take rules id announced = .ok st')
    (rest : List Announcement) :
    st.takeAll rules id (announced :: rest) = st'.takeAll rules id rest := by
  unfold takeAll
  rw [List.foldlM_cons, h]
  rfl

theorem takeAll_cons_eq_ok {rest : List Announcement}
    (h : st.takeAll rules id (announced :: rest) = .ok st') :
    ∃ st₁, st.take rules id announced = .ok st₁ ∧ st₁.takeAll rules id rest = .ok st' := by
  unfold takeAll at h
  rw [List.foldlM_cons] at h
  cases htake : st.take rules id announced with
  | error e => rw [htake] at h; cases h
  | ok st₁ =>
    rw [htake] at h
    exact ⟨st₁, rfl, h⟩

theorem takeAll_append_of_takeAll {front : List Announcement}
    (h : st.takeAll rules id front = .ok st') (rest : List Announcement) :
    st.takeAll rules id (front ++ rest) = st'.takeAll rules id rest := by
  unfold takeAll at h ⊢
  rw [List.foldlM_append, h]
  rfl

/-- A line whose announcement is taken is accepted, and changes what that
changes. -/
theorem react_of_take {filter : Option PathFilter} {line : List Char}
    (hline : announcement? filter line = some (id, announced))
    (h : st.take rules id announced = .ok st') :
    (st.react rules filter line).2 = none ∧ st.after (st.react rules filter line).1 = st' := by
  unfold take at h
  unfold react
  rw [hline]
  cases hchange : st.change? rules id announced with
  | error e => rw [hchange] at h; cases h
  | ok c =>
    rw [hchange] at h
    cases h
    simp only [hchange]
    exact ⟨trivial, rfl⟩

end StreamState

namespace Scanner

/-- A line leaves the states of other streams as they are. -/
theorem stateAt_readLine_ne (s : Scanner) {line : List Char} {source : Option StreamId}
    (h : streamOf? line ≠ source) : (s.readLine line).1.stateAt source = s.stateAt source := by
  rw [readLine_eq]
  exact stateAt_apply_ne s (Ne.symm h) _

/-- A line of no stream is accepted. -/
theorem readLine_of_streamOf?_eq_none (s : Scanner) {line : List Char} (h : streamOf? line = none) :
    (s.readLine line).2 = none := by
  rw [streamOf?_eq s.filter, Option.map_eq_none_iff] at h
  rw [readLine_eq]
  unfold reaction StreamState.react
  rw [h]

/-- **A line whose announcement is taken** is accepted, and what it announces
is written. -/
theorem readLine_of_take (s : Scanner) {line : List Char} {id : StreamId}
    {announced : Announcement} {st' : StreamState}
    (hline : announcement? s.filter line = some (id, announced))
    (h : (s.stateAt (some id)).take s.forest.rules id announced = .ok st') :
    (s.readLine line).2 = none ∧ (s.readLine line).1.stateAt (some id) = st' := by
  have hsource : streamOf? line = some id := by
    rw [streamOf?_eq s.filter, hline]
    rfl
  obtain ⟨haccepted, hafter⟩ := StreamState.react_of_take hline h
  rw [readLine_eq, hsource, stateAt_apply_self]
  unfold reaction
  rw [hsource]
  exact ⟨haccepted, hafter⟩

/-- **Every stream goes its own way.** If no stream's announcements are
refused, no line of the log is, and every stream comes to the state that its
own announcements lead to. -/
theorem readLines_of_takeAll (s : Scanner) (number : Nat) {log : List (List Char)}
    {final : StreamId → StreamState}
    (h : ∀ id, (s.stateAt (some id)).takeAll s.forest.rules id (announcementsOn s.filter id log)
      = .ok (final id)) :
    (s.readLines number log).2 = none ∧
      ∀ id, (s.readLines number log).1.stateAt (some id) = final id := by
  induction log generalizing s number with
  | nil => exact ⟨rfl, fun id => Except.ok.inj (h id)⟩
  | cons line log ih =>
    have hother (id : StreamId) (hid : streamOf? line ≠ some id) :
        ((s.readLine line).1.stateAt (some id)).takeAll s.forest.rules id
          (announcementsOn s.filter id log) = .ok (final id) := by
      rw [stateAt_readLine_ne s hid, ← announcementsOn_cons_ne hid]
      exact h id
    -- The line is accepted, and its own stream is left with the announcements behind it.
    obtain ⟨haccepted, hown⟩ : (s.readLine line).2 = none ∧ ∀ id, streamOf? line = some id →
        ((s.readLine line).1.stateAt (some id)).takeAll s.forest.rules id
          (announcementsOn s.filter id log) = .ok (final id) := by
      cases hline : announcement? s.filter line with
      | none =>
        have hnone : streamOf? line = none := by rw [streamOf?_eq s.filter, hline]; rfl
        exact ⟨s.readLine_of_streamOf?_eq_none hnone, fun id hid => by rw [hnone] at hid; cases hid⟩
      | some found =>
        obtain ⟨i, announced⟩ := found
        have hi := h i
        rw [announcementsOn_cons_self hline] at hi
        obtain ⟨st, htake, hrest⟩ := StreamState.takeAll_cons_eq_ok hi
        obtain ⟨haccepted, hstate⟩ := s.readLine_of_take hline htake
        refine ⟨haccepted, fun id hid => ?_⟩
        rw [streamOf?_eq s.filter, hline] at hid
        obtain rfl := Option.some.inj hid
        exact hstate ▸ hrest
    rw [readLines_cons, haccepted]
    refine ih (s.readLine line).1 (number + 1) fun id => ?_
    rw [rules_readLine, filter_readLine]
    by_cases hid : streamOf? line = some id
    · exact hown id hid
    · exact hother id hid

end Scanner

end IncludeForest
