import IncludeForest.Proofs.Text.Words
import IncludeForest.View.Line

/-!
# Style sequences

A style begins with a **sequence**: the escape character, a bracket, parameters, and the
letter `m`. A terminal that reads one shows nothing for it, and shows what follows in the
style until the sequence comes that takes every style back.

So a text with sequences is a text without them (`dropSequences`) and something more,
and nothing else is to be known of a text to know what is shown. What may go wrong is that
a style is never taken back, or only on a later line. In a text that is `Closed` it is
always taken back before the line ends.

Both are known of a text piece by piece. A piece without the escape character is kept
and changes nothing, a sequence is dropped, and a text falls into a sequence and the rest
in one way only (`IsSequence.append_inj`).
-/

namespace IncludeForest.View

open Text

/-- The character that a sequence begins with. -/
def escape : Char :=
  '\x1b'

/-- Whether the character is one of the parameters: a digit, or what stands between two
numbers. -/
def isParameter (c : Char) : Bool :=
  c.isDigit || c == ';'

theorem lt_of_isParameter {c : Char} (h : isParameter c = true) : ' ' < c := by
  rcases Bool.or_eq_true_iff.1 h with hdigit | hsemicolon
  · have hzero : 48 ≤ c.toNat := of_decide_eq_true (Bool.and_eq_true_iff.1 hdigit).1
    exact Nat.lt_of_lt_of_le (by decide : ' '.toNat < 48) hzero
  · obtain rfl := beq_iff_eq.1 hsemicolon
    decide

/-- **A style sequence.** -/
def IsSequence (s : List Char) : Prop :=
  ∃ parameters : List Char, s = escape :: '[' :: (parameters ++ ['m']) ∧
    ∀ c ∈ parameters, isParameter c = true

theorem isSequence_reset : IsSequence reset.toList :=
  ⟨['0'], rfl, List.all_eq_true.1 rfl⟩

namespace IsSequence

variable {s s' rest rest' : List Char}

/-- A sequence has the escape character in front, and behind it no character that would
not be shown. -/
theorem exists_cons (hs : IsSequence s) : ∃ tail, s = escape :: tail ∧ ∀ c ∈ tail, ' ' < c := by
  obtain ⟨parameters, rfl, hparameters⟩ := hs
  refine ⟨_, rfl, fun c hc => ?_⟩
  rcases List.mem_cons.1 hc with rfl | hc
  · decide
  rcases List.mem_append.1 hc with hc | hc
  · exact lt_of_isParameter (hparameters c hc)
  · obtain rfl := List.mem_singleton.1 hc
    decide

/-- A sequence does not end a line. -/
theorem newline_notMem (hs : IsSequence s) : '\n' ∉ s := by
  obtain ⟨tail, rfl, htail⟩ := hs.exists_cons
  intro hmem
  rcases List.mem_cons.1 hmem with hfront | hmem
  · exact absurd hfront (by decide)
  · exact absurd (htail _ hmem) (by decide)

/-- **A text falls into a sequence and the rest in one way only.** -/
theorem append_inj (hs : IsSequence s) (hs' : IsSequence s') (h : s ++ rest = s' ++ rest') :
    s = s' ∧ rest = rest' := by
  obtain ⟨parameters, rfl, hparameters⟩ := hs
  obtain ⟨parameters', rfl, hparameters'⟩ := hs'
  have hletter (text : List Char) : ∀ c ∈ (['m'] ++ text).head?, isParameter c = false := by
    rintro c ⟨⟩
    rfl
  simp only [List.cons_append, List.append_assoc, List.cons.injEq, true_and] at h
  obtain ⟨rfl, hrest⟩ := run_append_inj hparameters (hletter rest) hparameters' (hletter rest') h
  exact ⟨rfl, List.append_cancel_left hrest⟩

end IsSequence

/-! ## A text without its sequences -/

/-- What stands behind the sequence that a text begins with. -/
def behindSequence? : List Char → Option (List Char)
  | c :: d :: text =>
    if c = escape ∧ d = '[' then
      match text.dropWhile isParameter with
      | e :: rest => if e = 'm' then some rest else none
      | [] => none
    else none
  | _ => none

/-- **A text begins with a sequence if it is one and the rest.** -/
theorem behindSequence?_eq_some_iff {text rest : List Char} :
    behindSequence? text = some rest ↔ ∃ s, IsSequence s ∧ text = s ++ rest := by
  constructor
  · intro h
    unfold behindSequence? at h
    split at h
    · next c d text =>
      split at h
      · next hfront =>
        obtain ⟨rfl, rfl⟩ := hfront
        split at h
        · next e behind hbehind =>
          split at h
          · next hletter =>
            cases h
            refine ⟨_, ⟨text.takeWhile isParameter, rfl, fun _ => List.mem_takeWhile_imp⟩, ?_⟩
            rw [List.cons_append, List.cons_append, List.append_assoc, ← hletter,
              List.singleton_append, ← hbehind, List.takeWhile_append_dropWhile]
          · cases h
        · cases h
      · cases h
    · cases h
  · rintro ⟨s, ⟨parameters, rfl, hparameters⟩, rfl⟩
    have hletter : ∀ c ∈ (['m'] ++ rest).head?, isParameter c = false := by
      rintro c ⟨⟩
      rfl
    rw [List.cons_append, List.cons_append, List.append_assoc, behindSequence?,
      if_pos ⟨rfl, rfl⟩, dropWhile_run_append hparameters hletter]
    rfl

/-- **A text without its sequences.** -/
def dropSequences : List Char → List Char
  | [] => []
  | c :: text =>
    match _ : behindSequence? (c :: text) with
    | some rest => dropSequences rest
    | none => c :: dropSequences text
termination_by text => text.length
decreasing_by
  · obtain ⟨s, ⟨parameters, rfl, -⟩, htext⟩ := behindSequence?_eq_some_iff.1 ‹_›
    rw [htext, List.length_append]
    exact Nat.lt_add_of_pos_left (Nat.zero_lt_succ _)
  · exact Nat.lt_succ_self text.length

theorem dropSequences_cons_of_ne {c : Char} (hc : c ≠ escape) (text : List Char) :
    dropSequences (c :: text) = c :: dropSequences text := by
  have hnone : behindSequence? (c :: text) = none := by
    refine Option.eq_none_iff_forall_ne_some.2 fun rest h => ?_
    obtain ⟨s, ⟨parameters, rfl, -⟩, htext⟩ := behindSequence?_eq_some_iff.1 h
    exact hc (List.cons.inj htext).1
  rw [dropSequences]
  split
  · next h => rw [hnone] at h; cases h
  · rfl

/-- **A text without the escape character is kept.** -/
theorem dropSequences_append {plain : List Char} (hplain : escape ∉ plain) (rest : List Char) :
    dropSequences (plain ++ rest) = plain ++ dropSequences rest := by
  induction plain with
  | nil => rfl
  | cons c plain ih =>
    have hc : c ≠ escape := (List.ne_of_not_mem_cons hplain).symm
    rw [List.cons_append, dropSequences_cons_of_ne hc, ih (List.not_mem_of_not_mem_cons hplain),
      List.cons_append]

/-- **A sequence is dropped.** -/
theorem dropSequences_sequence_append {s : List Char} (hs : IsSequence s) (rest : List Char) :
    dropSequences (s ++ rest) = dropSequences rest := by
  have hsome : behindSequence? (s ++ rest) = some rest :=
    behindSequence?_eq_some_iff.2 ⟨s, hs, rfl⟩
  obtain ⟨tail, rfl, -⟩ := hs.exists_cons
  rw [List.cons_append] at hsome ⊢
  rw [dropSequences]
  split
  · next h =>
    rw [hsome] at h
    cases h
    rfl
  · next h => rw [hsome] at h; cases h

/-- **Whether a text is another one with sequences**, wherever it stands. -/
def Paints (painted plain : List Char) : Prop :=
  ∀ rest, dropSequences (painted ++ rest) = plain ++ dropSequences rest

namespace Paints

variable {painted painted' plain plain' : List Char}

theorem of_plain (hplain : escape ∉ plain) : Paints plain plain :=
  dropSequences_append hplain

theorem of_sequence {s : List Char} (hs : IsSequence s) : Paints s [] :=
  dropSequences_sequence_append hs

theorem append (h : Paints painted plain) (h' : Paints painted' plain') :
    Paints (painted ++ painted') (plain ++ plain') := by
  intro rest
  rw [List.append_assoc, h, h', List.append_assoc]

/-- Some sequences paint nothing. -/
theorem of_codes {codes : List String} (hcodes : ∀ code ∈ codes, IsSequence code.toList) :
    Paints (String.join codes).toList [] := by
  induction codes with
  | nil => exact fun rest => rfl
  | cons code codes ih =>
    rw [String.join_cons, String.toList_append]
    exact (of_sequence (hcodes code List.mem_cons_self)).append
      (ih fun next hnext => hcodes next (List.mem_cons_of_mem code hnext))

/-- What is joined of painted texts is joined of the texts, and painted. -/
theorem join {α : Type} {painted plain : α → String} {l : List α}
    (h : ∀ a ∈ l, Paints (painted a).toList (plain a).toList) :
    Paints (String.join (l.map painted)).toList (String.join (l.map plain)).toList := by
  induction l with
  | nil => exact fun rest => rfl
  | cons a l ih =>
    rw [List.map_cons, List.map_cons, String.join_cons, String.join_cons, String.toList_append,
      String.toList_append]
    exact (h a List.mem_cons_self).append (ih fun b hb => h b (List.mem_cons_of_mem a hb))

theorem dropSequences_eq (h : Paints painted plain) : dropSequences painted = plain := by
  have hwhole := h []
  rwa [List.append_nil, dropSequences, List.append_nil] at hwhole

end Paints

/-! ## Styles that are taken back -/

/-- Whether every style is taken back before the line ends. -/
def IsTakenBack (text : List Char) : Prop :=
  ∃ mid rest, text = mid ++ (reset.toList ++ rest) ∧ '\n' ∉ mid

theorem IsTakenBack.append {front text : List Char} (hfront : '\n' ∉ front)
    (h : IsTakenBack text) : IsTakenBack (front ++ text) := by
  obtain ⟨mid, rest, rfl, hmid⟩ := h
  exact ⟨front ++ mid, rest, (List.append_assoc ..).symm,
    fun hmem => (List.mem_append.1 hmem).elim hfront hmid⟩

/-- **Whether no style reaches beyond its line**: after every sequence there is one on
the same line that takes every style back, unless it is one itself. -/
def Closed (text : List Char) : Prop :=
  ∀ front s behind, text = front ++ (s ++ behind) → IsSequence s → s ≠ reset.toList →
    IsTakenBack behind

theorem closed_nil : Closed [] := by
  intro front s behind htext hs _
  obtain ⟨tail, rfl, -⟩ := hs.exists_cons
  exact absurd htext.symm (List.append_ne_nil_of_right_ne_nil front (List.cons_ne_nil _ _))

/-- A text is closed if the rest behind its first character is, and any sequence that it
begins with is taken back. -/
theorem closed_cons {c : Char} {text : List Char}
    (hfront : ∀ s behind, c :: text = s ++ behind → IsSequence s → s ≠ reset.toList →
      IsTakenBack behind)
    (htext : Closed text) : Closed (c :: text) := by
  intro front s behind h hs hreset
  cases front with
  | nil => exact hfront s behind h hs hreset
  | cons d front => exact htext front s behind (List.cons.inj h).2 hs hreset

/-- **A text without the escape character** opens nothing. -/
theorem closed_append {plain rest : List Char} (hplain : escape ∉ plain) (hrest : Closed rest) :
    Closed (plain ++ rest) := by
  induction plain with
  | nil => exact hrest
  | cons c plain ih =>
    refine closed_cons (fun s behind h hs _ => ?_) (ih (List.not_mem_of_not_mem_cons hplain))
    obtain ⟨tail, rfl, -⟩ := hs.exists_cons
    exact absurd (List.cons.inj h).1.symm (List.ne_of_not_mem_cons hplain)

/-- **A sequence may stand before what takes it back.** -/
theorem closed_sequence_append {s rest : List Char} (hs : IsSequence s)
    (hback : s ≠ reset.toList → IsTakenBack rest) (hrest : Closed rest) : Closed (s ++ rest) := by
  obtain ⟨tail, rfl, htail⟩ := hs.exists_cons
  have hplain : escape ∉ tail := fun hmem => absurd (htail escape hmem) (by decide)
  refine closed_cons (fun s' behind h hs' hreset => ?_) (closed_append hplain hrest)
  obtain ⟨rfl, rfl⟩ := hs.append_inj hs' h
  exact hback hreset

/-- Some sequences may stand before what takes them back. -/
theorem closed_join_append {codes : List String} (hcodes : ∀ code ∈ codes, IsSequence code.toList)
    {rest : List Char} (hback : IsTakenBack rest) (hrest : Closed rest) :
    IsTakenBack ((String.join codes).toList ++ rest) ∧
      Closed ((String.join codes).toList ++ rest) := by
  induction codes with
  | nil => exact ⟨hback, hrest⟩
  | cons code codes ih =>
    have hcode : IsSequence code.toList := hcodes code List.mem_cons_self
    obtain ⟨hback, hrest⟩ := ih fun next hnext => hcodes next (List.mem_cons_of_mem code hnext)
    rw [String.join_cons, String.toList_append, List.append_assoc]
    exact ⟨hback.append hcode.newline_notMem, closed_sequence_append hcode (fun _ => hback) hrest⟩

/-- **Whether a text leaves a closed text closed** that it stands before. -/
def KeepsClosed (text : List Char) : Prop :=
  ∀ rest, Closed rest → Closed (text ++ rest)

namespace KeepsClosed

variable {text text' : List Char}

theorem of_plain (hplain : escape ∉ text) : KeepsClosed text :=
  fun _ hrest => closed_append hplain hrest

theorem append (h : KeepsClosed text) (h' : KeepsClosed text') : KeepsClosed (text ++ text') := by
  intro rest hrest
  rw [List.append_assoc]
  exact h _ (h' rest hrest)

theorem join {α : Type} {text : α → String} {l : List α}
    (h : ∀ a ∈ l, KeepsClosed (text a).toList) :
    KeepsClosed (String.join (l.map text)).toList := by
  induction l with
  | nil => exact fun rest hrest => hrest
  | cons a l ih =>
    rw [List.map_cons, String.join_cons, String.toList_append]
    exact (h a List.mem_cons_self).append (ih fun b hb => h b (List.mem_cons_of_mem a hb))

theorem closed (h : KeepsClosed text) : Closed text := by
  have hwhole := h [] closed_nil
  rwa [List.append_nil] at hwhole

end KeepsClosed

end IncludeForest.View
