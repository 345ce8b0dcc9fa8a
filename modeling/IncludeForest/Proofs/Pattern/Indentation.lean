import IncludeForest.Proofs.Pattern.Rows

/-!
# Patterns in an indented text

Spaces are put before a text. A pattern that matched somewhere in it still does, unless it
asks for the start of the text; and it may come to match in the spaces, or across them and
the text.

`Pattern.ignoresIndent` reads off a pattern that neither can happen. Every match of such
a pattern takes a character, which is no space if it is the first one, so no match begins
in the spaces; and nothing is asked of the start of a text or a line, so a match behind
the spaces is one without them (`matchesIn_indented`). Assertions that ask what character
stands before do no harm if it cannot be a space: a space is as little part of a word as
the start of a text.
-/

namespace IncludeForest.Pattern

/-- Whether an assertion asks for the start of a text or of a line, or for a character before
that could be a space. -/
def Assertion.isStart : Assertion → Bool
  | textStart => true
  | textEnd => false
  | before set => set.contains ' '
  | behind _ => false
  | not a => a.isStart
  | and a b => a.isStart || b.isStart

/-- Whether nothing in a pattern asks for the start of a text or of a line. -/
def asksNoStart : Pattern → Bool
  | empty => true
  | char _ => true
  | look assertion => !assertion.isStart
  | seq p q => p.asksNoStart && q.asksNoStart
  | alt p q => p.asksNoStart && q.asksNoStart
  | times p _ _ => p.asksNoStart

/-- Whether every match of a pattern can be seen to take a character. -/
def takesCharacter : Pattern → Bool
  | empty => false
  | char _ => true
  | look _ => false
  | seq p q => p.takesCharacter || q.takesCharacter
  | alt p q => p.takesCharacter && q.takesCharacter
  | times p least _ => decide (0 < least) && p.takesCharacter

/-- Whether no match of a pattern can be seen to begin with a space. -/
def sparesSpace : Pattern → Bool
  | empty => true
  | char set => !set.contains ' '
  | look _ => true
  | seq p q => p.sparesSpace && (p.takesCharacter || q.sparesSpace)
  | alt p q => p.sparesSpace && q.sparesSpace
  | times p _ _ => p.sparesSpace

/-- **Whether spaces before a text can be seen to make no difference to a pattern.** -/
def ignoresIndent (p : Pattern) : Bool :=
  p.asksNoStart && p.takesCharacter && p.sparesSpace

variable {p : Pattern} {before word behind : List Char}

/-- A pattern that takes a character does not match the empty stretch. -/
theorem Matches.ne_nil (h : p.Matches before word behind) (hp : p.takesCharacter = true) :
    word ≠ [] := by
  induction p generalizing before word behind with
  | empty => cases hp
  | char set =>
    obtain ⟨c, rfl, -⟩ := h
    exact List.cons_ne_nil c []
  | look assertion => cases hp
  | seq p q ihp ihq =>
    obtain ⟨first, rest, rfl, hfirst, hrest⟩ := h
    rw [Ne, List.append_eq_nil_iff, not_and_or]
    exact (Bool.or_eq_true_iff.1 hp).imp (ihp hfirst) (ihq hrest)
  | alt p q ihp ihq =>
    obtain ⟨hp, hq⟩ := (Bool.and_eq_true _ _).mp hp
    exact h.elim (fun h => ihp h hp) fun h => ihq h hq
  | times p least most ih =>
    obtain ⟨hleast, hp⟩ := (Bool.and_eq_true _ _).mp hp
    obtain ⟨n, hn, -, hpasses⟩ := h
    obtain ⟨n, rfl⟩ := Nat.exists_eq_succ_of_ne_zero
      (Nat.ne_of_gt (Nat.lt_of_lt_of_le (of_decide_eq_true hleast) hn))
    obtain ⟨first, rest, rfl, hfirst, -⟩ := hpasses
    exact List.append_ne_nil_of_left_ne_nil (ih hfirst hp) rest

/-- **A match of a pattern that spares the space does not begin with one.** -/
theorem Matches.head?_ne (h : p.Matches before word behind) (hp : p.sparesSpace = true) :
    word.head? ≠ some ' ' := by
  induction p generalizing before word behind with
  | empty =>
    rw [show word = [] from h]
    nofun
  | char set =>
    obtain ⟨c, rfl, hc⟩ := h
    rintro ⟨⟩
    rw [sparesSpace, hc] at hp
    cases hp
  | look assertion =>
    rw [h.1]
    nofun
  | seq p q ihp ihq =>
    obtain ⟨hp, hq⟩ := (Bool.and_eq_true _ _).mp hp
    obtain ⟨first, rest, rfl, hfirst, hrest⟩ := h
    cases first with
    | nil => exact ihq hrest ((Bool.or_eq_true_iff.1 hq).resolve_left fun h => hfirst.ne_nil h rfl)
    | cons c first =>
      have hhead : (c :: first).head? ≠ some ' ' := ihp hfirst hp
      exact hhead
  | alt p q ihp ihq =>
    obtain ⟨hp, hq⟩ := (Bool.and_eq_true _ _).mp hp
    exact h.elim (fun h => ihp h hp) fun h => ihq h hq
  | times p least most ih =>
    obtain ⟨n, -, -, hpasses⟩ := h
    -- The first character is taken by the first pass that takes any.
    induction n generalizing before word with
    | zero =>
      rw [show word = [] from hpasses]
      nofun
    | succ n ihn =>
      obtain ⟨first, rest, rfl, hfirst, hrest⟩ := hpasses
      cases first with
      | nil => exact ihn hrest
      | cons c first =>
        have hhead : (c :: first).head? ≠ some ' ' := ih hfirst hp
        exact hhead

/-- **An assertion that asks for no start does not tell spaces from the start of a text.** -/
theorem holds_indented {assertion : Assertion} (h : assertion.isStart = false) (n : Nat)
    (before : List Char) (next : Option Char) :
    assertion.holds (List.replicate n ' ' ++ before).getLast? next
      = assertion.holds before.getLast? next := by
  rw [List.getLast?_append]
  cases before.getLast? with
  | some c => rfl
  | none =>
    rw [Option.none_or, List.getLast?_replicate]
    by_cases hn : n = 0
    · rw [if_pos hn]
    · rw [if_neg hn]
      induction assertion with
      | textStart => cases h
      | textEnd => rfl
      | before set => exact h
      | behind set => rfl
      | not a ih => exact congrArg (! ·) (ih h)
      | and a b iha ihb =>
        obtain ⟨ha, hb⟩ := Bool.or_eq_false_iff.1 h
        exact congrArg₂ (· && ·) (iha ha) (ihb hb)

/-- Spaces before all that stands before a stretch make no difference to its passes. -/
theorem passes_indented {matched : List Char → List Char → List Char → Prop} {spaces : List Char}
    (h : ∀ before word behind, matched (spaces ++ before) word behind ↔ matched before word behind)
    {n : Nat} :
    Passes matched n (spaces ++ before) word behind ↔ Passes matched n before word behind := by
  induction n generalizing before word with
  | zero => rfl
  | succ n ih =>
    refine exists_congr fun first => exists_congr fun rest => and_congr_right fun _ => ?_
    rw [h, List.append_assoc, ih]

/-- **A match behind spaces is one without them**, for a pattern that asks for no start. -/
theorem matches_indented (h : p.asksNoStart = true) (n : Nat) :
    p.Matches (List.replicate n ' ' ++ before) word behind ↔ p.Matches before word behind := by
  induction p generalizing before word behind with
  | empty => rfl
  | char set => rfl
  | look assertion =>
    refine and_congr_right fun _ => ?_
    rw [holds_indented (Bool.not_eq_true' _ |>.mp h)]
  | seq p q ihp ihq =>
    obtain ⟨hp, hq⟩ := (Bool.and_eq_true _ _).mp h
    refine exists_congr fun first => exists_congr fun rest => and_congr_right fun _ => ?_
    rw [ihp hp, List.append_assoc, ihq hq]
  | alt p q ihp ihq =>
    obtain ⟨hp, hq⟩ := (Bool.and_eq_true _ _).mp h
    exact or_congr (ihp hp) (ihq hq)
  | times p least most ih =>
    exact exists_congr fun k => and_congr_right fun _ => and_congr_right fun _ =>
      passes_indented fun _ _ _ => ih h

/-- **Where a pattern ignores the indent, it matches in an indented text if it matches in
the text**, and only then. -/
theorem matchesIn_indented (h : p.ignoresIndent = true) (n : Nat) (text : List Char) :
    p.MatchesIn (List.replicate n ' ' ++ text) ↔ p.MatchesIn text := by
  obtain ⟨hstart, hspace⟩ := (Bool.and_eq_true _ _).mp h
  obtain ⟨hstart, htakes⟩ := (Bool.and_eq_true _ _).mp hstart
  constructor
  · rintro ⟨before, word, behind, htext, hmatch⟩
    -- The match does not begin in the spaces, so they all stand before it.
    obtain ⟨front, rfl, rfl⟩ : ∃ front, before = List.replicate n ' ' ++ front ∧
        text = front ++ (word ++ behind) := by
      obtain ⟨front, hbefore, hrest⟩ | ⟨spaces, hspaces, hword⟩ := List.append_eq_append_iff.1 htext
      · exact ⟨front, hbefore, hrest⟩
      · cases spaces with
        | nil => exact ⟨[], by rw [hspaces, List.append_nil, List.append_nil], hword.symm⟩
        | cons c spaces =>
          have hmem : c ∈ List.replicate n ' ' := by
            rw [hspaces]
            exact List.mem_append_right before List.mem_cons_self
          have hc : c = ' ' := List.eq_of_mem_replicate hmem
          refine absurd ?_ (hmatch.head?_ne hspace)
          rw [← List.head?_append_of_ne_nil _ (hmatch.ne_nil htakes), hword, hc]
          rfl
    exact ⟨front, word, behind, rfl, (matches_indented hstart n).1 hmatch⟩
  · rintro ⟨before, word, behind, rfl, hmatch⟩
    exact ⟨List.replicate n ' ' ++ before, word, behind, (List.append_assoc ..).symm,
      (matches_indented hstart n).2 hmatch⟩

end IncludeForest.Pattern
