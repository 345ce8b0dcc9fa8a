import Mathlib.Data.List.Basic
import IncludeForest.Proofs.Text.Occurrence
import IncludeForest.Proofs.Text.Rewriting

/-!
# Fronts of texts

What is cut off a text is measured in bytes, and what is meant is a text: the
front that is that long. A text has at most one of each length, so an offset and a
front come to the same (`splitAtByte?_eq_some_iff`).

Two fronts are of interest. One is common to several texts, and is the longest
such (`IsLongestPrefix`); one text more makes it what it has in common with that
text. The other is cut off a text in which a word occurs. What is left of the word
stands in the rest, and where it does can be told from the two offsets
(`exists_rest_of_word`).
-/

namespace IncludeForest

namespace Text

variable {n : Nat} {text front back : List Char}

/-- A text is cut behind any front of it. -/
theorem splitAtByte?_append (front back : List Char) :
    splitAtByte? (byteLength front) (front ++ back) = some (front, back) := by
  induction front with
  | nil => rw [byteLength_nil, List.nil_append, splitAtByte?]
  | cons c front ih =>
    obtain ⟨k, hk⟩ := Nat.exists_eq_add_one.2 c.utf8Size_pos
    have hsucc : byteLength (c :: front) = k + byteLength front + 1 := by
      rw [byteLength_cons, hk]
      omega
    have hrest : k + byteLength front + 1 - c.utf8Size = byteLength front := by omega
    rw [hsucc, List.cons_append, splitAtByte?, if_pos (by omega), hrest, ih, Option.map_some]

/-- **To cut at an offset is to cut behind the front that is as long.** -/
theorem splitAtByte?_eq_some_iff :
    splitAtByte? n text = some (front, back) ↔ text = front ++ back ∧ byteLength front = n := by
  refine ⟨splitAtByte?_eq_some, ?_⟩
  rintro ⟨rfl, rfl⟩
  exact splitAtByte?_append front back

/-- The boundaries are the ends of the fronts. -/
theorem isBoundary_byteLength (front back : List Char) :
    isBoundary (byteLength front) (front ++ back) = true := by
  rw [isBoundary, splitAtByte?_append]
  rfl

/-! ## The front that texts have in common -/

/-- **Both texts begin with what their common prefix begins with**, and with
nothing else. -/
theorem prefix_commonPrefix_iff {as bs : List Char} :
    text <+: commonPrefix as bs ↔ text <+: as ∧ text <+: bs := by
  induction text generalizing as bs with
  | nil => exact iff_of_true List.nil_prefix ⟨List.nil_prefix, List.nil_prefix⟩
  | cons c text ih =>
    cases as with
    | nil => exact ⟨fun h => ⟨h, absurd h (by simp [commonPrefix])⟩, fun h => h.1⟩
    | cons a as =>
      cases bs with
      | nil => exact ⟨fun h => ⟨absurd h (by simp [commonPrefix]), h⟩, fun h => h.2⟩
      | cons b bs =>
        rw [commonPrefix, List.cons_prefix_cons, List.cons_prefix_cons]
        by_cases hab : a = b
        · rw [if_pos hab, List.cons_prefix_cons, ih, hab]
          exact ⟨fun ⟨hc, has, hbs⟩ => ⟨⟨hc, has⟩, hc, hbs⟩,
            fun ⟨⟨hc, has⟩, _, hbs⟩ => ⟨hc, has, hbs⟩⟩
        · rw [if_neg hab]
          exact iff_of_false (by simp) fun h => hab (h.1.1.symm.trans h.2.1)

/-- **The longest prefix of some texts**: all of them begin with it, and it begins
with all that all of them begin with. -/
structure IsLongestPrefix (pre : String) (texts : List String) : Prop where
  /-- All of the texts begin with it. -/
  begins : ∀ text ∈ texts, pre.toList <+: text.toList
  /-- It begins with everything that they all begin with. -/
  longest (other : String) (h : ∀ text ∈ texts, other.toList <+: text.toList) :
    other.toList <+: pre.toList

namespace IsLongestPrefix

variable {pre : String} {texts : List String}

/-- A text by itself is all of what it begins with. -/
theorem singleton (text : String) : IsLongestPrefix text [text] :=
  ⟨List.forall_mem_singleton.2 List.prefix_rfl, fun _ h => h text (List.mem_singleton_self text)⟩

/-- **One text more** leaves what it begins with as well. -/
theorem concat (h : IsLongestPrefix pre texts) (text : String) :
    IsLongestPrefix (String.ofList (commonPrefix pre.toList text.toList)) (texts ++ [text]) := by
  have hboth := prefix_commonPrefix_iff.1
    (List.prefix_rfl (l := commonPrefix pre.toList text.toList))
  constructor
  · rw [String.toList_ofList, List.forall_mem_append, List.forall_mem_singleton]
    exact ⟨fun other hother => hboth.1.trans (h.begins other hother), hboth.2⟩
  · intro other hother
    rw [List.forall_mem_append, List.forall_mem_singleton] at hother
    rw [String.toList_ofList, prefix_commonPrefix_iff]
    exact ⟨h.longest other hother.1, hother.2⟩

/-- **Texts have one longest prefix**, however often and in whichever order they
come. -/
theorem unique {pre' : String} {texts' : List String} (h : IsLongestPrefix pre texts)
    (h' : IsLongestPrefix pre' texts') (hsame : ∀ text, text ∈ texts ↔ text ∈ texts') :
    pre = pre' := by
  have hle : pre.toList <+: pre'.toList :=
    h'.longest pre fun text htext => h.begins text ((hsame text).2 htext)
  have hge : pre'.toList <+: pre.toList :=
    h.longest pre' fun text htext => h'.begins text ((hsame text).1 htext)
  exact String.toList_injective (hle.eq_of_length (Nat.le_antisymm hle.length_le hge.length_le))

/-- **A text is the longest prefix of texts that it is one of** if all of them begin with
it. -/
theorem eq_iff (h : IsLongestPrefix pre texts) {text : String} (hmem : text ∈ texts) :
    text = pre ↔ ∀ other ∈ texts, text.toList <+: other.toList := by
  constructor
  · rintro rfl
    exact h.begins
  · intro hbegins
    have hle := h.longest text hbegins
    have hge := h.begins text hmem
    exact String.toList_injective (hle.eq_of_length (Nat.le_antisymm hle.length_le hge.length_le))

end IsLongestPrefix

/-! ## What a cut leaves of a word -/

/-- **What is left of a word when a front has been cut off.** If the front does not
reach behind the word, the word stands in the rest without what the front had of
it, as far behind the cut as it began. -/
theorem exists_rest_of_word {rest before word behind : List Char}
    (h : front ++ rest = before ++ word ++ behind)
    (hlt : byteLength front < byteLength before + byteLength word) :
    ∃ before' lost seen, rest = before' ++ seen ++ behind ∧ word = lost ++ seen ∧
      byteLength before' = byteLength before - byteLength front ∧
      byteLength lost = byteLength front - byteLength before := by
  obtain ⟨a, hword, hrest⟩ : ∃ a, before ++ word = front ++ a ∧ rest = a ++ behind := by
    rcases List.append_eq_append_iff.1 h with ⟨a, hword, hrest⟩ | ⟨a, rfl, -⟩
    · exact ⟨a, hword, hrest⟩
    · rw [byteLength_append, byteLength_append] at hlt
      omega
  rcases List.append_eq_append_iff.1 hword with ⟨b, rfl, rfl⟩ | ⟨b, rfl, rfl⟩
  · -- The cut falls into the word, or at one of its ends.
    refine ⟨[], b, a, hrest, rfl, ?_, ?_⟩ <;>
      · simp only [byteLength_append, byteLength_nil]
        omega
  · -- The cut falls before the word.
    refine ⟨b, [], word, hrest, rfl, ?_, ?_⟩ <;>
      · simp only [byteLength_append, byteLength_nil]
        omega

end Text

namespace PathPolicy

variable (policy : PathPolicy)

/-- A path has as many bytes as what it is compared as. -/
theorem utf8ByteSize_normalize (path : String) :
    (policy.normalize path).utf8ByteSize = path.utf8ByteSize := by
  rw [← Text.byteLength_toList, ← Text.byteLength_toList, toList_normalize,
    Text.byteLength_map policy.utf8Size_normalizeChar]

/-- A path is compared part by part. -/
theorem normalize_append (front back : String) :
    policy.normalize (front ++ back) = policy.normalize front ++ policy.normalize back := by
  refine String.toList_injective ?_
  rw [toList_normalize, String.toList_append, String.toList_append, toList_normalize,
    toList_normalize, List.map_append]

end PathPolicy

end IncludeForest
