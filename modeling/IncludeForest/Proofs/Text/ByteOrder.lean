import Mathlib.Tactic.SplitIfs

/-!
# The order of names is that of their bytes

Names are put in order character by character, by the numbers of the characters.
Whoever reads the bytes of the names finds them in order as well. The form of a
character says in its first byte how many bytes there are, more for greater numbers,
and after that it holds the digits of the number to the base 64, the first digit
first. So where two characters differ, their forms differ, and the first byte in
which they do decides as the characters do (`utf8EncodeChar_append_lt`).
-/

namespace IncludeForest.Text

theorem ofNat_lt_ofNat_iff {m n : Nat} (hm : m < 256) (hn : n < 256) :
    UInt8.ofNat m < UInt8.ofNat n ↔ m < n := by
  rw [UInt8.lt_iff_toNat_lt, UInt8.toNat_ofNat', UInt8.toNat_ofNat', Nat.mod_eq_of_lt hm,
    Nat.mod_eq_of_lt hn]

theorem ofNat_eq_ofNat_iff {m n : Nat} (hm : m < 256) (hn : n < 256) :
    UInt8.ofNat m = UInt8.ofNat n ↔ m = n := by
  rw [← UInt8.toNat_inj, UInt8.toNat_ofNat', UInt8.toNat_ofNat', Nat.mod_eq_of_lt hm,
    Nat.mod_eq_of_lt hn]

/-- The lesser number has the lesser digits to the base 64. -/
theorem digits_lt {v w : Nat} (h : v < w) :
    v / 262144 < w / 262144 ∨ v / 262144 = w / 262144 ∧
      (v / 4096 % 64 < w / 4096 % 64 ∨ v / 4096 % 64 = w / 4096 % 64 ∧
        (v / 64 % 64 < w / 64 % 64 ∨ v / 64 % 64 = w / 64 % 64 ∧ v % 64 < w % 64)) := by
  omega

/-- **The lesser character has the lesser form**, whatever comes after it. -/
theorem utf8EncodeChar_append_lt {c d : Char} (h : c < d) (bytes bytes' : List UInt8) :
    String.utf8EncodeChar c ++ bytes < String.utf8EncodeChar d ++ bytes' := by
  have hlt : c.val.toNat < d.val.toNat := h
  have hbound : d.val.toNat < 1114112 := by
    rcases d.valid with hlow | hhigh
    · exact Nat.lt_trans hlow (by decide)
    · exact hhigh.2
  unfold String.utf8EncodeChar
  dsimp only
  generalize c.val.toNat = v at *
  generalize d.val.toNat = w at *
  by_cases hfour : v ≤ 65535
  · -- One case for each pair of lengths; the longer form has the greater first byte.
    split_ifs <;>
      simp (disch := omega) only [List.cons_append, List.nil_append, List.cons_lt_cons_iff,
        ofNat_lt_ofNat_iff, ofNat_eq_ofNat_iff] <;>
      omega
  · have hdigits := digits_lt hlt
    have hv : v / 262144 % 8 = v / 262144 := Nat.mod_eq_of_lt (by omega)
    have hw : w / 262144 % 8 = w / 262144 := Nat.mod_eq_of_lt (by omega)
    rw [if_neg (by omega), if_neg (by omega), if_neg hfour, if_neg (by omega), if_neg (by omega),
      if_neg (by omega), hv, hw]
    simp (disch := omega) only [List.cons_append, List.nil_append, List.cons_lt_cons_iff,
      ofNat_lt_ofNat_iff, ofNat_eq_ofNat_iff, Nat.add_lt_add_iff_right, Nat.add_right_cancel_iff]
    exact hdigits.imp_right (.imp_right (.imp_right (.imp_right (.imp_right (.imp_right .inl)))))

theorem append_lt_append_left {bytes bytes' : List UInt8} (front : List UInt8)
    (h : bytes < bytes') : front ++ bytes < front ++ bytes' := by
  induction front with
  | nil => exact h
  | cons b front ih => exact List.cons_lt_cons_iff.2 (.inr ⟨rfl, ih⟩)

/-- **The lesser text has the lesser bytes.** -/
theorem flatMap_utf8EncodeChar_lt {text text' : List Char} (h : text < text') :
    text.flatMap String.utf8EncodeChar < text'.flatMap String.utf8EncodeChar := by
  induction text generalizing text' with
  | nil =>
    cases text' with
    | nil => exact absurd h (List.lt_irrefl [])
    | cons d text' =>
      obtain ⟨b, form, hform⟩ := List.exists_cons_of_ne_nil (String.utf8EncodeChar_ne_nil (c := d))
      rw [List.flatMap_cons, hform]
      exact List.nil_lt_cons b _
  | cons c text ih =>
    cases text' with
    | nil => exact absurd h (List.not_lt_nil _)
    | cons d text' =>
      rw [List.flatMap_cons, List.flatMap_cons]
      rcases List.cons_lt_cons_iff.1 h with hlt | ⟨rfl, hrest⟩
      · exact utf8EncodeChar_append_lt hlt _ _
      · exact append_lt_append_left _ (ih hrest)

/-- The bytes of a string are those of its characters. -/
theorem toList_toUTF8 (s : String) :
    s.toUTF8.data.toList = s.toList.flatMap String.utf8EncodeChar := by
  show s.toByteArray.data.toList = _
  rw [← String.utf8Encode_toList, List.utf8Encode, List.toList_data_toByteArray]

/-- **Names in order have their bytes in order.** -/
theorem toUTF8_lt_of_compare {a b : String} (h : compare a b = .lt) :
    a.toUTF8.data.toList < b.toUTF8.data.toList := by
  have hlt : a < b := compareOfLessAndEq_eq_lt.1 h
  rw [toList_toUTF8, toList_toUTF8]
  exact flatMap_utf8EncodeChar_lt hlt

end IncludeForest.Text
