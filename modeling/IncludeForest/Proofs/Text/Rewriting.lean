import IncludeForest.PathPolicy
import IncludeForest.Text.Bytes

/-!
# Texts rewritten in place

A policy compares a path as another text, and offsets into the one are used as
offsets into the other. That is right because the policy replaces one character
by one that takes as many bytes: only ASCII letters and the slash are replaced,
and only by characters that take one byte as well
(`PathPolicy.utf8Size_normalizeChar`).

Whatever function of characters does so, a text rewritten by it can be cut at
the offsets where the text can, and into the same parts, rewritten
(`Text.splitAtByte?_map`).
-/

namespace IncludeForest

namespace Text

section

variable {f : Char → Char} (hf : ∀ c, (f c).utf8Size = c.utf8Size)

include hf

/-- A rewritten text has as many bytes. -/
theorem byteLength_map (text : List Char) : byteLength (text.map f) = byteLength text := by
  induction text with
  | nil => rfl
  | cons c rest ih => rw [List.map_cons, byteLength_cons, byteLength_cons, hf, ih]

/-- **A rewritten text is cut where the text is**, into the rewritten parts. -/
theorem splitAtByte?_map (n : Nat) (text : List Char) :
    splitAtByte? n (text.map f)
      = (splitAtByte? n text).map fun (front, back) => (front.map f, back.map f) := by
  fun_induction splitAtByte? n text with
  | case1 text =>
    rw [splitAtByte?]
    rfl
  | case2 n => rfl
  | case3 n c rest hc ih =>
    rw [List.map_cons, splitAtByte?, hf, if_pos hc, ih, Option.map_map, Option.map_map]
    rfl
  | case4 n c rest hc =>
    rw [List.map_cons, splitAtByte?, hf, if_neg hc, Option.map_none]

/-- A rewritten text has its boundaries where the text has. -/
theorem isBoundary_map (n : Nat) (text : List Char) :
    isBoundary n (text.map f) = isBoundary n text := by
  rw [isBoundary, isBoundary, splitAtByte?_map hf, Option.isSome_map]

end

/-- A capital letter and its small letter take one byte each. -/
theorem utf8Size_toLower (c : Char) : c.toLower.utf8Size = c.utf8Size := by
  unfold Char.toLower
  split
  · next hc =>
    have hle : c.val ≤ 127 := UInt32.le_trans hc.2 (by decide)
    have hlower : c.val + ('a'.val - 'A'.val) ≤ 127 := by
      have hz : c.val.toNat ≤ 90 := UInt32.le_iff_toNat_le.1 hc.2
      have hshift : ('a'.val - 'A'.val).toNat = 32 := rfl
      rw [UInt32.le_iff_toNat_le, UInt32.toNat_add, hshift]
      show (c.val.toNat + 32) % 2 ^ 32 ≤ 127
      omega
    rw [Char.utf8Size_eq_one_iff.2 hle, Char.utf8Size_eq_one_iff.2 hlower]
  · rfl

end Text

namespace PathPolicy

/-- **A policy compares a character as one that takes as many bytes.** -/
theorem utf8Size_normalizeChar (policy : PathPolicy) (c : Char) :
    (policy.normalizeChar c).utf8Size = c.utf8Size := by
  cases policy with
  | identity => rfl
  | caseInsensitive =>
    show (if c = '/' then '\\' else c.toLower).utf8Size = c.utf8Size
    by_cases hslash : c = '/'
    · rw [if_pos hslash, hslash]
      rfl
    · rw [if_neg hslash, Text.utf8Size_toLower]

end PathPolicy

end IncludeForest
