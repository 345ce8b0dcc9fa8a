/-!
# Texts measured in bytes

Offsets into a name are counted in the bytes of its UTF-8 form, since that is
what an export of the forest hands to its readers. The texts themselves stay
lists of characters: `byteLength` measures one, `splitAtByte?` cuts one at an
offset, and fails where the offset is past the end or inside a character.
`offsetOf?` finds a word in a text and gives the offset where the first
occurrence starts.

The form of one character never occurs inside the forms of others, so looking
for a word character by character finds what looking byte by byte would.
-/

namespace IncludeForest.Text

/-- **The length of a text in bytes.** -/
def byteLength (text : List Char) : Nat :=
  text.foldl (fun length c => length + c.utf8Size) 0

@[simp] theorem byteLength_nil : byteLength [] = 0 := rfl

/-- Counting on from a number adds that number. -/
theorem foldl_utf8Size (text : List Char) (n : Nat) :
    text.foldl (fun length c => length + c.utf8Size) n = n + byteLength text := by
  induction text generalizing n with
  | nil => rfl
  | cons c rest ih =>
    rw [byteLength, List.foldl_cons, List.foldl_cons, ih, ih, Nat.zero_add, Nat.add_assoc]

@[simp] theorem byteLength_cons (c : Char) (text : List Char) :
    byteLength (c :: text) = c.utf8Size + byteLength text := by
  rw [byteLength, List.foldl_cons, foldl_utf8Size, Nat.zero_add]

@[simp] theorem byteLength_append (front back : List Char) :
    byteLength (front ++ back) = byteLength front + byteLength back := by
  rw [byteLength, List.foldl_append, foldl_utf8Size, foldl_utf8Size, Nat.zero_add]

/-- **The two parts of a text before and after a byte offset**, where the
offset falls between two characters. -/
def splitAtByte? : Nat → List Char → Option (List Char × List Char)
  | 0, text => some ([], text)
  | _ + 1, [] => none
  | n + 1, c :: rest =>
    if c.utf8Size ≤ n + 1 then
      (splitAtByte? (n + 1 - c.utf8Size) rest).map fun (front, back) => (c :: front, back)
    else
      none

/-- The two parts make up the text, and the first has the length asked for. -/
theorem splitAtByte?_eq_some {n : Nat} {text front back : List Char}
    (h : splitAtByte? n text = some (front, back)) :
    text = front ++ back ∧ byteLength front = n := by
  fun_induction splitAtByte? n text generalizing front with
  | case1 text => simp_all
  | case2 => simp at h
  | case3 n c rest hc ih =>
    simp only [Option.map_eq_some_iff, Prod.exists, Prod.mk.injEq] at h
    obtain ⟨f, b, hfb, rfl, rfl⟩ := h
    obtain ⟨rfl, hlen⟩ := ih hfb
    exact ⟨rfl, by simp [hlen]; omega⟩
  | case4 => simp at h

/-- Whether a byte offset falls between two characters of the text, or at one
of its ends. -/
def isBoundary (n : Nat) (text : List Char) : Bool :=
  (splitAtByte? n text).isSome

/-- **The byte offset of the first occurrence of `word` in a text.** -/
def offsetOf? (word : List Char) : List Char → Option Nat
  | [] => if word.isEmpty then some 0 else none
  | c :: rest =>
    if word.isPrefixOf (c :: rest) then some 0
    else (offsetOf? word rest).map (c.utf8Size + ·)

/-- The longest text that two texts both begin with. -/
def commonPrefix : List Char → List Char → List Char
  | a :: as, b :: bs => if a = b then a :: commonPrefix as bs else []
  | _, _ => []

end IncludeForest.Text
