import IncludeForest.Tree.Header

/-!
# First occurrences

A search looks for a needle character by character and tells where it was found
in bytes, and whoever reads that offset cuts the path byte by byte. Both see the
same occurrences. A needle that stands in a path stands there with its bytes;
and where the bytes of a needle stand in those of a path, they begin where a
character of the path does, since the first byte of a character is never one of
its others (`exists_append_of_extract`).

`Span.IsFirst` says of a stretch that it is the first occurrence, in bytes
alone. `hitIn?_eq_some_iff` is the statement that the search finds it, and
nothing else.
-/

namespace IncludeForest

namespace Text

/-- The bytes of a text are those of its string. -/
theorem byteLength_eq (text : List Char) : byteLength text = (String.ofList text).utf8ByteSize := by
  induction text with
  | nil => rfl
  | cons c rest ih =>
    rw [byteLength_cons, ih, ← List.singleton_append, String.ofList_append,
      String.utf8ByteSize_append, ← String.singleton_eq_ofList, String.utf8ByteSize_singleton]

theorem byteLength_toList (s : String) : byteLength s.toList = s.utf8ByteSize := by
  rw [byteLength_eq, String.ofList_toList]

/-! ## Character by character -/

section

variable {word text : List Char}

/-- **The offset of a word is that of its first occurrence.** -/
theorem offsetOf?_eq_some_iff {n : Nat} :
    offsetOf? word text = some n ↔
      ∃ front back, text = front ++ word ++ back ∧ byteLength front = n ∧
        ∀ front' back', text = front' ++ word ++ back' → n ≤ byteLength front' := by
  induction text generalizing n with
  | nil =>
    rw [offsetOf?]
    cases word with
    | nil =>
      constructor
      · rintro ⟨⟩
        exact ⟨[], [], rfl, rfl, fun _ _ _ => Nat.zero_le _⟩
      · rintro ⟨front, back, h, rfl, -⟩
        rw [List.append_nil] at h
        obtain ⟨rfl, -⟩ := List.append_eq_nil_iff.1 h.symm
        rfl
    | cons c word =>
      refine ⟨nofun, ?_⟩
      rintro ⟨front, back, h, -⟩
      simpa using congrArg List.length h
  | cons c rest ih =>
    rw [offsetOf?]
    by_cases hhead : word.isPrefixOf (c :: rest)
    · rw [if_pos hhead]
      obtain ⟨behind, hbehind⟩ := List.isPrefixOf_iff_prefix.1 hhead
      constructor
      · rintro ⟨⟩
        exact ⟨[], behind, hbehind.symm, rfl, fun _ _ _ => Nat.zero_le _⟩
      · rintro ⟨front, back, -, -, hfirst⟩
        rw [Nat.le_zero.1 (hfirst [] behind hbehind.symm)]
    · -- The word does not stand in front, so every occurrence leaves the first character behind.
      have hlater {front back : List Char} (h : c :: rest = front ++ word ++ back) :
          ∃ front', front = c :: front' ∧ rest = front' ++ word ++ back := by
        cases front with
        | nil => exact absurd (List.isPrefixOf_iff_prefix.2 ⟨back, h.symm⟩) hhead
        | cons d front' =>
          obtain ⟨hc, hrest⟩ := List.cons.inj h
          exact ⟨front', congrArg (· :: front') hc.symm, hrest⟩
      rw [if_neg hhead, Option.map_eq_some_iff]
      constructor
      · rintro ⟨m, hm, rfl⟩
        obtain ⟨front, back, rfl, rfl, hfirst⟩ := ih.1 hm
        refine ⟨c :: front, back, rfl, byteLength_cons c front, fun front' back' h => ?_⟩
        obtain ⟨front', rfl, hrest⟩ := hlater h
        rw [byteLength_cons]
        exact Nat.add_le_add_left (hfirst front' back' hrest) _
      · rintro ⟨front, back, h, rfl, hfirst⟩
        obtain ⟨front, rfl, hrest⟩ := hlater h
        refine ⟨byteLength front, ih.2 ⟨front, back, hrest, rfl, fun front' back' h' => ?_⟩,
          (byteLength_cons c front).symm⟩
        have hle := hfirst (c :: front') back' (congrArg (c :: ·) h')
        rw [byteLength_cons, byteLength_cons] at hle
        exact Nat.le_of_add_le_add_left hle

/-- **A word has an offset if it occurs.** -/
theorem isSome_offsetOf?_iff : (offsetOf? word text).isSome ↔ word <:+: text := by
  induction text with
  | nil =>
    rw [offsetOf?, List.infix_nil]
    cases word with
    | nil => exact iff_of_true rfl rfl
    | cons c word => exact iff_of_false nofun nofun
  | cons c rest ih =>
    rw [offsetOf?, List.infix_cons_iff, ← ih, ← List.isPrefixOf_iff_prefix]
    by_cases hhead : word.isPrefixOf (c :: rest)
    · rw [if_pos hhead]
      exact iff_of_true rfl (.inl hhead)
    · rw [if_neg hhead, Option.isSome_map]
      exact ⟨.inr, fun h => h.resolve_left hhead⟩

end

/-! ## Byte by byte -/

section

variable {needle path : String}

/-- What stands in a path stands there with its bytes. -/
theorem extract_append (before behind : String) :
    (before ++ needle ++ behind).toByteArray.extract before.utf8ByteSize
      (before.utf8ByteSize + needle.utf8ByteSize) = needle.toByteArray := by
  have hbehind := ByteArray.extract_append_size_add (a := before.toByteArray)
    (b := needle.toByteArray ++ behind.toByteArray) (i := 0) (j := needle.utf8ByteSize)
  have hfront : (needle.toByteArray ++ behind.toByteArray).extract 0 needle.utf8ByteSize
      = needle.toByteArray := ByteArray.extract_append_eq_left rfl
  rw [Nat.add_zero, hfront] at hbehind
  rw [String.toByteArray_append, String.toByteArray_append, ByteArray.append_assoc]
  exact hbehind

/-- **Where the bytes of a needle stand, the needle does.** -/
theorem exists_append_of_extract (hne : needle ≠ "") {i : Nat}
    (h : path.toByteArray.extract i (i + needle.utf8ByteSize) = needle.toByteArray) :
    ∃ before behind, path = before ++ needle ++ behind ∧ before.utf8ByteSize = i := by
  have hpos : 0 < needle.utf8ByteSize := by
    rw [Nat.pos_iff_ne_zero]
    exact fun hzero => hne (String.utf8ByteSize_eq_zero_iff.1 hzero)
  have hsize := congrArg ByteArray.size h
  rw [ByteArray.size_extract, String.size_toByteArray, String.size_toByteArray] at hsize
  have hle : i + needle.utf8ByteSize ≤ path.utf8ByteSize := by omega
  -- The bytes make up characters, so the stretch begins between two characters.
  have hvalid := (String.Pos.Raw.isValidUTF8_extract_iff (s := path) ⟨i⟩
    ⟨i + needle.utf8ByteSize⟩ (Nat.le_add_right i _) hle).1 (h ▸ needle.isValidUTF8)
  have hbegin : (String.Pos.Raw.mk i).IsValid path := by
    rcases hvalid with heq | hvalid
    · have heq := congrArg String.Pos.Raw.byteIdx heq
      simp only at heq
      omega
    · exact hvalid.1
  obtain ⟨before, rest, rfl, hi⟩ := String.Pos.Raw.isValid_iff_exists_append.1 hbegin
  have hi : i = before.utf8ByteSize := congrArg String.Pos.Raw.byteIdx hi
  subst hi
  have hrest := ByteArray.extract_append_size_add (a := before.toByteArray)
    (b := rest.toByteArray) (i := 0) (j := needle.utf8ByteSize)
  rw [Nat.add_zero, ← String.toByteArray_append] at hrest
  have hfront : rest.toByteArray.extract 0 needle.utf8ByteSize = needle.toByteArray :=
    hrest.symm.trans h
  have hprefix : needle.toList <+: rest.toList := by
    refine List.isPrefix_of_utf8Encode_append_eq_utf8Encode
      (rest.toByteArray.extract needle.utf8ByteSize rest.toByteArray.size) ?_
    rw [String.utf8Encode_toList, String.utf8Encode_toList, ← hfront,
      ← ByteArray.extract_eq_extract_append_extract _ (Nat.zero_le _), ByteArray.extract_zero_size]
    rw [String.size_toByteArray]
    rw [String.utf8ByteSize_append] at hle
    omega
  obtain ⟨behind, hbehind⟩ := hprefix
  refine ⟨before, String.ofList behind, ?_, rfl⟩
  rw [String.append_assoc]
  refine congrArg (before ++ ·) (String.toList_injective ?_)
  rw [String.toList_append, String.toList_ofList, hbehind]

/-- **The bytes of a needle stand at an offset** if the path has a front of this
length, and then the needle. -/
theorem extract_eq_iff (hne : needle ≠ "") {i : Nat} :
    path.toByteArray.extract i (i + needle.utf8ByteSize) = needle.toByteArray ↔
      ∃ front back, path.toList = front ++ needle.toList ++ back ∧ byteLength front = i := by
  constructor
  · intro h
    obtain ⟨before, behind, rfl, rfl⟩ := exists_append_of_extract hne h
    refine ⟨before.toList, behind.toList, ?_, byteLength_toList before⟩
    rw [String.toList_append, String.toList_append]
  · rintro ⟨front, back, h, rfl⟩
    have hpath : path = String.ofList front ++ needle ++ String.ofList back := by
      refine String.toList_injective ?_
      rw [String.toList_append, String.toList_append, String.toList_ofList, String.toList_ofList, h]
    rw [hpath, byteLength_eq]
    exact extract_append (String.ofList front) (String.ofList back)

end

end Text

open Text

/-- **The first occurrence of a needle in a path**, by their bytes. -/
structure Span.IsFirst (span : Span) (needle path : String) : Prop where
  /-- The stretch is as long as the needle. -/
  stop : span.stop = span.start + needle.utf8ByteSize
  /-- What is written there is the needle. -/
  bytes : path.toUTF8.extract span.start span.stop = needle.toUTF8
  /-- The needle is not written anywhere before. -/
  first (i : Nat) (h : i < span.start) :
    path.toUTF8.extract i (i + needle.utf8ByteSize) ≠ needle.toUTF8

namespace Header

variable {needle path : String}

/-- To look for a needle that is not empty is to look for its offset. -/
theorem hitIn?_of_ne (hne : needle ≠ "") :
    hitIn? needle.toList path.toList
      = (offsetOf? needle.toList path.toList).map fun n => ⟨n, n + needle.utf8ByteSize⟩ := by
  have hsome : ¬ needle.toList.isEmpty = true := by
    rw [List.isEmpty_iff, String.toList_eq_nil_iff]
    exact hne
  unfold hitIn?
  rw [if_neg hsome, byteLength_toList]

/-- **A needle that is not empty is found where it first occurs**, and nowhere
else. -/
theorem hitIn?_eq_some_iff {span : Span} :
    hitIn? needle.toList path.toList = some span ↔ needle ≠ "" ∧ span.IsFirst needle path := by
  by_cases hempty : needle = ""
  · subst hempty
    exact iff_of_false nofun fun h => h.1 rfl
  · rw [hitIn?_of_ne hempty, Option.map_eq_some_iff]
    constructor
    · rintro ⟨n, hn, rfl⟩
      obtain ⟨front, back, hpath, hfront, hfirst⟩ := offsetOf?_eq_some_iff.1 hn
      refine ⟨hempty, rfl, (extract_eq_iff hempty).2 ⟨front, back, hpath, hfront⟩, ?_⟩
      intro i hi hbytes
      obtain ⟨front', back', hpath', rfl⟩ := (extract_eq_iff hempty).1 hbytes
      exact absurd (hfirst front' back' hpath') (Nat.not_le.2 hi)
    · rintro ⟨-, hstop, hbytes, hfirst⟩
      obtain ⟨start, stop⟩ := span
      obtain rfl : stop = start + needle.utf8ByteSize := hstop
      obtain ⟨front, back, hpath, hfront⟩ := (extract_eq_iff hempty).1 hbytes
      refine ⟨start, offsetOf?_eq_some_iff.2 ⟨front, back, hpath, hfront, ?_⟩, rfl⟩
      intro front' back' hpath'
      refine Nat.not_lt.1 fun hlt => hfirst _ hlt ?_
      exact (extract_eq_iff hempty).2 ⟨front', back', hpath', rfl⟩

/-- What is found stands where it is said to stand. -/
theorem exists_append_of_hitIn? {span : Span}
    (h : hitIn? needle.toList path.toList = some span) :
    ∃ before behind, path.toList = before ++ needle.toList ++ behind ∧
      byteLength before = span.start ∧ span.stop = span.start + needle.utf8ByteSize := by
  obtain ⟨hne, hfirst⟩ := hitIn?_eq_some_iff.1 h
  have hbytes := hfirst.bytes
  rw [hfirst.stop] at hbytes
  obtain ⟨before, behind, hpath, hstart⟩ := (extract_eq_iff hne).1 hbytes
  exact ⟨before, behind, hpath, hstart, hfirst.stop⟩

/-- **A needle is found if it is not empty and occurs.** -/
theorem isSome_hitIn?_iff :
    (hitIn? needle.toList path.toList).isSome ↔
      needle ≠ "" ∧ needle.toList <:+: path.toList := by
  by_cases hempty : needle = ""
  · subst hempty
    exact iff_of_false Bool.false_ne_true fun h => h.1 rfl
  · rw [hitIn?_of_ne hempty, Option.isSome_map, isSome_offsetOf?_iff]
    exact ⟨fun h => ⟨hempty, h⟩, fun h => h.2⟩

end Header

end IncludeForest
