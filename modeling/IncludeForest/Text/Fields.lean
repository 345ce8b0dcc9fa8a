/-!
# Fields

A text cut at every occurrence of one separating character. There is always
one field more than there are separators, and two separators in a row have an
empty field between them. Joined by separators the fields are the text again
(`intercalate_fields`).
-/

namespace IncludeForest.Text

/-- **The fields of a text** between the occurrences of `sep`. -/
def fields (sep : Char) : List Char → List (List Char)
  | [] => [[]]
  | c :: rest =>
    match fields sep rest with
    | [] => [[c]]
    | field :: more => if c = sep then [] :: field :: more else (c :: field) :: more

/-- A text has at least one field. -/
theorem fields_ne_nil (sep : Char) (text : List Char) : fields sep text ≠ [] := by
  cases text with
  | nil => simp [fields]
  | cons c rest =>
    rw [fields]
    split
    · simp
    · split <;> simp

/-- Joined by the separator, the fields are the text again. -/
theorem intercalate_fields (sep : Char) (text : List Char) :
    [sep].intercalate (fields sep text) = text := by
  induction text with
  | nil => rfl
  | cons c rest ih =>
    rw [fields]
    split
    · rename_i hnil
      exact absurd hnil (fields_ne_nil sep rest)
    · rename_i first more hrest
      rw [hrest] at ih
      cases more <;> split <;> simp_all [List.intercalate, List.intersperse]

end IncludeForest.Text
