import IncludeForest.Json.Basic
import IncludeForest.Text.Digits

/-!
# How a document is laid out

The text of a value is put together from strings. What is proved of it – that it
is well formed, that it can be read in one way only – is proved character by
character, so it is taken apart here once: a line begins with a line break and
blanks, a string stands between its quotes, and an array and an object are laid
out alike. Behind the opening bracket comes the first part on a new line, every
further part behind a comma and on a new line (`laterParts`), and the closing
bracket on a line of its own. Only where there is no part do the two brackets
meet.

What is proved of all values is proved by `Json.induction`: of an array if it
holds of its elements, of an object if it holds of the values of its members.
-/

namespace IncludeForest.Json

/-- **Induction on values.** -/
theorem induction {motive : Json → Prop} (bool : ∀ b, motive (.bool b))
    (number : ∀ n, motive (.number n)) (string : ∀ s, motive (.string s))
    (array : ∀ items, (∀ item ∈ items, motive item) → motive (.array items))
    (object : ∀ members, (∀ member ∈ members, motive member.2) → motive (.object members))
    (value : Json) : motive value :=
  @Json.rec motive (fun items => ∀ item ∈ items, motive item)
    (fun members => ∀ member ∈ members, motive member.2) (fun member => motive member.2)
    bool number string array object
    nofun (fun _ _ hitem hitems => List.forall_mem_cons.2 ⟨hitem, hitems⟩)
    nofun (fun _ _ hmember hmembers => List.forall_mem_cons.2 ⟨hmember, hmembers⟩)
    (fun _ _ hvalue => hvalue) value

/-! ## Lines and strings -/

variable {depth : Nat}

theorem toList_newLine (depth : Nat) :
    (newLine depth).toList = '\n' :: List.replicate (2 * depth) ' ' := by
  unfold newLine
  rw [String.toList_append, String.toList_ofList, String.toList_ofList]
  rfl

theorem toList_quote (s : String) :
    (quote s).toList = '"' :: (s.toList.flatMap escapeChar ++ ['"']) := by
  unfold quote
  rw [String.toList_ofList]
  rfl

/-- A digit that is written has the value that it was written for. -/
theorem hexValue?_hexDigit {n : Nat} (h : n < 16) : Text.hexValue? (hexDigit n) = some n := by
  have htable : ∀ n < 16, Text.hexValue? (hexDigit n) = some n := by decide
  exact htable n h

/-! ## Arrays and objects -/

/-- What stands behind the first part of an array or object: every further part,
behind a comma and on a line of its own. -/
def laterParts (depth : Nat) (parts : List String) : List Char :=
  parts.flatMap fun part => ',' :: ((newLine depth).toList ++ part.toList)

@[simp] theorem laterParts_nil : laterParts depth [] = [] := rfl

theorem laterParts_cons (part : String) (parts : List String) :
    laterParts depth (part :: parts)
      = ',' :: ((newLine depth).toList ++ part.toList ++ laterParts depth parts) := by
  unfold laterParts
  rw [List.flatMap_cons, List.cons_append]

theorem toList_intercalate_cons (part : String) (parts : List String) :
    (("," ++ newLine depth).intercalate (part :: parts)).toList
      = part.toList ++ laterParts depth parts := by
  induction parts generalizing part with
  | nil =>
    rw [String.toList_intercalate, List.map_singleton, List.intercalate_singleton, laterParts_nil,
      List.append_nil]
  | cons next parts ih =>
    have hnext := ih next
    rw [String.toList_intercalate] at hnext ⊢
    rw [List.map_cons] at hnext
    rw [List.map_cons, List.map_cons, List.intercalate_cons_cons, hnext, laterParts_cons,
      String.toList_append, List.append_assoc, List.append_assoc, List.append_assoc]
    rfl

theorem block_nil (depth : Nat) (opening closing : String) :
    block depth opening closing [] = opening ++ closing := rfl

/-- **The layout of an array or object that is not empty.** -/
theorem toList_block_cons (opening closing part : String) (parts : List String) :
    (block depth opening closing (part :: parts)).toList
      = opening.toList ++ ((newLine (depth + 1)).toList ++ (part.toList ++
          (laterParts (depth + 1) parts ++ ((newLine depth).toList ++ closing.toList)))) := by
  show (opening ++ newLine (depth + 1) ++
      ("," ++ newLine (depth + 1)).intercalate (part :: parts) ++ newLine depth ++ closing).toList
    = _
  rw [String.toList_append, String.toList_append, String.toList_append, String.toList_append,
    toList_intercalate_cons]
  simp only [List.append_assoc]

/-- The text of a member of an object. -/
def memberText (depth : Nat) (member : String × Json) : String :=
  quote member.1 ++ ": " ++ pretty depth member.2

theorem toList_memberText (depth : Nat) (member : String × Json) :
    (memberText depth member).toList
      = (quote member.1).toList ++ ([':', ' '] ++ (pretty depth member.2).toList) := by
  unfold memberText
  rw [String.toList_append, String.toList_append, List.append_assoc]
  rfl

/-- The elements of an array are written one by one. -/
theorem prettyItems_eq_map (depth : Nat) (items : List Json) :
    prettyItems depth items = items.map (pretty depth) := by
  induction items with
  | nil => rfl
  | cons item items ih => rw [prettyItems, ih, List.map_cons]

/-- The members of an object are written one by one. -/
theorem prettyMembers_eq_map (depth : Nat) (members : List (String × Json)) :
    prettyMembers depth members = members.map (memberText depth) := by
  induction members with
  | nil => rfl
  | cons member members ih =>
    obtain ⟨name, value⟩ := member
    rw [prettyMembers, ih, List.map_cons, memberText]

theorem pretty_array (depth : Nat) (items : List Json) :
    pretty depth (array items) = block depth "[" "]" (items.map (pretty (depth + 1))) := by
  rw [pretty, prettyItems_eq_map]

theorem pretty_object (depth : Nat) (members : List (String × Json)) :
    pretty depth (object members)
      = block depth "\x7b" "\x7d" (members.map (memberText (depth + 1))) := by
  rw [pretty, prettyMembers_eq_map]

end IncludeForest.Json
