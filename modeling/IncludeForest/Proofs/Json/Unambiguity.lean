import IncludeForest.Proofs.Json.Layout
import IncludeForest.Proofs.Text.Words

/-!
# Documents that can be read in one way only

Two values are never written as the same text (`pretty_injective`). That a text
could be read in two ways is to be feared in three places: a string may hold
quotes, commas and brackets, so that it could seem to end too early or too late;
a number ends where no sign tells; and what is nested looks like what it is
nested in.

All three are settled by one notion. The text of a value **delimits** it if,
with whatever follows, no text of another value with whatever follows it is the
same: then the value can be told from the text, and where the text of the value
ends as well (`Delimits`). What follows must not go on with a digit, for the
sake of numbers; behind a value there is nothing, a comma or a line break.

Strings are delimited because what is written for a character can be read back,
and is not the quote that ends a string (`readChar?_escapeChar_append`). Arrays
and objects are because a comma follows where there are further parts and a line
break where there are none. What kind of value there is shows in the first
character (`Kind.ofFirst`).
-/

namespace IncludeForest.Json

open Text

/-! ## Texts that end where they do -/

/-- A text with which no number goes on. -/
def EndsNumber (text : List Char) : Prop :=
  ∀ c ∈ text.head?, isAsciiDigit c = false

theorem endsNumber_nil : EndsNumber [] := nofun

theorem endsNumber_cons {c : Char} {text : List Char} (h : isAsciiDigit c = false) :
    EndsNumber (c :: text) := by
  rintro c' ⟨⟩
  exact h

/-- **The text of `a` tells that it is the text of `a`, and where it ends.** -/
def Delimits {α : Type} (write : α → String) (a : α) : Prop :=
  ∀ ⦃b : α⦄ ⦃rest rest' : List Char⦄, EndsNumber rest → EndsNumber rest' →
    (write a).toList ++ rest = (write b).toList ++ rest' → a = b ∧ rest = rest'

/-! ## Strings -/

/-- The character that a letter stands for behind a backslash. -/
def ofLetter? (letter : Char) : Option Char :=
  if letter = '"' then some '"'
  else if letter = '\\' then some '\\'
  else if letter = 'b' then some '\x08'
  else if letter = 't' then some '\t'
  else if letter = 'n' then some '\n'
  else if letter = 'f' then some '\x0C'
  else if letter = 'r' then some '\r'
  else none

/-- The character that the text of a string goes on with, and the text behind
it. None if the string ends. -/
def readChar? : List Char → Option (Char × List Char)
  | [] => none
  | c :: rest =>
    if c = '"' then none
    else if c = '\\' then
      match rest with
      | [] => none
      | letter :: rest =>
        if letter = 'u' then (hexDigits? 4 0 rest).map fun (code, rest) => (Char.ofNat code, rest)
        else (ofLetter? letter).map fun c => (c, rest)
    else some (c, rest)

/-- A character written by its number is read back. -/
theorem readChar?_code {code : Nat} (h : code < 256) (rest : List Char) :
    readChar? (['\\', 'u', '0', '0', hexDigit (code / 16), hexDigit (code % 16)] ++ rest)
      = some (Char.ofNat code, rest) := by
  have hzero : hexValue? '0' = some 0 := by decide
  have hhigh : hexValue? (hexDigit (code / 16)) = some (code / 16) := hexValue?_hexDigit (by omega)
  have hlow : hexValue? (hexDigit (code % 16)) = some (code % 16) := hexValue?_hexDigit (by omega)
  have hcode : code / 16 * 16 + code % 16 = code := by omega
  have hdigits : hexDigits? 4 0 ('0' :: '0' :: hexDigit (code / 16) :: hexDigit (code % 16) :: rest)
      = some (code, rest) := by
    simp [hexDigits?, hzero, hhigh, hlow, hcode]
  show (hexDigits? 4 0 ('0' :: '0' :: hexDigit (code / 16) :: hexDigit (code % 16) :: rest)).map _
    = _
  rw [hdigits]
  rfl

/-- **What is written for a character is read back.** -/
theorem readChar?_escapeChar_append (c : Char) (rest : List Char) :
    readChar? (escapeChar c ++ rest) = some (c, rest) := by
  unfold escapeChar
  split_ifs with hquote hescape hb ht hn hf hr hcontrol
  · subst hquote; rfl
  · subst hescape; rfl
  · subst hb; rfl
  · subst ht; rfl
  · subst hn; rfl
  · subst hf; rfl
  · subst hr; rfl
  · rw [readChar?_code (by omega), Char.ofNat_toNat]
  · show (if c = '"' then _ else if c = '\\' then _ else _) = _
    rw [if_neg hquote, if_neg hescape]
    rfl

/-- The characters of a string end at the first quote that is not escaped. -/
theorem flatMap_escapeChar_append_inj {text text' rest rest' : List Char}
    (h : text.flatMap escapeChar ++ '"' :: rest = text'.flatMap escapeChar ++ '"' :: rest') :
    text = text' ∧ rest = rest' := by
  have hread := congrArg readChar? h
  induction text generalizing text' with
  | nil =>
    cases text' with
    | nil => exact ⟨rfl, (List.cons.inj h).2⟩
    | cons c' text' =>
      rw [List.flatMap_cons, List.append_assoc, readChar?_escapeChar_append] at hread
      cases hread
  | cons c text ih =>
    cases text' with
    | nil =>
      rw [List.flatMap_cons, List.append_assoc, readChar?_escapeChar_append] at hread
      cases hread
    | cons c' text' =>
      rw [List.flatMap_cons, List.flatMap_cons, List.append_assoc, List.append_assoc,
        readChar?_escapeChar_append, readChar?_escapeChar_append, Option.some_inj,
        Prod.mk.injEq] at hread
      obtain ⟨rfl, hrest⟩ := hread
      obtain ⟨rfl, rfl⟩ := ih hrest (congrArg readChar? hrest)
      exact ⟨rfl, rfl⟩

/-- **A string ends at its quote**, whatever characters it holds. -/
theorem quote_append_inj {s s' : String} {rest rest' : List Char}
    (h : (quote s).toList ++ rest = (quote s').toList ++ rest') : s = s' ∧ rest = rest' := by
  rw [toList_quote, toList_quote, List.cons_append, List.cons_append, List.append_assoc,
    List.append_assoc] at h
  obtain ⟨hchars, hrest⟩ := flatMap_escapeChar_append_inj (List.cons.inj h).2
  exact ⟨String.toList_inj.1 hchars, hrest⟩

/-! ## Numbers -/

theorem takeWhile_toDigits_append (n : Nat) {rest : List Char} (h : EndsNumber rest) :
    (Nat.toDigits 10 n ++ rest).takeWhile isAsciiDigit = Nat.toDigits 10 n := by
  have hrest : rest.takeWhile isAsciiDigit = [] := by
    cases rest with
    | nil => rfl
    | cons c rest => exact List.takeWhile_cons_of_neg (by rw [h c rfl]; exact Bool.false_ne_true)
  rw [List.takeWhile_append_of_pos fun c => isAsciiDigit_of_mem_toDigits, hrest, List.append_nil]

/-- **A number ends where its digits do.** -/
theorem toDigits_append_inj {n m : Nat} {rest rest' : List Char} (hrest : EndsNumber rest)
    (hrest' : EndsNumber rest') (h : Nat.toDigits 10 n ++ rest = Nat.toDigits 10 m ++ rest') :
    n = m ∧ rest = rest' := by
  have hdigits := congrArg (List.takeWhile isAsciiDigit) h
  rw [takeWhile_toDigits_append n hrest, takeWhile_toDigits_append m hrest'] at hdigits
  rw [hdigits] at h
  refine ⟨?_, List.append_cancel_left h⟩
  rw [← decimalValue_toDigits n, hdigits, decimalValue_toDigits]

/-! ## Arrays and objects -/

variable {depth : Nat}

theorem endsNumber_newLine_append (depth : Nat) (rest : List Char) :
    EndsNumber ((newLine depth).toList ++ rest) := by
  rw [toList_newLine]
  exact endsNumber_cons rfl

/-- Behind a part there is a comma or a line break. -/
theorem endsNumber_laterParts (parts : List String) (depth outer : Nat) (rest : List Char) :
    EndsNumber (laterParts depth parts ++ ((newLine outer).toList ++ rest)) := by
  cases parts with
  | nil => exact endsNumber_newLine_append outer rest
  | cons part parts =>
    rw [laterParts_cons]
    exact endsNumber_cons rfl

section

variable {α : Type} {write : α → String} {parts parts' : List α} {texts : List String}
  {rest rest' : List Char}

/-- A comma is no line break. -/
theorem laterParts_cons_append_ne (part : String) (outer : Nat) :
    laterParts depth (part :: texts) ++ rest ≠ (newLine outer).toList ++ rest' := by
  intro heq
  rw [laterParts_cons, toList_newLine outer] at heq
  exact absurd (List.cons.inj heq).1 (by decide)

/-- **There are no further parts where a line ends without a comma.** -/
theorem laterParts_append_inj {outer : Nat}
    (h : ∀ a ∈ parts, Delimits write a)
    (heq : laterParts depth (parts.map write) ++ ((newLine outer).toList ++ rest)
      = laterParts depth (parts'.map write) ++ ((newLine outer).toList ++ rest')) :
    parts = parts' ∧ rest = rest' := by
  induction parts generalizing parts' with
  | nil =>
    cases parts' with
    | nil => exact ⟨rfl, List.append_cancel_left (List.append_cancel_left heq)⟩
    | cons a' parts' => exact absurd heq.symm (laterParts_cons_append_ne (write a') outer)
  | cons a parts ih =>
    obtain ⟨ha, hparts⟩ := List.forall_mem_cons.1 h
    cases parts' with
    | nil => exact absurd heq (laterParts_cons_append_ne (write a) outer)
    | cons a' parts' =>
      rw [List.map_cons, List.map_cons, laterParts_cons, laterParts_cons, List.cons_append,
        List.cons_append, List.append_assoc, List.append_assoc, List.append_assoc,
        List.append_assoc] at heq
      have hbehind := List.append_cancel_left (List.cons.inj heq).2
      obtain ⟨rfl, hlater⟩ := ha (endsNumber_laterParts (parts.map write) depth outer rest)
        (endsNumber_laterParts (parts'.map write) depth outer rest') hbehind
      obtain ⟨rfl, rfl⟩ := ih hparts hlater
      exact ⟨rfl, rfl⟩

/-- Brackets with something between them do not meet. -/
theorem block_cons_append_ne {opening closing : String} {last : Char}
    (hlast : closing.toList = [last]) (hne : last ≠ '\n') (part : String) :
    (block depth opening closing (part :: texts)).toList ++ rest
      ≠ (block depth opening closing []).toList ++ rest' := by
  intro heq
  rw [block_nil, toList_block_cons, toList_newLine (depth + 1), String.toList_append, hlast] at heq
  simp only [List.append_assoc] at heq
  have hbehind := List.append_cancel_left heq
  exact hne (List.cons.inj hbehind).1.symm

/-- **An array or object ends where it does**, and has the parts it has. -/
theorem block_append_inj {opening closing : String} {last : Char} (hlast : closing.toList = [last])
    (hne : last ≠ '\n') (h : ∀ a ∈ parts, Delimits write a)
    (heq : (block depth opening closing (parts.map write)).toList ++ rest
      = (block depth opening closing (parts'.map write)).toList ++ rest') :
    parts = parts' ∧ rest = rest' := by
  cases parts with
  | nil =>
    cases parts' with
    | nil => exact ⟨rfl, List.append_cancel_left heq⟩
    | cons a' parts' => exact absurd heq.symm (block_cons_append_ne hlast hne (write a'))
  | cons a parts =>
    cases parts' with
    | nil => exact absurd heq (block_cons_append_ne hlast hne (write a))
    | cons a' parts' =>
      obtain ⟨ha, hparts⟩ := List.forall_mem_cons.1 h
      rw [List.map_cons, List.map_cons, toList_block_cons, toList_block_cons] at heq
      simp only [List.append_assoc] at heq
      have hparts' := List.append_cancel_left (List.append_cancel_left heq)
      obtain ⟨rfl, hlater⟩ := ha (endsNumber_laterParts (parts.map write) (depth + 1) depth _)
        (endsNumber_laterParts (parts'.map write) (depth + 1) depth _) hparts'
      obtain ⟨rfl, hclosing⟩ := laterParts_append_inj hparts hlater
      exact ⟨rfl, List.append_cancel_left hclosing⟩

end

/-- **A member ends where its value does.** -/
theorem delimits_memberText {member : String × Json}
    (h : Delimits (pretty depth) member.2) : Delimits (memberText depth) member := by
  intro member' rest rest' hrest hrest' heq
  rw [toList_memberText, toList_memberText] at heq
  simp only [List.append_assoc] at heq
  obtain ⟨hname, hcolon⟩ := quote_append_inj heq
  have hvalue := List.append_cancel_left hcolon
  obtain ⟨hvalue, hbehind⟩ := h hrest hrest' hvalue
  exact ⟨Prod.ext hname hvalue, hbehind⟩

/-! ## Values -/

/-- **The kinds of values.** -/
inductive Kind where
  /-- A truth value. -/
  | bool
  /-- A number. -/
  | number
  /-- A string. -/
  | string
  /-- An array. -/
  | array
  /-- An object. -/
  | object
  deriving DecidableEq

/-- What kind of value this is. -/
def kind : Json → Kind
  | bool _ => .bool
  | number _ => .number
  | string _ => .string
  | array _ => .array
  | object _ => .object

/-- The kind of the values whose text begins with this character. -/
def Kind.ofFirst (c : Char) : Kind :=
  if c = '"' then .string
  else if c = '[' then .array
  else if c = '\x7b' then .object
  else if isAsciiDigit c then .number
  else .bool

theorem Kind.ofFirst_of_isAsciiDigit {c : Char} (h : isAsciiDigit c = true) :
    Kind.ofFirst c = .number := by
  unfold Kind.ofFirst
  have hquote : c ≠ '"' := by rintro rfl; cases h
  have hbracket : c ≠ '[' := by rintro rfl; cases h
  have hbrace : c ≠ '\x7b' := by rintro rfl; cases h
  rw [if_neg hquote, if_neg hbracket, if_neg hbrace, if_pos h]

theorem exists_toList_block (opening closing : String) (parts : List String) :
    ∃ rest, (block depth opening closing parts).toList = opening.toList ++ rest := by
  cases parts with
  | nil => exact ⟨closing.toList, String.toList_append⟩
  | cons part parts => exact ⟨_, toList_block_cons opening closing part parts⟩

/-- **The first character of a text tells what kind of value it is of.** -/
theorem exists_toList_pretty (depth : Nat) (value : Json) :
    ∃ first rest, (pretty depth value).toList = first :: rest ∧ Kind.ofFirst first = value.kind := by
  cases value with
  | bool b =>
    rw [pretty]
    cases b with
    | false => exact ⟨'f', _, rfl, rfl⟩
    | true => exact ⟨'t', _, rfl, rfl⟩
  | number n =>
    rw [pretty, Nat.toString_eq_repr, Nat.toList_repr]
    obtain ⟨first, rest, hdigits⟩ := List.exists_cons_of_ne_nil (Nat.toDigits_ne_nil (b := 10) (n := n))
    have hfirst : isAsciiDigit first = true :=
      isAsciiDigit_of_mem_toDigits (hdigits ▸ List.mem_cons_self)
    exact ⟨first, rest, hdigits, Kind.ofFirst_of_isAsciiDigit hfirst⟩
  | string s => exact ⟨'"', _, toList_quote s, rfl⟩
  | array items =>
    rw [pretty_array]
    obtain ⟨rest, hrest⟩ := exists_toList_block "[" "]" (items.map (pretty (depth + 1)))
    exact ⟨'[', rest, hrest, rfl⟩
  | object members =>
    rw [pretty_object]
    obtain ⟨rest, hrest⟩ :=
      exists_toList_block "\x7b" "\x7d" (members.map (memberText (depth + 1)))
    exact ⟨'\x7b', rest, hrest, rfl⟩

theorem kind_eq_of_pretty_append {value value' : Json} {rest rest' : List Char}
    (h : (pretty depth value).toList ++ rest = (pretty depth value').toList ++ rest') :
    value.kind = value'.kind := by
  obtain ⟨first, behind, htext, hkind⟩ := exists_toList_pretty depth value
  obtain ⟨first', behind', htext', hkind'⟩ := exists_toList_pretty depth value'
  rw [htext, htext', List.cons_append, List.cons_append] at h
  rw [← hkind, ← hkind', (List.cons.inj h).1]

/-- **The text of a value tells the value, and where it ends**, at whatever
depth. -/
theorem delimits_pretty (value : Json) (depth : Nat) :
    Delimits (pretty depth) value := by
  induction value using Json.induction generalizing depth with
  | bool b =>
    intro value' rest rest' _ _ heq
    have hkind := kind_eq_of_pretty_append heq
    cases value' <;> cases hkind
    rename_i b'
    rw [pretty, pretty] at heq
    obtain rfl : b = b' := by
      cases b <;> cases b' <;> first | rfl | cases heq
    exact ⟨rfl, List.append_cancel_left heq⟩
  | number n =>
    intro value' rest rest' hrest hrest' heq
    have hkind := kind_eq_of_pretty_append heq
    cases value' <;> cases hkind
    rename_i n'
    rw [pretty, pretty, Nat.toString_eq_repr, Nat.toString_eq_repr, Nat.toList_repr,
      Nat.toList_repr] at heq
    obtain ⟨rfl, hbehind⟩ := toDigits_append_inj hrest hrest' heq
    exact ⟨rfl, hbehind⟩
  | string s =>
    intro value' rest rest' _ _ heq
    have hkind := kind_eq_of_pretty_append heq
    cases value' <;> cases hkind
    rename_i s'
    rw [pretty, pretty] at heq
    obtain ⟨rfl, hbehind⟩ := quote_append_inj heq
    exact ⟨rfl, hbehind⟩
  | array items ih =>
    intro value' rest rest' _ _ heq
    have hkind := kind_eq_of_pretty_append heq
    cases value' <;> cases hkind
    rename_i items'
    rw [pretty_array, pretty_array] at heq
    obtain ⟨rfl, hbehind⟩ :=
      block_append_inj rfl (by decide) (fun item hitem => ih item hitem (depth + 1)) heq
    exact ⟨rfl, hbehind⟩
  | object members ih =>
    intro value' rest rest' _ _ heq
    have hkind := kind_eq_of_pretty_append heq
    cases value' <;> cases hkind
    rename_i members'
    rw [pretty_object, pretty_object] at heq
    obtain ⟨rfl, hbehind⟩ := block_append_inj rfl (by decide)
      (fun member hmember => delimits_memberText (ih member hmember (depth + 1))) heq
    exact ⟨rfl, hbehind⟩

/-- **Two values are never written as the same text.** -/
theorem pretty_injective (depth : Nat) : Function.Injective (pretty depth) := by
  intro value value' h
  have heq : (pretty depth value).toList ++ [] = (pretty depth value').toList ++ [] := by rw [h]
  exact (delimits_pretty value depth endsNumber_nil endsNumber_nil heq).1

end IncludeForest.Json
