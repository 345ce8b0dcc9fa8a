import IncludeForest.Proofs.Json.Layout
import IncludeForest.Proofs.Text.Words

/-!
# Well-formed documents

Which texts are JSON documents at all is settled by the grammar of RFC 8259, and
it is written down here in full, with everything that a document may hold and
that an export never does – fractions, exponents, a null, blanks wherever they
are allowed, characters written by number though they need not be. A grammar
that was cut down to what is exported would say of an export no more than that
it is one.

The rules go from the small to the large, under the names of what they are
rules for: the blanks and the six structural characters, numbers, strings,
values, documents. A rule says of a text that it is a thing of its kind, as a
whole; what is repeated and what is separated by commas is a text put together
from such texts.

The text of every value is a value by these rules (`isValue_pretty`), so it is a
document (`isDocument_pretty`).
-/

namespace IncludeForest.Json

open Text

/-! ## The grammar -/

/-- Blanks that may stand around a structural character. -/
def AreBlanks (text : List Char) : Prop :=
  ∀ c ∈ text, c = ' ' ∨ c = '\t' ∨ c = '\n' ∨ c = '\r'

/-- **A structural character** with the blanks around it. -/
inductive IsToken (c : Char) : List Char → Prop where
  | mk {before behind : List Char} (hbefore : AreBlanks before) (hbehind : AreBlanks behind) :
    IsToken c (before ++ c :: behind)

/-- One digit or more. -/
def AreDigits (text : List Char) : Prop :=
  text ≠ [] ∧ ∀ c ∈ text, isAsciiDigit c = true

/-- The whole part of a number: zero, or digits that do not begin with a zero. -/
inductive IsWhole : List Char → Prop where
  | zero : IsWhole ['0']
  | positive {first : Char} {rest : List Char} (hne : first ≠ '0')
    (h : ∀ c ∈ first :: rest, isAsciiDigit c = true) : IsWhole (first :: rest)

/-- The fraction of a number, if it has one. -/
inductive IsFraction : List Char → Prop where
  | none : IsFraction []
  | some {digits : List Char} (h : AreDigits digits) : IsFraction ('.' :: digits)

/-- The exponent of a number, if it has one. -/
inductive IsExponent : List Char → Prop where
  | none : IsExponent []
  | some {mark : Char} {sign digits : List Char} (hmark : mark = 'e' ∨ mark = 'E')
    (hsign : sign = [] ∨ sign = ['+'] ∨ sign = ['-']) (h : AreDigits digits) :
    IsExponent (mark :: (sign ++ digits))

/-- **A number.** -/
inductive IsNumber : List Char → Prop where
  | mk {sign whole fraction exponent : List Char} (hsign : sign = [] ∨ sign = ['-'])
    (hwhole : IsWhole whole) (hfraction : IsFraction fraction) (hexponent : IsExponent exponent) :
    IsNumber (sign ++ (whole ++ (fraction ++ exponent)))

/-- **A character of a string**, as it is or escaped. -/
inductive IsChar : List Char → Prop where
  | plain {c : Char} (hcontrol : 0x20 ≤ c.toNat) (hquote : c ≠ '"') (hescape : c ≠ '\\') :
    IsChar [c]
  | escaped {c : Char} (h : c ∈ ['"', '\\', '/', 'b', 'f', 'n', 'r', 't']) : IsChar ['\\', c]
  | code {digits : List Char} (hlength : digits.length = 4)
    (h : ∀ c ∈ digits, (hexValue? c).isSome = true) : IsChar ('\\' :: 'u' :: digits)

/-- Any number of characters of a string. -/
inductive AreChars : List Char → Prop where
  | nil : AreChars []
  | cons {first rest : List Char} (hfirst : IsChar first) (hrest : AreChars rest) :
    AreChars (first ++ rest)

/-- **A string** with its quotes. -/
inductive IsString : List Char → Prop where
  | mk {chars : List Char} (h : AreChars chars) : IsString ('"' :: (chars ++ ['"']))

/-- One part or more, with commas between them. -/
inductive AreSeparated (IsPart : List Char → Prop) : List Char → Prop where
  | last {part : List Char} (h : IsPart part) : AreSeparated IsPart part
  | cons {part comma rest : List Char} (hpart : IsPart part) (hcomma : IsToken ',' comma)
    (hrest : AreSeparated IsPart rest) : AreSeparated IsPart (part ++ (comma ++ rest))

/-- Parts between two brackets, if there are any. -/
inductive IsBracketed (opening closing : Char) (IsPart : List Char → Prop) :
    List Char → Prop where
  | empty {first last : List Char} (hfirst : IsToken opening first) (hlast : IsToken closing last) :
    IsBracketed opening closing IsPart (first ++ last)
  | parts {first parts last : List Char} (hfirst : IsToken opening first)
    (hparts : AreSeparated IsPart parts) (hlast : IsToken closing last) :
    IsBracketed opening closing IsPart (first ++ (parts ++ last))

/-- A member of an object: its name and its value. -/
inductive IsMember (IsValue : List Char → Prop) : List Char → Prop where
  | mk {name colon value : List Char} (hname : IsString name) (hcolon : IsToken ':' colon)
    (hvalue : IsValue value) : IsMember IsValue (name ++ (colon ++ value))

/-- **A value.** -/
inductive IsValue : List Char → Prop where
  | null : IsValue ['n', 'u', 'l', 'l']
  | false : IsValue ['f', 'a', 'l', 's', 'e']
  | true : IsValue ['t', 'r', 'u', 'e']
  | number {text : List Char} (h : IsNumber text) : IsValue text
  | string {text : List Char} (h : IsString text) : IsValue text
  | array {text : List Char} (h : IsBracketed '[' ']' IsValue text) : IsValue text
  | object {text : List Char} (h : IsBracketed '\x7b' '\x7d' (IsMember IsValue) text) :
    IsValue text

/-- **A document**: one value, with blanks around it. -/
inductive IsDocument : List Char → Prop where
  | mk {before value behind : List Char} (hbefore : AreBlanks before) (hvalue : IsValue value)
    (hbehind : AreBlanks behind) : IsDocument (before ++ (value ++ behind))

/-! ## Blanks and structural characters -/

theorem areBlanks_nil : AreBlanks [] := nofun

theorem areBlanks_newLine (depth : Nat) : AreBlanks (newLine depth).toList := by
  intro c hc
  rw [toList_newLine, List.mem_cons] at hc
  obtain rfl | hc := hc
  · exact .inr (.inr (.inl rfl))
  · exact .inl (List.eq_of_mem_replicate hc)

/-- A structural character with blanks behind it only. -/
theorem isToken_cons {c : Char} {behind : List Char} (h : AreBlanks behind) :
    IsToken c (c :: behind) :=
  IsToken.mk areBlanks_nil h

/-- A structural character with blanks before it only. -/
theorem isToken_append_singleton {c : Char} {before : List Char} (h : AreBlanks before) :
    IsToken c (before ++ [c]) :=
  IsToken.mk h areBlanks_nil

/-! ## Numbers -/

/-- The digits of a number that is not zero do not begin with one. -/
theorem exists_cons_toDigits {n : Nat} (hn : n ≠ 0) :
    ∃ first rest, Nat.toDigits 10 n = first :: rest ∧ first ≠ '0' := by
  induction n using Nat.strong_induction_on with
  | _ n ih =>
    by_cases hlt : n < 10
    · have hdigit : ∀ n < 10, n ≠ 0 → n.digitChar ≠ '0' := by decide
      exact ⟨n.digitChar, [], Nat.toDigits_of_lt_base hlt, hdigit n hlt hn⟩
    · obtain ⟨first, rest, hdigits, hfirst⟩ := ih (n / 10) (by omega) (by omega)
      refine ⟨first, rest ++ [(n % 10).digitChar], ?_, hfirst⟩
      rw [Nat.toDigits_of_base_le (by decide) (by omega), hdigits, List.cons_append]

theorem isWhole_toDigits (n : Nat) : IsWhole (Nat.toDigits 10 n) := by
  by_cases hn : n = 0
  · subst hn
    exact IsWhole.zero
  · obtain ⟨first, rest, hdigits, hfirst⟩ := exists_cons_toDigits hn
    rw [hdigits]
    refine IsWhole.positive hfirst fun c hc => ?_
    rw [← hdigits] at hc
    exact isAsciiDigit_of_mem_toDigits hc

/-- **What is written for a number is one.** -/
theorem isNumber_toDigits (n : Nat) : IsNumber (Nat.toDigits 10 n) := by
  have h := IsNumber.mk (.inl rfl) (isWhole_toDigits n) IsFraction.none IsExponent.none
  rwa [List.append_nil, List.append_nil, List.nil_append] at h

/-! ## Strings -/

/-- What is written for a control character that has no letter. -/
theorem isChar_code {high low : Nat} (hhigh : high < 16) (hlow : low < 16) :
    IsChar ['\\', 'u', '0', '0', hexDigit high, hexDigit low] := by
  refine IsChar.code rfl ?_
  simp only [List.forall_mem_cons]
  refine ⟨rfl, rfl, ?_, ?_, nofun⟩
  · rw [hexValue?_hexDigit hhigh]
    rfl
  · rw [hexValue?_hexDigit hlow]
    rfl

/-- **What is written for a character may stand in a string.** -/
theorem isChar_escapeChar (c : Char) : IsChar (escapeChar c) := by
  unfold escapeChar
  split_ifs with hquote hescape hb ht hn hf hr hcontrol
  · exact IsChar.escaped (by decide)
  · exact IsChar.escaped (by decide)
  · exact IsChar.escaped (by decide)
  · exact IsChar.escaped (by decide)
  · exact IsChar.escaped (by decide)
  · exact IsChar.escaped (by decide)
  · exact IsChar.escaped (by decide)
  · exact isChar_code (by omega) (by omega)
  · exact IsChar.plain (Nat.le_of_not_lt hcontrol) hquote hescape

theorem areChars_flatMap_escapeChar (text : List Char) : AreChars (text.flatMap escapeChar) := by
  induction text with
  | nil => exact AreChars.nil
  | cons c text ih =>
    rw [List.flatMap_cons]
    exact AreChars.cons (isChar_escapeChar c) ih

/-- **What is written for a string is one.** -/
theorem isString_quote (s : String) : IsString (quote s).toList := by
  rw [toList_quote]
  exact IsString.mk (areChars_flatMap_escapeChar s.toList)

/-! ## Values -/

variable {depth : Nat}

theorem areSeparated_laterParts {IsPart : List Char → Prop} {part : String} {parts : List String}
    (h : ∀ p ∈ part :: parts, IsPart p.toList) :
    AreSeparated IsPart (part.toList ++ laterParts depth parts) := by
  induction parts generalizing part with
  | nil =>
    rw [laterParts_nil, List.append_nil]
    exact AreSeparated.last (h part List.mem_cons_self)
  | cons next parts ih =>
    obtain ⟨hpart, hparts⟩ := List.forall_mem_cons.1 h
    rw [laterParts_cons, List.append_assoc, ← List.cons_append]
    exact AreSeparated.cons hpart (isToken_cons (areBlanks_newLine depth)) (ih hparts)

/-- **Parts are laid out between brackets.** -/
theorem isBracketed_block {IsPart : List Char → Prop} {opening closing : String} {first last : Char}
    (hfirst : opening.toList = [first]) (hlast : closing.toList = [last]) {parts : List String}
    (h : ∀ part ∈ parts, IsPart part.toList) :
    IsBracketed first last IsPart (block depth opening closing parts).toList := by
  cases parts with
  | nil =>
    rw [block_nil, String.toList_append, hfirst, hlast]
    exact IsBracketed.empty (isToken_cons areBlanks_nil) (isToken_cons areBlanks_nil)
  | cons part parts =>
    rw [toList_block_cons, hfirst, hlast, ← List.append_assoc part.toList, ← List.append_assoc]
    exact IsBracketed.parts (isToken_cons (areBlanks_newLine (depth + 1)))
      (areSeparated_laterParts h) (isToken_append_singleton (areBlanks_newLine depth))

theorem isMember_memberText {member : String × Json}
    (h : IsValue (pretty depth member.2).toList) :
    IsMember IsValue (memberText depth member).toList := by
  rw [toList_memberText]
  refine IsMember.mk (isString_quote member.1) (isToken_cons fun c hc => ?_) h
  exact .inl (List.mem_singleton.1 hc)

/-- **What is written for a value is one**, at whatever depth. -/
theorem isValue_pretty (value : Json) (depth : Nat) : IsValue (pretty depth value).toList := by
  induction value using Json.induction generalizing depth with
  | bool b =>
    rw [pretty]
    cases b with
    | false => exact IsValue.false
    | true => exact IsValue.true
  | number n =>
    rw [pretty, Nat.toString_eq_repr, Nat.toList_repr]
    exact IsValue.number (isNumber_toDigits n)
  | string s => exact IsValue.string (isString_quote s)
  | array items ih =>
    rw [pretty_array]
    refine IsValue.array (isBracketed_block rfl rfl ?_)
    rw [List.forall_mem_map]
    exact fun item hitem => ih item hitem (depth + 1)
  | object members ih =>
    rw [pretty_object]
    refine IsValue.object (isBracketed_block rfl rfl ?_)
    rw [List.forall_mem_map]
    exact fun member hmember => isMember_memberText (ih member hmember (depth + 1))

/-- **What is written for a value is a document.** -/
theorem isDocument_pretty (value : Json) (depth : Nat) :
    IsDocument (pretty depth value).toList := by
  have h := IsDocument.mk areBlanks_nil (isValue_pretty value depth) areBlanks_nil
  rwa [List.append_nil, List.nil_append] at h

end IncludeForest.Json
