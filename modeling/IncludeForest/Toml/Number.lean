import IncludeForest.Text.Digits
import IncludeForest.Toml.Basic

/-!
# Numbers in a settings file

A whole number has 64 bits and a sign. It is written in decimal digits without
a leading zero, or in one of three other bases behind a mark and without a
sign. A single underscore may stand between two digits. A number with a point
or an exponent, or one of the two special ones, is a float; a float may be
negative beyond all bounds but not positive beyond all bounds, in which case it
is refused.
-/

namespace IncludeForest.Toml.Number

open IncludeForest.Text

/-- The digits at the front of a text, without the underscores between them;
there is at least one digit. An underscore has to have a digit behind it. -/
def digits? (isDigit : Char → Bool) : List Char → Option (List Char × List Char)
  | [] => none
  | c :: rest =>
    if isDigit c then more [c] rest else none
where
  /-- The digits that follow those in `sofar`, which are backwards. -/
  more (sofar : List Char) : List Char → Option (List Char × List Char)
    | [] => some (sofar.reverse, [])
    | '_' :: c :: rest => if isDigit c then more (c :: sofar) rest else none
    | c :: rest =>
      if isDigit c then more (c :: sofar) rest
      else if c = '_' then none
      else some (sofar.reverse, c :: rest)

/-- Whether the text begins with a minus sign, and the text behind a sign. -/
def sign : List Char → Bool × List Char
  | '-' :: rest => (true, rest)
  | '+' :: rest => (false, rest)
  | text => (false, text)

/-- The digits of a decimal number, which has no leading zero. -/
def decimalDigits? : List Char → Option (List Char × List Char)
  | '0' :: rest => some (['0'], rest)
  | text => digits? isAsciiDigit text

/-- A whole number in its place among the numbers of 64 bits. -/
def inRange? (n : Int) : Option Int :=
  if -9223372036854775808 ≤ n ∧ n ≤ 9223372036854775807 then some n else none

/-- The value of digits in a base. -/
def valueIn (base : Nat) (digits : List Char) : Nat :=
  digits.foldl (fun value c => value * base + (hexValue? c).getD 0) 0

/-- Whether the character is a digit in a base up to sixteen. -/
def isDigitIn (base : Nat) (c : Char) : Bool :=
  (hexValue? c).any (· < base)

/-- A whole number in a base, behind its mark. -/
def inBase? (base : Nat) (text : List Char) : Option (Value × List Char) := do
  let (digits, rest) ← digits? (isDigitIn base) text
  return (.integer (← inRange? (valueIn base digits)), rest)

/-- **A whole number.** -/
def integer? : List Char → Option (Value × List Char)
  | '0' :: 'x' :: rest => inBase? 16 rest
  | '0' :: 'o' :: rest => inBase? 8 rest
  | '0' :: 'b' :: rest => inBase? 2 rest
  | text => do
    let (negative, text) := sign text
    let (digits, rest) ← decimalDigits? text
    let size : Int := decimalValue digits
    return (.integer (← inRange? (if negative then -size else size)), rest)

/-- The exponent behind its letter: whether it is negative, and its digits. -/
def exponent? (text : List Char) : Option ((Bool × List Char) × List Char) := do
  let (negative, text) := sign text
  let (digits, rest) ← digits? isAsciiDigit text
  return ((negative, digits), rest)

/-- **Whether a decimal number is beyond every float**: it is not below the
middle between the greatest float and the power of two that would follow it.
The number is the digits read as a whole number, times ten to the exponent.

An exponent far from what the digits could balance settles the question by
itself, so no power of ten has to be larger than a float's. -/
def overflows (digits : List Char) (exponent : Int) : Bool :=
  let mantissa := decimalValue digits
  let places : Int := (digits.dropWhile (· == '0')).length
  let bound := Nat.pow 2 1024 - Nat.pow 2 970
  if mantissa = 0 then false
  else if places + exponent > 400 then true
  else if places + exponent < 0 then false
  else if 0 ≤ exponent then bound ≤ mantissa * Nat.pow 10 exponent.toNat
  else bound * Nat.pow 10 (-exponent).toNat ≤ mantissa

/-- A float from its parts, unless it is too large. -/
def ofParts? (negative : Bool) (whole fraction : List Char)
    (exponent : Bool × List Char) : Option Value :=
  let size : Int := decimalValue exponent.2
  let power := (if exponent.1 then -size else size) - fraction.length
  if !negative && overflows (whole ++ fraction) power then none
  else
    some (.float (String.ofList ((if negative then ['-'] else []) ++ whole ++ ['.'] ++ fraction ++
      ['e'] ++ (if exponent.1 then ['-'] else []) ++ exponent.2)))

/-- Whether the character begins an exponent. -/
def isExponentMark (c : Char) : Bool :=
  c == 'e' || c == 'E'

/-- The exponent at the front of a text, or none. -/
def optionalExponent? : List Char → Option ((Bool × List Char) × List Char)
  | [] => some ((false, ['0']), [])
  | c :: rest =>
    if isExponentMark c then exponent? rest else some ((false, ['0']), c :: rest)

/-- **A float written in digits.** The outer answer is whether the text writes
one, which it does once a point or an exponent has been seen; the inner answer
is that float. -/
def decimalFloat? (text : List Char) : Option (Option (Value × List Char)) := do
  let (negative, text) := sign text
  let (whole, rest) ← decimalDigits? text
  match rest with
  | '.' :: rest =>
    return do
      let (fraction, rest) ← digits? isAsciiDigit rest
      let (exponent, rest) ← optionalExponent? rest
      return (← ofParts? negative whole fraction exponent, rest)
  | c :: rest =>
    if isExponentMark c then
      return do
        let (exponent, rest) ← exponent? rest
        return (← ofParts? negative whole [] exponent, rest)
    else none
  | [] => none

/-- A special float. -/
def specialFloat? (text : List Char) : Option (Value × List Char) :=
  let (_, behind) := sign text
  match behind with
  | 'i' :: 'n' :: 'f' :: rest => some (.float "inf", rest)
  | 'n' :: 'a' :: 'n' :: rest => some (.float "nan", rest)
  | _ => none

/-- **A number.** -/
def read? (text : List Char) : Option (Value × List Char) :=
  match decimalFloat? text with
  | some float => float
  | none => (specialFloat? text).or (integer? text)

end IncludeForest.Toml.Number
