/-!
# Numbers in digits

The value of a run of ASCII digits, most significant first: in decimal digits,
where leading zeros change nothing, and in hexadecimal digits of either case.

A pattern and a settings file may both name a character by its code point in
hexadecimal digits. Not every number is a character: the surrogates are none,
nor is anything past the last code point.
-/

namespace IncludeForest.Text

/-! ## Decimal digits -/

/-- Whether the character is one of the ten ASCII digits. -/
def isAsciiDigit (c : Char) : Bool :=
  '0' ≤ c && c ≤ '9'

/-- **The value of a run of digits.** -/
def decimalValue (digits : List Char) : Nat :=
  digits.foldl (fun value c => value * 10 + (c.toNat - '0'.toNat)) 0

/-! ## Hexadecimal digits -/

/-- The value of a hexadecimal digit. -/
def hexValue? (c : Char) : Option Nat :=
  if '0' ≤ c ∧ c ≤ '9' then some (c.toNat - '0'.toNat)
  else if 'a' ≤ c ∧ c ≤ 'f' then some (c.toNat - 'a'.toNat + 10)
  else if 'A' ≤ c ∧ c ≤ 'F' then some (c.toNat - 'A'.toNat + 10)
  else none

/-- The number that exactly `count` hexadecimal digits stand for, after `high`
has been read of it, and the text behind them. -/
def hexDigits? : Nat → Nat → List Char → Option (Nat × List Char)
  | 0, high, text => some (high, text)
  | _ + 1, _, [] => none
  | count + 1, high, c :: rest => do
    hexDigits? count (high * 16 + (← hexValue? c)) rest

/-- The number that a whole text of hexadecimal digits stands for; there is at
least one. -/
def hexNumber? (digits : List Char) : Option Nat :=
  if digits.isEmpty then none
  else (hexDigits? digits.length 0 digits).map (·.1)

/-- The character with this code point, if there is one. -/
def charOfCode? (n : Nat) : Option Char :=
  if n.isValidChar then some (Char.ofNat n) else none

end IncludeForest.Text
