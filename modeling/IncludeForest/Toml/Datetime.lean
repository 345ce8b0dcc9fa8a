import IncludeForest.Text.Digits
import IncludeForest.Toml.Basic

/-!
# Dates and times in a settings file

A date is year, month and day, a time is hour, minute and second with a
fraction at will, and both together may say how far the clock is from that of
the zero meridian. A date has to be one of the calendar; a second may be the
leap second of its minute. Nothing here asks which moment is meant.
-/

namespace IncludeForest.Toml.Datetime

open IncludeForest.Text

/-- The value of exactly `count` digits. -/
def number? (count : Nat) (text : List Char) : Option (Nat × List Char) :=
  let digits := text.take count
  if digits.length = count ∧ digits.all isAsciiDigit then
    some (decimalValue digits, text.drop count)
  else none

/-- The value of two digits that is neither less than `least` nor more than
`most`. -/
def pair? (least most : Nat) (text : List Char) : Option (Nat × List Char) := do
  let (n, rest) ← number? 2 text
  if least ≤ n ∧ n ≤ most then some (n, rest) else none

/-- The text behind a character that has to stand there. -/
def behind? (c : Char) : List Char → Option (List Char)
  | [] => none
  | d :: rest => if d = c then some rest else none

/-- Whether the year has a leap day. -/
def isLeapYear (year : Nat) : Bool :=
  year % 4 == 0 && (year % 100 != 0 || year % 400 == 0)

/-- How many days a month has. -/
def daysIn (year month : Nat) : Nat :=
  if month = 2 then if isLeapYear year then 29 else 28
  else if month ∈ [4, 6, 9, 11] then 30
  else 31

/-- The text behind month and day, which stand behind the year and a hyphen. -/
def monthDay? (year : Nat) (text : List Char) : Option (List Char) := do
  let (month, text) ← pair? 1 12 text
  let (_, text) ← pair? 1 (daysIn year month) (← behind? '-' text)
  return text

/-- The text behind a fraction of a second, if there is one. -/
def fraction? : List Char → Option (List Char)
  | '.' :: c :: rest =>
    if isAsciiDigit c then some (rest.dropWhile isAsciiDigit) else none
  | '.' :: [] => none
  | text => some text

/-- The text behind minutes and seconds, which stand behind the hour and a
colon. -/
def minuteSecond? (text : List Char) : Option (List Char) := do
  let (_, text) ← pair? 0 59 text
  let (_, text) ← pair? 0 60 (← behind? ':' text)
  fraction? text

/-- The text behind the distance from the zero meridian, if it is given. -/
def offset? : List Char → Option (List Char)
  | [] => some []
  | c :: rest =>
    if c = 'Z' ∨ c = 'z' then some rest
    else if c = '+' ∨ c = '-' then do
      let (_, rest) ← pair? 0 23 rest
      let (_, rest) ← pair? 0 59 (← behind? ':' rest)
      return rest
    else some (c :: rest)

/-- The hour at the front of a text that has a colon behind it. -/
def hour? (text : List Char) : Option (List Char) := do
  let (_, rest) ← pair? 0 23 text
  behind? ':' rest

/-- The text behind a time that follows a date. Only an hour and a colon make a
time; anything else behind the date is none of the date's business. -/
def timeAfterDate? : List Char → Option (List Char)
  | [] => some []
  | c :: rest =>
    if c = 'T' ∨ c = 't' ∨ c = ' ' then
      match hour? rest with
      | some rest => (minuteSecond? rest).bind offset?
      | none => some (c :: rest)
    else some (c :: rest)

/-- What stands between the front of a text and what is left of it. -/
def upTo (text rest : List Char) : Value :=
  .datetime (String.ofList (text.take (text.length - rest.length)))

/-- **A date or time.** The outer answer is whether the text writes one, which
it does once a year and a hyphen or an hour and a colon have been seen; the
inner answer is that date or time. -/
def read? (text : List Char) : Option (Option (Value × List Char)) :=
  let date := do
    let (year, rest) ← number? 4 text
    return (year, ← behind? '-' rest)
  match date with
  | some (year, rest) =>
    some (((monthDay? year rest).bind timeAfterDate?).map fun rest => (upTo text rest, rest))
  | none =>
    (hour? text).map fun rest => (minuteSecond? rest).map fun rest => (upTo text rest, rest)

end IncludeForest.Toml.Datetime
