import IncludeForest.Text.Bytes

/-!
# Lines and their previews

A log is read line by line. A line ends at a line feed, and a carriage return
directly before the line feed belongs to the line end. What follows the last
line feed is a line of its own if there is any of it, so a text that ends in a
line feed has no empty line after it. A carriage return elsewhere is an ordinary
character, at the end of an unfinished line too.

A message about an offending line quotes the line, and a line of a build log
may be long. `preview` keeps as much of it as fits into two hundred bytes,
never cutting a character in two: where the two hundredth byte does not end
one, it goes back byte by byte to where one ends.
-/

namespace IncludeForest.Text

/-! ## Lines -/

/-- A line read backwards, without the carriage return of its line end. -/
def dropReturn : List Char → List Char
  | '\r' :: line => line
  | line => line

/-- The lines of a text, the first of them preceded by `line`, which is what
has been read of it, backwards. -/
def linesAfter (line : List Char) : List Char → List (List Char)
  | [] => if line.isEmpty then [] else [line.reverse]
  | c :: rest =>
    if c = '\n' then (dropReturn line).reverse :: linesAfter [] rest
    else linesAfter (c :: line) rest

/-- **The lines of a text.** -/
def lines (text : List Char) : List (List Char) :=
  linesAfter [] text

/-! ## Previews -/

/-- How many bytes of a line a message quotes at most. -/
def previewBytes : Nat :=
  200

/-- **The last boundary of a text at or before an offset**, looked for byte by
byte; nothing if the way back passes the beginning. -/
def boundaryBack? (text : List Char) : Nat → Option Nat
  | 0 => if isBoundary 0 text then some 0 else none
  | n + 1 => if isBoundary (n + 1) text then some (n + 1) else boundaryBack? text n

/-- **The beginning of a line that a message quotes.** -/
def preview (line : String) : String :=
  let text := line.toList
  if byteLength text ≤ previewBytes then line
  else
    match (boundaryBack? text previewBytes).bind (splitAtByte? · text) with
    | some (front, _) => String.ofList front
    -- It does not come to this: the beginning is a boundary.
    | none => line

end IncludeForest.Text
