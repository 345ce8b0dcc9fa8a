import IncludeForest.Text.Alphabetic
import IncludeForest.Text.CodeTable

/-!
# Blanks and word characters

A **blank** is a character with the property White_Space: the line ends and
tabs of ASCII, the space, the no-break space and the spaces and separators of
typography. Log lines are trimmed of blanks on both sides, and a stream's
number may stand between them.

A **word character** is one that a name in running text may hold: Alphabetic,
a mark, a decimal digit, a connector such as the low line, or one of the two
join controls. Project and module names of a build log are runs of them.

Log text is ASCII nearly always, so the classes with long tables settle those
characters by the letters, the digits and the low line before they read a table;
the tables agree with that there.
-/

namespace IncludeForest.Text

/-! ## Blanks -/

/-- The ranges of the property White_Space, in increasing order. -/
def blankTable : CodeTable :=
  [(0x9, 0xD), (0x20, 0x20), (0x85, 0x85), (0xA0, 0xA0), (0x1680, 0x1680), (0x2000, 0x200A),
    (0x2028, 0x2029), (0x202F, 0x202F), (0x205F, 0x205F), (0x3000, 0x3000)]

/-- Whether the character is a blank. -/
def isBlank (c : Char) : Bool :=
  blankTable.holds c

/-- The text without the blanks at its two ends. -/
def trimBlanks (text : List Char) : List Char :=
  ((text.dropWhile isBlank).reverse.dropWhile isBlank).reverse

/-! ## Words -/

/-- The connector punctuation (general category Pc) and the two join controls,
in increasing order. -/
def connectorTable : CodeTable :=
  [(0x5F, 0x5F), (0x200C, 0x200D), (0x203F, 0x2040), (0x2054, 0x2054), (0xFE33, 0xFE34),
    (0xFE4D, 0xFE4F), (0xFF3F, 0xFF3F)]

/-- Whether the character is alphabetic. -/
def isAlphabetic (c : Char) : Bool :=
  if c.toNat < 128 then c.isAlpha else alphabeticTable.holds c

/-- Whether the character is a decimal digit of any script. -/
def isDecimalDigit (c : Char) : Bool :=
  if c.toNat < 128 then c.isDigit else decimalDigitTable.holds c

/-- Whether the character is alphabetic or a numeral of any kind. -/
def isAlphanumeric (c : Char) : Bool :=
  isAlphabetic c || numeralTable.holds c

/-- **Whether the character belongs to a word.** -/
def isWord (c : Char) : Bool :=
  if c.toNat < 128 then c.isAlphanum || c == '_'
  else alphabeticTable.holds c || markTable.holds c || decimalDigitTable.holds c ||
    connectorTable.holds c

end IncludeForest.Text
