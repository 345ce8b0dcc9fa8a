/-!
# TOML values, and what stands between words

What a settings file can hold. The library asks three things of a value – is it
a truth value, a string, a list – so the numbers and dates of the format are
read for being well formed and kept as they are written.

Spaces and tabs may stand between any two words of a line, a comment may end a
line, and inside the brackets of a list line ends count as space too. A line
ends at a line feed, which a carriage return may precede; a carriage return by
itself is no line end, and control characters other than the tab stand nowhere.
-/

namespace IncludeForest.Toml

/-! ## Values -/

/-- **A TOML value.** -/
inductive Value where
  /-- A string. -/
  | string (s : String)
  /-- A whole number. -/
  | integer (n : Int)
  /-- A number with a fraction or an exponent, or a special one. -/
  | float (text : String)
  /-- A truth value. -/
  | boolean (b : Bool)
  /-- A date, a time of day, or both. -/
  | datetime (text : String)
  /-- A list of values. -/
  | array (items : List Value)
  /-- Named values. -/
  | table (entries : List (String × Value))
  deriving Repr, Inhabited

namespace Value

/-- What a table holds under a name. A name comes once in a table. -/
def get? (name : String) : List (String × Value) → Option Value
  | [] => none
  | (key, value) :: rest => if key = name then some value else get? name rest

end Value

/-! ## Between words -/

/-- A space or a tab. -/
def isSpace (c : Char) : Bool :=
  c == ' ' || c == '\t'

/-- Whether a comment may hold the character. -/
def isCommentChar (c : Char) : Bool :=
  c == '\t' || (0x20 ≤ c.toNat && c.toNat != 0x7F)

/-- The text behind spaces and tabs. -/
def skipSpace (text : List Char) : List Char :=
  text.dropWhile isSpace

/-- The text behind a line end. -/
def lineFeed? : List Char → Option (List Char)
  | '\n' :: rest => some rest
  | '\r' :: '\n' :: rest => some rest
  | _ => none

/-- The text behind the end of a line, after spaces and a comment at will. The
end of the text is the end of its last line. -/
def lineEnd? (text : List Char) : Option (List Char) :=
  match skipSpace text with
  | [] => some []
  | '#' :: comment =>
    match comment.dropWhile isCommentChar with
    | [] => some []
    | behind => lineFeed? behind
  | behind => lineFeed? behind

/-- The text behind spaces, comments and line ends, inside a comment or not. -/
def skipTrivia (inComment : Bool) : List Char → List Char
  | [] => []
  | '\r' :: '\n' :: rest => skipTrivia false rest
  | c :: rest =>
    if c = '\n' then skipTrivia false rest
    else if inComment && isCommentChar c then skipTrivia true rest
    else if !inComment && isSpace c then skipTrivia false rest
    else if !inComment && c == '#' then skipTrivia true rest
    else c :: rest

end IncludeForest.Toml
