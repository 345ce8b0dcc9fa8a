/-!
# Painted lines

What is shown to the user is a list of lines, and a **line** is an indentation
and a list of segments. A **segment** is a piece of text together with the
style it is to be painted in. Whether styles are used at all is decided when a
line is written, so that a line with colours and a line without are the same
line: leaving the colours out leaves out the style sequences and nothing else.

A painted segment ends in the sequence that takes every style back. So no
style reaches beyond its segment, and none is begun for an empty text.
-/

namespace IncludeForest.View

/-- The sequence that takes every style back. -/
def reset : String :=
  "\x1b[0m"

/-- **How a segment is painted**: the style sequences it begins with. -/
structure Style where
  /-- The sequences, one after the other. -/
  codes : List String := []
  deriving DecidableEq, Repr, Inhabited

namespace Style

/-- No style. -/
def plain : Style :=
  {}

/-- A header that closes a cycle: red. -/
def cycle : Style :=
  ⟨["\x1b[31m"]⟩

/-- What contains a cycle: yellow. -/
def cyclePath : Style :=
  ⟨["\x1b[33m"]⟩

/-- Markers and counts: dim. -/
def dim : Style :=
  ⟨["\x1b[2m"]⟩

/-- What the search found: bold and underlined, besides the style of what
surrounds it. -/
def hit (around : Style) : Style :=
  ⟨"\x1b[1;4m" :: around.codes⟩

end Style

/-- **A piece of text and its style.** -/
structure Segment where
  /-- The text. -/
  text : String
  /-- How it is painted. -/
  style : Style := .plain
  deriving DecidableEq, Repr, Inhabited

/-- The segment as it is written, with styles or without. -/
def Segment.write (color : Bool) (s : Segment) : String :=
  if color ∧ ¬ s.style.codes.isEmpty ∧ ¬ s.text.isEmpty then
    String.join s.style.codes ++ s.text ++ reset
  else
    s.text

/-- **A line of the view.** -/
structure Line where
  /-- The depth of the line in the view. -/
  level : Nat := 0
  /-- What stands on it. -/
  segments : List Segment
  deriving DecidableEq, Repr, Inhabited

/-- How many spaces a line is indented for each level. -/
def indentWidth : Nat :=
  2

/-- The line as it is written, with its line end. -/
def Line.write (color : Bool) (line : Line) : String :=
  String.ofList (List.replicate (line.level * indentWidth) ' ') ++
    String.join (line.segments.map (·.write color)) ++ "\n"

/-- **The lines as they are written.** -/
def write (color : Bool) (lines : List Line) : String :=
  String.join (lines.map (·.write color))

end IncludeForest.View
