import IncludeForest.Pattern.Basic
import IncludeForest.Text.Digits

/-!
# Escapes

What a backslash makes of the characters behind it: a character that would
otherwise mean something else, a character named by its code point, one of the
named classes, or an assertion. ASCII punctuation can always be escaped,
whether it needs to be or not, and is then itself, but for the angles, which
ask for the two ends of a word. A letter or a digit can be escaped only where
it has a meaning, so that the letters without one stay free for a later
meaning.

Behind `\b` a brace may open the name of one of the other word boundaries. It
does so if a letter or a hyphen follows; otherwise it opens a count.
-/

namespace IncludeForest.Pattern

open IncludeForest.Text

/-- **What an escape stands for.** -/
inductive Escape where
  /-- One character. -/
  | literal (c : Char)
  /-- One of the named classes or its complement. -/
  | named (set : CharSet)
  /-- An assertion on the position. -/
  | look (assertion : Assertion)
  deriving DecidableEq, Repr

namespace Escape

/-- A character by its code point, behind the letter that asks for it: in
braces, or in exactly `count` digits. -/
def ofCode? (count : Nat) : List Char → Option (Escape × List Char)
  | '{' :: rest => do
    let behind ← (rest.dropWhile (· != '}')).tail?
    let c ← charOfCode? (← hexNumber? (rest.takeWhile (· != '}')))
    return (literal c, behind)
  | text => do
    let (code, rest) ← hexDigits? count 0 text
    return (literal (← charOfCode? code), rest)

/-- The escapes of a single character. -/
def ofChar? : Char → Option Escape
  | 'd' => some (named .digit)
  | 'D' => some (named (.complement .digit))
  | 's' => some (named .blank)
  | 'S' => some (named (.complement .blank))
  | 'w' => some (named .word)
  | 'W' => some (named (.complement .word))
  | 'A' => some (look .textStart)
  | 'z' => some (look .textEnd)
  | 'B' => some (look .notWordBoundary)
  | '<' => some (look .wordStart)
  | '>' => some (look .wordEnd)
  | 'a' => some (literal '\x07')
  | 'f' => some (literal '\x0C')
  | 'n' => some (literal '\n')
  | 'r' => some (literal '\r')
  | 't' => some (literal '\t')
  | 'v' => some (literal '\x0B')
  | _ => none

/-- The word boundaries with a name. -/
def boundary? : String → Option Assertion
  | "start" => some .wordStart
  | "end" => some .wordEnd
  | "start-half" => some .noWordBefore
  | "end-half" => some .noWordBehind
  | _ => none

/-- The word boundary that a text behind its letter names, if it names one. -/
def ofBoundary? : List Char → Option (Escape × List Char)
  | '{' :: rest => do
    let inName (c : Char) := c.isAlpha || c == '-'
    if rest.head?.any inName then
      let assertion ← boundary? (String.ofList (rest.takeWhile inName))
      match rest.dropWhile inName with
      | '}' :: behind => return (look assertion, behind)
      | _ => none
    else return (look .wordBoundary, '{' :: rest)
  | text => some (look .wordBoundary, text)

/-- **The escape behind a backslash**, and the text behind the escape. -/
def read? : List Char → Option (Escape × List Char)
  | [] => none
  | 'x' :: rest => ofCode? 2 rest
  | 'u' :: rest => ofCode? 4 rest
  | 'U' :: rest => ofCode? 8 rest
  | 'b' :: rest => ofBoundary? rest
  | c :: rest =>
    match ofChar? c with
    | some escape => some (escape, rest)
    | none => if c.toNat < 128 ∧ ¬ c.isAlphanum then some (literal c, rest) else none

end Escape

end IncludeForest.Pattern
