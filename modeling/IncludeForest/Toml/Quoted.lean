import IncludeForest.Text.Digits
import IncludeForest.Toml.Basic

/-!
# Strings in a settings file

There are four ways to write a string. Between double quotes a backslash begins
an escape; between single quotes every character stands for itself; and either
quote can be tripled, which lets the string run over several lines. A line end
right behind the opening of such a string is not part of it, and inside it
every line end is one line feed. A backslash at the end of a line joins the line
to the next word.

Each way is described by what can come next in it, a `Piece`: some characters of
the string, or its end. `Quoted.collect?` puts the pieces together.
-/

namespace IncludeForest.Toml.Quoted

open IncludeForest.Text

/-- **What comes next in a string.** -/
inductive Piece where
  /-- These characters. -/
  | chars (cs : List Char)
  /-- The end of the string, which these characters still belong to. -/
  | finish (cs : List Char)

/-- The string that the pieces make up, `sofar` being what has been read of it,
backwards. Every piece takes a character at least, so the length of the text is
fuel enough. -/
def collect? (piece? : List Char → Option (Piece × List Char)) :
    Nat → List Char → List Char → Option (String × List Char)
  | 0, _, _ => none
  | fuel + 1, sofar, text =>
    match piece? text with
    | none => none
    | some (.chars cs, rest) => collect? piece? fuel (cs.reverseAux sofar) rest
    | some (.finish cs, rest) => some (String.ofList (cs.reverseAux sofar).reverse, rest)

/-- Whether a string may hold the character without an escape. -/
def isPlain (c : Char) : Bool :=
  isCommentChar c

/-- The character by its code point in exactly `count` digits. -/
def byCode? (count : Nat) (text : List Char) : Option (Piece × List Char) := do
  let (code, rest) ← hexDigits? count 0 text
  return (.chars [← charOfCode? code], rest)

/-- What an escape stands for, behind its backslash. -/
def escape? : List Char → Option (Piece × List Char)
  | 'b' :: rest => some (.chars ['\x08'], rest)
  | 't' :: rest => some (.chars ['\t'], rest)
  | 'n' :: rest => some (.chars ['\n'], rest)
  | 'f' :: rest => some (.chars ['\x0C'], rest)
  | 'r' :: rest => some (.chars ['\r'], rest)
  | '"' :: rest => some (.chars ['"'], rest)
  | '\\' :: rest => some (.chars ['\\'], rest)
  | 'u' :: rest => byCode? 4 rest
  | 'U' :: rest => byCode? 8 rest
  | _ => none

/-- A character that stands for itself. -/
def plain? : List Char → Option (Piece × List Char)
  | [] => none
  | c :: rest => if isPlain c then some (.chars [c], rest) else none

/-- The next piece between double quotes. -/
def basicPiece? : List Char → Option (Piece × List Char)
  | '"' :: rest => some (.finish [], rest)
  | '\\' :: rest => escape? rest
  | text => plain? text

/-- The next piece between single quotes. -/
def literalPiece? : List Char → Option (Piece × List Char)
  | '\'' :: rest => some (.finish [], rest)
  | text => plain? text

/-- The quotes at the front of a text inside tripled quotes: one or two are
part of the string, three end it, and one or two before those three are the
string's last characters. More cannot stand there. -/
def quotes? (quote : Char) (text : List Char) : Option (Piece × List Char) :=
  let count := (text.takeWhile (· == quote)).length
  let rest := text.dropWhile (· == quote)
  if count < 3 then some (.chars (List.replicate count quote), rest)
  else if count < 6 then some (.finish (List.replicate (count - 3) quote), rest)
  else none

/-- A line end or a character that stands for itself. -/
def lineOrPlain? (text : List Char) : Option (Piece × List Char) :=
  match lineFeed? text with
  | some rest => some (.chars ['\n'], rest)
  | none => plain? text

/-- The text behind space and line ends. -/
def skipLines : List Char → List Char
  | [] => []
  | '\r' :: '\n' :: rest => skipLines rest
  | c :: rest => if c = '\n' ∨ isSpace c then skipLines rest else c :: rest

/-- The text behind a line end and what space and line ends follow it, where
nothing but space stands before it. -/
def joined? (text : List Char) : Option (List Char) :=
  (lineFeed? (skipSpace text)).map skipLines

/-- The next piece between tripled double quotes. -/
def basicLinesPiece? : List Char → Option (Piece × List Char)
  | '"' :: rest => quotes? '"' ('"' :: rest)
  | '\\' :: rest =>
    match joined? rest with
    | some rest => some (.chars [], rest)
    | none => escape? rest
  | text => lineOrPlain? text

/-- The next piece between tripled single quotes. -/
def literalLinesPiece? : List Char → Option (Piece × List Char)
  | '\'' :: rest => quotes? '\'' ('\'' :: rest)
  | text => lineOrPlain? text

/-- The text without a line end at its front. -/
def dropLineFeed (text : List Char) : List Char :=
  (lineFeed? text).getD text

/-- The string that the pieces of a text make up. -/
def pieces? (piece? : List Char → Option (Piece × List Char)) (text : List Char) :
    Option (String × List Char) :=
  collect? piece? (text.length + 1) [] text

/-- **A string on one line**, in either kind of quotes. -/
def line? : List Char → Option (String × List Char)
  | '"' :: rest => pieces? basicPiece? rest
  | '\'' :: rest => pieces? literalPiece? rest
  | _ => none

/-- **A string.** -/
def read? : List Char → Option (String × List Char)
  | '"' :: '"' :: '"' :: rest => pieces? basicLinesPiece? (dropLineFeed rest)
  | '\'' :: '\'' :: '\'' :: rest => pieces? literalLinesPiece? (dropLineFeed rest)
  | text => line? text

end IncludeForest.Toml.Quoted
