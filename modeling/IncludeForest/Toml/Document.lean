import IncludeForest.Toml.Datetime
import IncludeForest.Toml.Number
import IncludeForest.Toml.Quoted
import IncludeForest.Toml.Table

/-!
# Settings files in TOML

The reader of the format, from a text to the table that it describes. A text is
read in two strokes. First the lines are taken apart into **sections**: a header
and the keys with their values that follow it, the keys before the first header
being a section without one. Then the sections are put into one table in their
order, which is where names that clash are found.

Whatever is not a settings file is refused as a whole, and nothing is said about
where it fails. Lists and inline tables nest less than eighty deep, and a dotted
key has fewer than eighty parts.
-/

namespace IncludeForest.Toml

/-- How deep values nest, and how many parts a key has, at the least to be
refused. -/
def nestingLimit : Nat :=
  80

/-! ## Keys -/

/-- Whether a bare key may hold the character. -/
def isBareKeyChar (c : Char) : Bool :=
  c.isAlphanum || c == '_' || c == '-'

/-- One part of a key: quoted, or bare. -/
def keyPart? (text : List Char) : Option (String × List Char) :=
  match text with
  | '"' :: _ => Quoted.line? text
  | '\'' :: _ => Quoted.line? text
  | _ =>
    let bare := text.takeWhile isBareKeyChar
    if bare.isEmpty then none else some (String.ofList bare, text.dropWhile isBareKeyChar)

/-- The parts of a key and the text behind them, with `sofar` read of them,
backwards. -/
def keyParts? : Nat → List String → List Char → Option (List String × List Char)
  | 0, _, _ => none
  | fuel + 1, sofar, text => do
    let (part, rest) ← keyPart? (skipSpace text)
    match skipSpace rest with
    | '.' :: rest => keyParts? fuel (part :: sofar) rest
    | rest => return ((part :: sofar).reverse, rest)

/-- **A key**: parts with dots between them, and space around each at will. -/
def key? (text : List Char) : Option (List String × List Char) := do
  let (parts, rest) ← keyParts? (text.length + 1) [] text
  if parts.length < nestingLimit then some (parts, rest) else none

/-! ## Values -/

/-- A value that holds no other. -/
def scalar? (text : List Char) : Option (Value × List Char) :=
  match text with
  | '"' :: _ => (Quoted.read? text).map fun (s, rest) => (.string s, rest)
  | '\'' :: _ => (Quoted.read? text).map fun (s, rest) => (.string s, rest)
  | 't' :: 'r' :: 'u' :: 'e' :: rest => some (.boolean true, rest)
  | 'f' :: 'a' :: 'l' :: 's' :: 'e' :: rest => some (.boolean false, rest)
  | _ => (Datetime.read? text).getD (Number.read? text)

mutual

/-- **A value**, `depth` lists and inline tables deep. Two steps of reading take
a character at least, which bounds the fuel. -/
def value? : Nat → Nat → List Char → Option (Value × List Char)
  | 0, _, _ => none
  | fuel + 1, depth, text =>
    match text with
    | '[' :: rest =>
      if depth + 1 < nestingLimit then
        match skipTrivia false rest with
        | ']' :: rest => some (.array [], rest)
        | rest => items? fuel (depth + 1) [] rest
      else none
    | '\x7b' :: rest =>
      if depth + 1 < nestingLimit then
        match skipSpace rest with
        | '\x7d' :: rest => some (.table [], rest)
        | rest => pairs? fuel (depth + 1) [] rest
      else none
    | text => scalar? text

/-- The elements of a list up to its closing bracket, with `sofar` read of them,
backwards; there is one at least. A comma may follow the last. -/
def items? : Nat → Nat → List Value → List Char → Option (Value × List Char)
  | 0, _, _, _ => none
  | fuel + 1, depth, sofar, text => do
    let (item, rest) ← value? fuel depth text
    match skipTrivia false rest with
    | ']' :: rest => return (.array (item :: sofar).reverse, rest)
    | ',' :: rest =>
      match skipTrivia false rest with
      | ']' :: rest => return (.array (item :: sofar).reverse, rest)
      | rest => items? fuel depth (item :: sofar) rest
    | _ => none

/-- The keys and values of an inline table up to its closing brace, with
`entries` made of those before; there is one at least. -/
def pairs? : Nat → Nat → Entries → List Char → Option (Value × List Char)
  | 0, _, _, _ => none
  | fuel + 1, depth, entries, text => do
    let (path, rest) ← key? text
    let (v, rest) ← value? fuel depth (skipSpace (← Datetime.behind? '=' rest))
    let entries ← entries.define? true v path
    match skipSpace rest with
    | '\x7d' :: rest => return (.table (entriesFinished entries), rest)
    | ',' :: rest => pairs? fuel depth entries rest
    | _ => none

end

/-! ## Lines -/

/-- **A section of a settings file.** -/
structure Section where
  /-- What the header says: the path it names, and whether it adds an element
  to a list of tables. The first section has no header. -/
  header : Option (List String × Bool) := none
  /-- The keys and their values, in order. -/
  pairs : List (List String × Value) := []
  deriving Repr

/-- The path of a header, behind its opening bracket, and whether it adds an
element. -/
def header? : List Char → Option ((List String × Bool) × List Char)
  | '[' :: rest => do
    let (path, rest) ← key? rest
    match rest with
    | ']' :: ']' :: rest => return ((path, true), rest)
    | _ => none
  | text => do
    let (path, rest) ← key? text
    match rest with
    | ']' :: rest => return ((path, false), rest)
    | _ => none

/-- A key and its value. -/
def pair? (text : List Char) : Option ((List String × Value) × List Char) := do
  let (path, rest) ← key? text
  let rest := skipSpace (← Datetime.behind? '=' rest)
  let (v, rest) ← value? (2 * rest.length + 2) 0 rest
  return ((path, v), rest)

/-- The section with one more key. -/
def Section.push (s : Section) (pair : List String × Value) : Section :=
  { s with pairs := pair :: s.pairs }

/-- The section with its keys in order, which are backwards while it is read. -/
def Section.inOrder (s : Section) : Section :=
  { s with pairs := s.pairs.reverse }

/-- The sections of a text, `current` being the one that its first line goes on
with and `finished` those before, backwards. Every line takes a character at
least, so the length of the text is fuel enough. -/
def sections? : Nat → List Section → Section → List Char → Option (List Section)
  | 0, _, _, _ => none
  | fuel + 1, finished, current, text =>
    match skipSpace text with
    | [] => some (current.inOrder :: finished).reverse
    | '[' :: rest => do
      let (header, rest) ← header? rest
      sections? fuel (current.inOrder :: finished) { header := some header } (← lineEnd? rest)
    | text =>
      match lineEnd? text with
      | some rest => sections? fuel finished current rest
      | none => do
        let (pair, rest) ← pair? text
        sections? fuel finished (current.push pair) (← lineEnd? rest)

/-! ## Documents -/

/-- The entries with what a section adds to them. -/
def Entries.addSection? (entries : Entries) (s : Section) : Option Entries :=
  match s.header with
  | none => entries.defineAll? s.pairs
  | some (path, false) => entries.atPath? (openTable? s.pairs) path
  | some (path, true) => entries.atPath? (openElement? s.pairs) path

/-- The text without the mark that may stand at the front of a file. -/
def dropMark : List Char → List Char
  | '\uFEFF' :: rest => rest
  | text => text

/-- **The table that a text describes**, if it is a settings file. -/
def parse? (text : List Char) : Option (List (String × Value)) := do
  let text := dropMark text
  let sections ← sections? (text.length + 1) [] {} text
  let entries ← sections.foldlM Entries.addSection? []
  return entriesFinished entries

end IncludeForest.Toml
