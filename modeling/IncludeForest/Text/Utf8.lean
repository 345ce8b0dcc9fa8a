/-!
# Reading UTF-8

A log is a file of bytes, and a compiler may write its paths in a code page
that is not UTF-8. Reading such a file must not fail, so every stretch of
bytes that is no character becomes one replacement character, and the rest of
the file is read as if nothing had happened. A settings file has no such
excuse: it is read strictly or not at all.

Both readings come from one decoder. `Utf8.step` takes one byte at a time and
keeps what the current character still lacks, `Utf8.units` lists what it
finds – a character, or a stretch that cannot begin one – and the two readings
differ only in what they make of a stretch: `decodeLossy` writes the
replacement character, `decodeStrict?` gives up.

## How long a stretch is

A stretch is a **maximal subpart**: a lead byte with as many of its
continuation bytes as are in order, or one byte that leads nothing. The byte
that breaks a character off is not part of the stretch; it is read again, as
the start of something. So a stretch never swallows a byte that could be read,
and in particular never a line end.
-/

namespace IncludeForest.Text.Utf8

/-- **What the decoder is in the middle of.** -/
inductive Pending where
  /-- Between characters. -/
  | between
  /-- Inside a character: the bits read so far, how many bytes are still owed
  (at least one), and the least and greatest byte that may come next. -/
  | inside (value owed : Nat) (least greatest : UInt8)
  deriving DecidableEq, Repr

/-- What a byte between two characters begins: a whole character, the inside
of a longer one, or nothing. -/
def start (b : UInt8) : List (Option Char) × Pending :=
  if b < 0x80 then ([some (Char.ofNat b.toNat)], .between)
  else if 0xC2 ≤ b ∧ b ≤ 0xDF then ([], .inside (b.toNat - 0xC0) 1 0x80 0xBF)
  else if b = 0xE0 then ([], .inside 0 2 0xA0 0xBF)
  else if b = 0xED then ([], .inside 0xD 2 0x80 0x9F)
  else if 0xE1 ≤ b ∧ b ≤ 0xEF then ([], .inside (b.toNat - 0xE0) 2 0x80 0xBF)
  else if b = 0xF0 then ([], .inside 0 3 0x90 0xBF)
  else if b = 0xF4 then ([], .inside 4 3 0x80 0x8F)
  else if 0xF1 ≤ b ∧ b ≤ 0xF3 then ([], .inside (b.toNat - 0xF0) 3 0x80 0xBF)
  else ([none], .between)

/-- **One byte of the decoder**: what it completes and where it leads. Only
the byte after a lead byte can be held to less than the whole range of
continuation bytes. -/
def step : Pending → UInt8 → List (Option Char) × Pending
  | .between, b => start b
  | .inside value owed least greatest, b =>
    if least ≤ b ∧ b ≤ greatest then
      let value := value * 64 + (b.toNat - 0x80)
      if owed = 1 then ([some (Char.ofNat value)], .between)
      else ([], .inside value (owed - 1) 0x80 0xBF)
    else
      let (found, next) := start b
      (none :: found, next)

/-- What is left when the bytes end: a character broken off is a stretch. -/
def finish : Pending → List (Option Char)
  | .between => []
  | .inside .. => [none]

/-- One byte of the decoder, with what was found before it in reverse. -/
def advance (state : List (Option Char) × Pending) (b : UInt8) : List (Option Char) × Pending :=
  let (found, next) := step state.2 b
  (found.reverse ++ state.1, next)

/-- **The units of a byte string**: its characters in order, with `none` for
each stretch of bytes that is no character. -/
def units (bytes : List UInt8) : List (Option Char) :=
  let (found, pending) := bytes.foldl advance ([], .between)
  found.reverse ++ finish pending

/-- The character that stands for a stretch of bytes that is none. -/
def replacement : Char :=
  '\uFFFD'

/-- The text of a byte string, with one replacement character for each stretch
that is not UTF-8. -/
def decodeLossy (bytes : List UInt8) : List Char :=
  (units bytes).map (·.getD replacement)

/-- The text of a byte string, if all of it is UTF-8. -/
def decodeStrict? (bytes : List UInt8) : Option (List Char) :=
  (units bytes).mapM id

end IncludeForest.Text.Utf8
