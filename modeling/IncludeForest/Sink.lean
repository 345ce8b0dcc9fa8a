import IncludeForest.Text.Bytes

/-!
# Where text goes

Text is handed to a **sink**, which may take only so many bytes before it is
full, and may fail when it is asked to hand on what it has. Writing is a
question with one answer for the whole text: it fits, or it does not. Where the
sink is a file, a text that does not fit still leaves its beginning there.
-/

namespace IncludeForest

/-- **A place that text is written to.** -/
structure Sink where
  /-- How many bytes it takes; any number if that is not limited. -/
  capacity : Option Nat := none
  /-- Whether it fails to hand on what it has taken. -/
  flushFails : Bool := false
  deriving DecidableEq, Repr, Inhabited

namespace Sink

/-- **How a sink fails.** -/
inductive Failure where
  /-- There is no room for the text. -/
  | full
  /-- What was taken cannot be handed on. -/
  | flush
  deriving DecidableEq, Repr

/-- What a failure says of itself. -/
def Failure.message : Failure → String
  | full => "disk full"
  | flush => "flush failed"

/-- Whether a text fits. -/
def fits (sink : Sink) (text : String) : Bool :=
  sink.capacity.all fun room => Text.byteLength text.toList ≤ room

/-- **Writing a text**: what arrives, if it fits. -/
def write (sink : Sink) (text : String) : Except Failure String :=
  if sink.fits text then .ok text else .error .full

/-- Handing on what has been written. -/
def flush (sink : Sink) : Except Failure Unit :=
  if sink.flushFails then .error .flush else .ok ()

/-- **What is left of a text** that the sink has failed on: what there was room
for, if there was little. -/
def remains (sink : Sink) (text : String) : List UInt8 :=
  text.toUTF8.toList.take (sink.capacity.getD 0)

end Sink

end IncludeForest
