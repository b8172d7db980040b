import Wiring.Sink.Basic

/-!
# Sinks that keep what they are given

A buffer collects the text of a unit as a whole. After closing, further text is refused;
abandoning is closing. A recorder keeps the text of the successful appends and every call
with its result, and it refuses the calls it was told to refuse.
-/

namespace Wiring

/-! ## Collecting text -/

/-- Collected text. -/
structure TextBuffer where
  /-- The text so far. -/
  text : String := ""
  /-- Whether it was closed. -/
  isClosed : Bool := false
deriving DecidableEq, Repr, Inhabited

namespace TextBuffer

/-- Takes a text unless the buffer is closed. -/
def append (text : String) (buffer : TextBuffer) : Except SystemFault Unit × TextBuffer :=
  if buffer.isClosed then (.error .closed, buffer)
  else (.ok (), { buffer with text := buffer.text ++ text })

/-- Closes the buffer. -/
def close (buffer : TextBuffer) : Except SystemFault Unit × TextBuffer :=
  (.ok (), { buffer with isClosed := true })

/-- The sink that collects. -/
def sink : Sink TextBuffer :=
  { append := append
    flush := fun buffer => (.ok (), buffer)
    close := close
    abandon := close }

end TextBuffer

namespace SourceUnit

/-- The text of a unit, or why there is none. -/
def render (unit : SourceUnit) : Except Failure String :=
  match unit.draft.stop with
  | none => .ok unit.draft.fullText
  | some malformed => .error (.malformed unit.name malformed)

end SourceUnit

/-! ## Recording calls -/

/-- One call of a sink. -/
inductive SinkCall where
  /-- A text was offered. -/
  | append (text : String)
  /-- A flush was asked for. -/
  | flush
  /-- The unit was to be completed. -/
  | close
  /-- The unit was to be given up. -/
  | abandon
deriving DecidableEq, Repr, Inhabited

/-- The name of a call. -/
def SinkCall.name : SinkCall → String
  | append _ => "append"
  | flush => "flush"
  | close => "close"
  | abandon => "abandon"

/-- Which calls are refused. -/
structure Refusals where
  /-- The append to refuse, counted from zero. -/
  append : Option Nat := none
  /-- Whether flushing is refused. -/
  flush : Bool := false
  /-- Whether closing is refused. -/
  close : Bool := false
  /-- Whether abandoning is refused. -/
  abandon : Bool := false
  /-- Whether opening a sink for the unit is refused. -/
  openUnit : Bool := false
  /-- Whether abandoning is closing. -/
  abandonsByClosing : Bool := false
deriving DecidableEq, Repr, Inhabited

/-- What was recorded. -/
structure Recorder where
  /-- Which calls are refused. -/
  refusals : Refusals
  /-- The text of the successful appends. -/
  text : String := ""
  /-- The calls in order, with whether they succeeded. -/
  calls : List (SinkCall × Bool) := []
  /-- The number of appends so far. -/
  appendCount : Nat := 0
deriving DecidableEq, Repr, Inhabited

namespace Recorder

/-- Records a call and refuses it or not. -/
def answer (call : SinkCall) (isRefused : Bool) (recorder : Recorder) :
    Except SystemFault Unit × Recorder :=
  let recorder := { recorder with calls := recorder.calls ++ [(call, !isRefused)] }
  if isRefused then (.error (.other (call.name ++ " refused")), recorder)
  else (.ok (), recorder)

/-- Takes a text. -/
def append (text : String) (recorder : Recorder) : Except SystemFault Unit × Recorder :=
  let isRefused := recorder.refusals.append = some recorder.appendCount
  let recorder := { recorder with appendCount := recorder.appendCount + 1 }
  let recorder := if isRefused then recorder else { recorder with text := recorder.text ++ text }
  recorder.answer (.append text) isRefused

/-- Closes. -/
def close (recorder : Recorder) : Except SystemFault Unit × Recorder :=
  recorder.answer .close recorder.refusals.close

/-- The sink that records. -/
def sink : Sink Recorder :=
  { append := append
    flush := fun recorder => recorder.answer .flush recorder.refusals.flush
    close := close
    abandon := fun recorder =>
      if recorder.refusals.abandonsByClosing then recorder.close
      else recorder.answer .abandon recorder.refusals.abandon }

end Recorder

end Wiring
