import Rete.Number.Fixed
import Rete.Session.Event

/-!
# Trace records

A recorded event, and its line in a trace: the number of the record, the number of the firing and
the time if they are wanted, and the event.
-/

namespace Rete

/-- An event that was recorded. -/
structure TraceRecord where
  /-- The number of the record, counted over the life of the tracer. -/
  id : Nat
  /-- The number of firings up to the event. A firing that begins counts itself, so that all events
  of one consequence share the number. -/
  firing : Nat
  /-- The time since the tracer was made. -/
  nanoseconds : Nat
  event : SessionEvent
  deriving DecidableEq, Inhabited

/-- What a line of a trace shows beside the event. -/
structure TraceFormat where
  timestamps : Bool := false
  ids : Bool := false
  deriving DecidableEq, Inhabited

namespace TraceFormat

/-- A text filled up to a width from the left. -/
def padLeft (fill : Char) (width : Nat) (text : String) : String :=
  String.ofList (List.replicate (width - text.length) fill) ++ text

/-- A time in microseconds, or in milliseconds or seconds with three decimals from a thousand of
the smaller unit on. -/
def timeText (nanoseconds : Nat) : String :=
  let microseconds := nanoseconds / 1000
  let per (unit : Nat) : String :=
    ((Binary64.ofInt (Int64.ofNat microseconds)).div (.ofInt (Int64.ofNat unit))).fixedText 3
  if 1000000 ≤ microseconds then per 1000000 ++ "s"
  else if 1000 ≤ microseconds then per 1000 ++ "ms"
  else toString microseconds ++ "us"

/-- A tuple of facts. -/
def tupleText (tuple : Tuple) : String :=
  "[" ++ ", ".intercalate (tuple.map Handle.text) ++ "]"

/-- An event. Changes of facts are indented below what rules do. -/
def eventText : SessionEvent → String
  | .factInserted handle typeName => "    INSERT " ++ handle.text ++ " " ++ typeName
  | .factUpdated handle typeName => "    UPDATE " ++ handle.text ++ " " ++ typeName
  | .factRetracted handle typeName => "    RETRACT " ++ handle.text ++ " " ++ typeName
  | .activationCreated rule tuple sequence =>
    "  ACTIVATED " ++ rule.text ++ " " ++ tupleText tuple ++ " #" ++ toString sequence
  | .activationCancelled rule tuple => "  CANCELLED " ++ rule.text ++ " " ++ tupleText tuple
  | .beforeFire rule tuple sequence =>
    "  FIRING " ++ rule.text ++ " " ++ tupleText tuple ++ " #" ++ toString sequence
  | .afterFire rule tuple => "  COMPLETE " ++ rule.text ++ " " ++ tupleText tuple
  | .halted => "=== HALTED ==="
  | .disposed => "=== DISPOSED ==="

/-- The line of a record. -/
def line (format : TraceFormat) (record : TraceRecord) : String :=
  (if format.ids then "[" ++ padLeft '0' 6 (toString record.id) ++ "] " else "") ++
    "F" ++ padLeft '0' 4 (toString record.firing) ++ " " ++
    (if format.timestamps then padLeft ' ' 10 (timeText record.nanoseconds) ++ " " else "") ++
    eventText record.event

/-- The lines of records. -/
def lines (format : TraceFormat) (records : List TraceRecord) : String :=
  "\n".intercalate (records.map format.line)

end TraceFormat

end Rete
