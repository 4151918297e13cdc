import TokenDump.Diagnostic
import TokenDump.Fault

/-!
# Events

What happens inside is recorded as events. An event has a level, and is shown as a message with
named details. Only a program that is built to trace records its segments; the one here is.
-/

namespace TokenDump

/-- Something that happened. -/
inductive Event where
  /-- A segment of a source begins, so many bytes into it. A program that is built without tracing
  leaves these events out, and only these. -/
  | segment (start line : Nat)
  /-- A diagnostic is about to be written. -/
  | reported (diagnostic : Diagnostic)
  /-- A diagnostic was not written, or not all of it. -/
  | unshown (cause : Fault)
  /-- A source has been scanned into so many tokens. -/
  | scanned (count : Nat)
  /-- The bytes of a script have been read. -/
  | scriptRead (path : String) (size : Nat)
  /-- A line that was typed in had something wrong with it. -/
  | lineFlagged
deriving DecidableEq, Repr

/-- How much an event matters. -/
inductive Event.Level where
  | trace
  | debug
  | warn
deriving DecidableEq, Repr

/-- The value of a detail. -/
inductive Event.Value where
  | text (text : String)
  | number (number : Nat)
deriving DecidableEq, Repr

namespace Event

/-- The name that a level is shown under. -/
def Level.name : Level → String
  | trace => "TRACE"
  | debug => "DEBUG"
  | warn => "WARN"

/-- The level of an event. -/
def level : Event → Level
  | segment _ _ => .trace
  | unshown _ => .warn
  | _ => .debug

/-- The message of an event. -/
def message : Event → String
  | segment _ _ => "scanning lexeme"
  | reported _ => "lexical error"
  | unshown _ => "failed to write diagnostic"
  | scanned _ => "scanned tokens"
  | scriptRead _ _ => "read script"
  | lineFlagged => "line had errors"

/-- What is told beside the message. -/
def details : Event → List (String × Value)
  | segment start line => [("start", .number start), ("line", .number line)]
  | reported diagnostic =>
    [("line", .number diagnostic.line), ("location", .text diagnostic.location),
      ("message", .text diagnostic.message)]
  | unshown cause => [("err", .text cause.text)]
  | scanned count => [("count", .number count)]
  | scriptRead path size => [("path", .text path), ("bytes", .number size)]
  | lineFlagged => []

/-- All that is shown of an event, the message first. -/
def fields (event : Event) : List (String × Value) :=
  ("message", .text event.message) :: event.details

end Event

end TokenDump
