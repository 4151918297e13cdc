import TokenDump.Event
import TokenDump.Sink

/-!
# The console

Every diagnostic goes through the console. It writes the diagnostic to its sink and raises a flag,
whether or not the write succeeds: a diagnostic that cannot be shown is noted and scanning goes on.
The flag stays up until it is taken. All events are noted here, in the order in which they happen.
-/

namespace TokenDump

/-- Where diagnostics are shown and events are noted. -/
structure Console where
  sink : Sink := {}
  /-- Whether anything was reported since the flag was last taken. -/
  flagged : Bool := false
  log : Array Event := #[]
deriving DecidableEq, Repr

namespace Console

/-- Notes an event. -/
def note : Console → Event → Console
  | ⟨sink, flagged, log⟩, event => ⟨sink, flagged, log.push event⟩

/-- Shows a diagnostic and raises the flag. -/
def report : Console → Diagnostic → Console
  | ⟨sink, _, log⟩, diagnostic =>
    match sink.write diagnostic.row with
    | (.ok (), sink) => ⟨sink, true, log.push (.reported diagnostic)⟩
    | (.error fault, sink) => ⟨sink, true, (log.push (.reported diagnostic)).push (.unshown fault)⟩

/-- Answers whether the flag is up, and lowers it. -/
def takeFlag : Console → Bool × Console
  | ⟨sink, flagged, log⟩ => (flagged, ⟨sink, false, log⟩)

/-- Changes how the sink answers from now on. -/
def configure : Console → Sink.Behaviour → Console
  | ⟨⟨stored, _⟩, flagged, log⟩, behaviour => ⟨⟨stored, behaviour⟩, flagged, log⟩

/-- Looks at a segment that starts so many bytes into its source. -/
def visit (console : Console) (start : Nat) : Segment → Console
  | .symbol _ => console.note (.segment start Segment.line)
  | .stray _ => (console.note (.segment start Segment.line)).report .strayCharacter

/-- Looks at some segments in order, the first of which starts so many bytes into the source. -/
def survey (console : Console) (start : Nat) : List Segment → Console
  | [] => console
  | segment :: rest => (console.visit start segment).survey (start + segment.width) rest

/-- Scans a source: its tokens, after everything that is wrong with it has been reported. -/
def scan (console : Console) (source : List Char) : List Token × Console :=
  let segments := Segment.cut source
  (Segment.tokens segments, console.survey 0 segments)

end Console

end TokenDump
