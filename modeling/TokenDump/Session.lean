import TokenDump.Console
import TokenDump.FileTree
import TokenDump.Input

/-!
# Sessions

A session shows the tokens of sources on its output: of a source that is given, of a script file, or
of lines that are typed in at a prompt. A source is scanned to its end before any of its tokens is
shown. What is wrong with it goes to the console, and the flag of the console is taken once the
tokens have been delivered, so a source whose tokens could not be delivered leaves the flag as it is.

`Session.dump`, `Session.dumpFile` and `Session.converse` are the three ways. Each also answers the
session after it, whatever the outcome.
-/

namespace TokenDump

/-- What tokens are shown on, what diagnostics and events go to, and where scripts are found. -/
structure Session where
  out : Sink := {}
  console : Console := {}
  files : FileTree := .fresh
deriving DecidableEq, Repr

/-- Why a session could not do what it was asked to. -/
inductive Failure where
  /-- The file at a path cannot be read. -/
  | unreadable (path : Path) (cause : Fault)
  /-- A stream failed. -/
  | stream (cause : Fault)
deriving DecidableEq, Repr

namespace Failure

/-- The fault behind a failure. -/
def cause : Failure → Fault
  | unreadable _ cause => cause
  | stream cause => cause

/-- What a user is told about a failure. -/
def message : Failure → String
  | unreadable path cause =>
    "Could not read file '" ++ String.ofList (Utf8.lenient path) ++ "': " ++ cause.text
  | stream cause => cause.text

end Failure

namespace Session

/-- Invites the user to type in a line. -/
def invitation : String :=
  "> "

/-! ## Single actions -/

/-- Notes an event. -/
def note : Session → Event → Session
  | ⟨out, console, files⟩, event => ⟨out, console.note event, files⟩

/-- Shows a diagnostic. -/
def report : Session → Diagnostic → Session
  | ⟨out, console, files⟩, diagnostic => ⟨out, console.report diagnostic, files⟩

/-- Answers whether anything was reported since the last time, and forgets it. -/
def takeFlag : Session → Bool × Session
  | ⟨out, console, files⟩ =>
    match console.takeFlag with
    | (flag, console) => (flag, ⟨out, console, files⟩)

/-- The tokens of a source. -/
def scan : Session → List Char → List Token × Session
  | ⟨out, console, files⟩, source =>
    match console.scan source with
    | (tokens, console) => (tokens, ⟨out, console, files⟩)

/-- Writes some bytes to the output. -/
def print : Session → List UInt8 → Except Fault Unit × Session
  | ⟨out, console, files⟩, bytes =>
    match out.write bytes with
    | (result, out) => (result, ⟨out, console, files⟩)

/-- Writes some bytes to the output and flushes it. -/
def present : Session → List UInt8 → Except Fault Unit × Session
  | ⟨out, console, files⟩, bytes =>
    match out.deliver bytes with
    | (result, out) => (result, ⟨out, console, files⟩)

/-! ## Sources -/

/-- Shows the tokens of a source. Answers whether anything was reported since the flag was last
taken. -/
def dump (session : Session) (source : List Char) : Except Fault Bool × Session :=
  match session.scan source with
  | (tokens, session) =>
    match (session.note (.scanned tokens.length)).present (Token.listing tokens) with
    | (.error fault, session) => (.error fault, session)
    | (.ok (), session) =>
      match session.takeFlag with
      | (flag, session) => (.ok flag, session)

/-- Shows the tokens of a script, given what reading its file yielded. Malformed bytes become
replacement characters, which are stray. -/
def dumpScript (session : Session) (path : Path) :
    Except Fault (List UInt8) → Except Failure Bool × Session
  | .error fault => (.error (.unreadable path fault), session)
  | .ok bytes =>
    let event := .scriptRead (String.ofList (Utf8.lenient path)) bytes.length
    match (session.note event).dump (Utf8.lenient bytes) with
    | (result, session) => (result.mapError .stream, session)

/-- Shows the tokens of the script at a path. -/
def dumpFile (session : Session) (path : Path) : Except Failure Bool × Session :=
  session.dumpScript path (session.files.read path)

/-! ## Conversations -/

/-- Invites the user to type in a line. -/
def invite (session : Session) : Except Fault Unit × Session :=
  session.present (Utf8.encode invitation.toList)

/-- Shows the tokens of a line. The flag it leaves is worth no more than an event, as every line
starts anew. -/
def answer (session : Session) (line : Line) : Except Fault Unit × Session :=
  match session.dump (Utf8.lenient (Line.content line)) with
  | (.error fault, session) => (.error fault, session)
  | (.ok true, session) => (.ok (), session.note .lineFlagged)
  | (.ok false, session) => (.ok (), session)

/-- Ends the row of the last invitation. -/
def close (session : Session) : Except Fault Unit × Session :=
  session.print [Line.lineFeed]

/-- Shows the tokens of every line of an input up to its end, each after an invitation. Also
answers what is left of the input. -/
def converse (session : Session) (input : Input) : Except Fault Unit × Session × Input :=
  match session.invite with
  | (.error fault, session) => (.error fault, session, input)
  | (.ok (), session) =>
    match _ : input.readLine with
    | (.error fault, rest) => (.error fault, session, rest)
    | (.ok line, rest) =>
      if _ : line = [] then
        match session.close with
        | (result, session) => (result, session, rest)
      else
        match session.answer line with
        | (.error fault, session) => (.error fault, session, rest)
        | (.ok (), session) => session.converse rest
termination_by input.size
decreasing_by exact Input.size_readLine_lt ‹_› ‹_›

end Session

end TokenDump
