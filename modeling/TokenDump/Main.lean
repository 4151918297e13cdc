import TokenDump.CommandLine

/-!
# The program

Carries out on the streams and files of the system what `CommandLine.carryOut` and `Session` decide.
A session stores what it shows and tells, and this is written out as soon as it is there. So a
conversation goes line by line here, and a line is answered before the next one is typed in.
-/

namespace TokenDump.Main

open CommandLine (Command Outcome)

/-! ## The system -/

/-- The fault with a number, which may be given with its sign changed. A number without a name is
told in the system's words. -/
def faultOfCode (code : UInt32) (details : String) : Fault :=
  match Fault.SystemError.ofCode? (min code (0 - code)).toNat with
  | some error => .system error
  | none => .described .other details

/-- The fault behind an error. -/
def faultOf : IO.Error → Fault
  | .userError details => .described .other details
  | .unexpectedEof => .plain .unexpectedEof
  | .otherError code details | .resourceBusy code details | .resourceVanished code details
  | .unsupportedOperation code details | .hardwareFault code details
  | .unsatisfiedConstraints code details | .illegalOperation code details
  | .protocolError code details | .timeExpired code details | .interrupted _ code details
  | .noFileOrDirectory _ code details | .alreadyExists _ code details
  | .invalidArgument _ code details | .permissionDenied _ code details
  | .resourceExhausted _ code details | .inappropriateType _ code details
  | .noSuchThing _ code details => faultOfCode code details

/-- What becomes of an action: the fault behind its error, if it ends in one. -/
def attempt {α : Type} (action : IO α) : IO (Except Fault α) := do
  try
    return .ok (← action)
  catch error =>
    return .error (faultOf error)

/-- Reads the file at a path. -/
def readFile (path : Path) : IO (Except Fault (List UInt8)) :=
  attempt do
    let data ← IO.FS.readBinFile (String.ofList (Utf8.lenient path))
    return data.data.toList

/-- Reads up to and including a line feed, behind the bytes that were read before. -/
partial def readLine (stdin : IO.FS.Stream) (before : Array UInt8) : IO Line := do
  let read ← stdin.read 1
  let line := before ++ read.data
  if read.isEmpty || read.data.back? == some Line.lineFeed then
    return line.toList
  else
    readLine stdin line

/-- Writes some bytes to a stream and flushes it. Without bytes nothing is asked of the stream. -/
def emit (stream : IO.FS.Stream) (bytes : Array UInt8) : IO Unit := do
  unless bytes.isEmpty do
    stream.write ⟨bytes⟩
    stream.flush

/-- Writes out what a session has stored, and forgets it. Diagnostics come first, and those that
cannot be written are given up. -/
def deliver (session : Session) : IO Session := do
  let _ ← attempt (emit (← IO.getStderr) session.console.sink.stored)
  emit (← IO.getStdout) session.out.stored
  return { session with out := {}, console := { flagged := session.console.flagged } }

/-! ## Commands -/

/-- Answers line after line until there are no more. -/
partial def answerAll (session : Session) : IO Unit := do
  let session ← deliver session.invite.2
  let line ← readLine (← IO.getStdin) #[]
  if line.isEmpty then
    let _ ← deliver session.close.2
  else
    answerAll (session.answer line).2

/-- Holds a conversation. Nothing of it is left to be written out. -/
def converse : IO (Except Fault Unit × Session) := do
  return (← attempt (answerAll {}), {})

/-- Shows the tokens of the script at a path. -/
def dumpFile (path : Path) : IO (Except Failure Bool × Session) := do
  let (result, session) := Session.dumpScript {} path (← readFile path)
  match ← attempt (deliver session) with
  | .ok session => return (result, session)
  | .error fault => return (.error (.stream fault), {})

/-! ## The end -/

/-- The code of a program that aborts. -/
def abortCode : UInt32 := 101

/-- Ends the program. It aborts too if what it says last cannot be written. -/
def finish : Outcome → IO UInt32
  | .aborted => return abortCode
  | .exited code session => do
    try
      emit (← IO.getStderr) session.console.sink.stored
      emit (← IO.getStdout) session.out.stored
      return code.number.toUInt32
    catch _ =>
      return abortCode

end TokenDump.Main

/-- Runs the program with its arguments. -/
def main (arguments : List String) : IO UInt32 := do
  let arguments := arguments.map fun argument => TokenDump.Utf8.encode argument.toList
  TokenDump.Main.finish (← TokenDump.CommandLine.carryOut {} TokenDump.Main.converse
    TokenDump.Main.dumpFile (TokenDump.CommandLine.Command.ofArguments? arguments))
