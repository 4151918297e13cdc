import TokenDump.Session

/-!
# The command line

The program shows the tokens of one script, or, without arguments, of the lines of its input. It
ends with a code that tells what went wrong. The error that ends it is told on the diagnostic
stream; if even that cannot be written the program aborts, and so it does if an argument is not a
text or if the usage cannot be shown.
-/

namespace TokenDump.CommandLine

/-- How the program ends. -/
inductive ExitCode where
  | success
  /-- It was called in a wrong way. -/
  | usage
  /-- Something is wrong with the script. -/
  | data
  /-- A file or a stream failed. -/
  | io
deriving DecidableEq, Repr

/-- The number of an exit code. -/
def ExitCode.number : ExitCode → Nat
  | success => 0
  | usage => 64
  | data => 65
  | io => 74

/-- The exit code after a script, given whether anything was reported. -/
def ExitCode.ofFlag : Bool → ExitCode
  | true => data
  | false => success

/-- How the program is called. -/
def usage : String :=
  "Usage: corgy [script]"

/-- What the arguments ask for. -/
inductive Command where
  | converse
  | dumpFile (path : Path)
  | explain
deriving DecidableEq, Repr

/-- The command that some arguments give; none if an argument is not a text. -/
def Command.ofArguments? (arguments : List (List UInt8)) : Option Command :=
  if arguments.all Utf8.isValid then
    match arguments with
    | [] => some .converse
    | [path] => some (.dumpFile path)
    | _ => some .explain
  else none

/-- What is left when the program is over. -/
inductive Outcome where
  | exited (code : ExitCode) (session : Session)
  | aborted
deriving DecidableEq, Repr

/-- A text as a row. -/
def row (text : String) : List UInt8 :=
  Utf8.encode (text.toList ++ ['\n'])

/-- Shows how the program is called. -/
def explain (session : Session) : Outcome :=
  match session.print (row usage) with
  | (.ok (), session) => .exited .usage session
  | (.error _, _) => .aborted

/-- Tells why the program cannot go on. -/
def giveUp (session : Session) (failure : Failure) : Outcome :=
  match session.console.sink.write (row failure.message) with
  | (.ok (), sink) => .exited .io { session with console := { session.console with sink } }
  | (.error _, _) => .aborted

/-- Ends the program after a script. -/
def afterScript : Except Failure Bool × Session → Outcome
  | (.ok flag, session) => .exited (.ofFlag flag) session
  | (.error failure, session) => giveUp session failure

/-- Ends the program after a conversation. -/
def afterConversation : Except Fault Unit × Session → Outcome
  | (.ok (), session) => .exited .success session
  | (.error fault, session) => giveUp session (.stream fault)

/-- Carries out a command, if there is one, and ends the program. How a conversation is held and a
script is shown is given, and either may act on the world outside. -/
def carryOut {m : Type → Type} [Monad m] (session : Session)
    (converse : m (Except Fault Unit × Session))
    (dumpFile : Path → m (Except Failure Bool × Session)) : Option Command → m Outcome
  | none => return .aborted
  | some .converse => return afterConversation (← converse)
  | some (.dumpFile path) => return afterScript (← dumpFile path)
  | some .explain => return explain session

/-- Runs the program in a session, with some arguments and an input. -/
def run (session : Session) (arguments : List (List UInt8)) (input : Input) : Outcome :=
  let converse : Id (Except Fault Unit × Session) :=
    match session.converse input with
    | (result, session, _) => pure (result, session)
  Id.run (carryOut session converse (fun path => pure (session.dumpFile path))
    (Command.ofArguments? arguments))

end TokenDump.CommandLine
