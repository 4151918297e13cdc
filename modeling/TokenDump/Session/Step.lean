import TokenDump.Session

/-!
# Steps

What can be asked of a session, as data: `Session.step` does one step and `Session.play` does
several in order. What a session has stored and noted only grows, so the part that belongs to a
step is what is there after it and was not there before it.
-/

namespace TokenDump

/-- Something that can be asked of a session. -/
inductive Session.Step where
  | report (diagnostic : Diagnostic)
  | takeFlag
  | scan (source : List Char)
  | dump (source : List Char)
  | dumpFile (path : Path)
  | converse (input : Input)
  | configureOut (behaviour : Sink.Behaviour)
  | configureErr (behaviour : Sink.Behaviour)
  | addFiles (nodes : List (Path × FileTree.Node))
deriving DecidableEq, Repr

/-- What a step yields, apart from the session after it. -/
inductive Session.Yield where
  | nothing
  | flag (raised : Bool)
  | tokens (tokens : List Token)
  | failure (cause : Failure)
deriving DecidableEq, Repr

namespace Session

/-- What a flag, or the failure to find it out, yields. -/
def Yield.ofFlag : Except Failure Bool → Yield
  | .ok raised => .flag raised
  | .error cause => .failure cause

/-- Does one step. -/
def step (session : Session) : Step → Yield × Session
  | .report diagnostic => (.nothing, session.report diagnostic)
  | .takeFlag =>
    match session.takeFlag with
    | (flag, session) => (.flag flag, session)
  | .scan source =>
    match session.scan source with
    | (tokens, session) => (.tokens tokens, session)
  | .dump source =>
    match session.dump source with
    | (result, session) => (.ofFlag (result.mapError .stream), session)
  | .dumpFile path =>
    match session.dumpFile path with
    | (result, session) => (.ofFlag result, session)
  | .converse input =>
    match session.converse input with
    | (.ok (), session, _) => (.nothing, session)
    | (.error fault, session, _) => (.failure (.stream fault), session)
  | .configureOut behaviour => (.nothing, { session with out.behaviour := behaviour })
  | .configureErr behaviour =>
    (.nothing, { session with console := session.console.configure behaviour })
  | .addFiles nodes => (.nothing, { session with files := session.files.putAll nodes })

/-- Does some steps in order. -/
def play (session : Session) : List Step → List Yield × Session
  | [] => ([], session)
  | step :: rest =>
    match session.step step with
    | (yield, session) =>
      match session.play rest with
      | (yields, session) => (yield :: yields, session)

end Session

end TokenDump
