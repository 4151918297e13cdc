import TokenDump.Segment

/-!
# Diagnostics

A diagnostic says what is wrong with a source, and where. On the diagnostic stream each takes a
row: a greeting, the line in brackets, the location if there is one, and the message.
-/

namespace TokenDump

/-- Something that is wrong with a source. -/
structure Diagnostic where
  line : Nat
  location : String
  message : String
deriving DecidableEq, Repr

namespace Diagnostic

/-- Opens every row on the diagnostic stream. -/
def greeting : String :=
  "RIP my dude, it looks like there's an error!"

/-- How a diagnostic is shown. -/
def text (diagnostic : Diagnostic) : String :=
  "[Line " ++ Nat.repr diagnostic.line ++ "] Error" ++ diagnostic.location ++ ": " ++
    diagnostic.message

/-- The row that shows a diagnostic. -/
def row (diagnostic : Diagnostic) : List UInt8 :=
  Utf8.encode ((greeting ++ " " ++ diagnostic.text).toList ++ ['\n'])

/-- A diagnostic that names no location within its line. -/
def atLine (line : Nat) (message : String) : Diagnostic :=
  ⟨line, "", message⟩

/-- What is said of a stray character. -/
def strayCharacter : Diagnostic :=
  atLine Segment.line "Unexpected character."

example : strayCharacter.text = "[Line 1] Error: Unexpected character." := by decide +kernel

end Diagnostic

end TokenDump
