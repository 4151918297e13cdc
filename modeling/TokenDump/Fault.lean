/-!
# Faults

Why a stream or a file could not be used. A fault is known by its kind alone, or carries a
description, or is one of the system's errors, which have a number. `Fault.kind` and `Fault.text`
are what a user gets to see of it.
-/

namespace TokenDump

/-- What kind of fault it is. -/
inductive Fault.Kind where
  | notFound
  | permissionDenied
  | connectionRefused
  | connectionReset
  | brokenPipe
  | alreadyExists
  | wouldBlock
  | notADirectory
  | isADirectory
  | filesystemLoop
  | invalidInput
  | invalidData
  | timedOut
  | writeZero
  | storageFull
  | invalidFilename
  | interrupted
  | unsupported
  | unexpectedEof
  | outOfMemory
  | inputOutput
  | other
  | uncategorized
deriving DecidableEq, Repr

/-- The text of a fault of which no more than the kind is known. -/
def Fault.Kind.text : Kind → String
  | notFound => "entity not found"
  | permissionDenied => "permission denied"
  | connectionRefused => "connection refused"
  | connectionReset => "connection reset"
  | brokenPipe => "broken pipe"
  | alreadyExists => "entity already exists"
  | wouldBlock => "operation would block"
  | notADirectory => "not a directory"
  | isADirectory => "is a directory"
  | filesystemLoop => "filesystem loop or indirection limit (e.g. symlink loop)"
  | invalidInput => "invalid input parameter"
  | invalidData => "invalid data"
  | timedOut => "timed out"
  | writeZero => "write zero"
  | storageFull => "no storage space"
  | invalidFilename => "invalid filename"
  | interrupted => "operation interrupted"
  | unsupported => "unsupported"
  | unexpectedEof => "unexpected end of file"
  | outOfMemory => "out of memory"
  | inputOutput => "input/output error"
  | other => "other error"
  | uncategorized => "uncategorized error"

/-- An error that the system reports by number. -/
inductive Fault.SystemError where
  | notPermitted
  | noSuchFile
  | interruptedCall
  | inputOutput
  | badDescriptor
  | permissionDenied
  | notADirectory
  | isADirectory
  | invalidArgument
  | noSpaceLeft
  | brokenPipe
  | nameTooLong
  | tooManyLinks
deriving DecidableEq, Repr

namespace Fault.SystemError

/-- Every system error, by rising number. -/
def all : List SystemError :=
  [notPermitted, noSuchFile, interruptedCall, inputOutput, badDescriptor, permissionDenied,
    notADirectory, isADirectory, invalidArgument, noSpaceLeft, brokenPipe, nameTooLong,
    tooManyLinks]

/-- The number of a system error. -/
def code : SystemError → Nat
  | notPermitted => 1
  | noSuchFile => 2
  | interruptedCall => 4
  | inputOutput => 5
  | badDescriptor => 9
  | permissionDenied => 13
  | notADirectory => 20
  | isADirectory => 21
  | invalidArgument => 22
  | noSpaceLeft => 28
  | brokenPipe => 32
  | nameTooLong => 36
  | tooManyLinks => 40

/-- The system error with a number. -/
def ofCode? (code : Nat) : Option SystemError :=
  all.find? fun error => error.code == code

/-- The system's own words for an error. -/
def description : SystemError → String
  | notPermitted => "Operation not permitted"
  | noSuchFile => "No such file or directory"
  | interruptedCall => "Interrupted system call"
  | inputOutput => "Input/output error"
  | badDescriptor => "Bad file descriptor"
  | permissionDenied => "Permission denied"
  | notADirectory => "Not a directory"
  | isADirectory => "Is a directory"
  | invalidArgument => "Invalid argument"
  | noSpaceLeft => "No space left on device"
  | brokenPipe => "Broken pipe"
  | nameTooLong => "File name too long"
  | tooManyLinks => "Too many levels of symbolic links"

/-- The kind of a system error. -/
def kind : SystemError → Kind
  | notPermitted => .permissionDenied
  | noSuchFile => .notFound
  | interruptedCall => .interrupted
  | inputOutput => .inputOutput
  | badDescriptor => .uncategorized
  | permissionDenied => .permissionDenied
  | notADirectory => .notADirectory
  | isADirectory => .isADirectory
  | invalidArgument => .invalidInput
  | noSpaceLeft => .storageFull
  | brokenPipe => .brokenPipe
  | nameTooLong => .invalidFilename
  | tooManyLinks => .filesystemLoop

theorem ofCode?_code (error : SystemError) : ofCode? error.code = some error := by
  cases error <;> rfl

end Fault.SystemError

/-- Why a stream or a file could not be used. -/
inductive Fault where
  | plain (kind : Fault.Kind)
  | described (kind : Fault.Kind) (description : String)
  | system (error : Fault.SystemError)
deriving DecidableEq, Repr

namespace Fault

/-- The kind of a fault. -/
def kind : Fault → Kind
  | plain k => k
  | described k _ => k
  | system error => error.kind

/-- The words for a fault. -/
def text : Fault → String
  | plain k => k.text
  | described _ description => description
  | system error => error.description ++ " (os error " ++ Nat.repr error.code ++ ")"

/-- Whether the fault only says that the attempt was disturbed and may be repeated. -/
def isInterruption (fault : Fault) : Bool :=
  fault.kind == .interrupted

/-- A stream took fewer bytes than it was given and says nothing about why. -/
def shortWrite : Fault :=
  described .writeZero "failed to write whole buffer"

/-- A path holds a byte that no file name can hold. -/
def nulInPath : Fault :=
  described .invalidInput "file name contained an unexpected NUL byte"

end Fault

end TokenDump
