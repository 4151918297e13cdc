import TokenDump.Fault
import TokenDump.Line

/-!
# Input

An input hands out its chunks in turn. A chunk is some bytes, or a fault of one attempt to read. A
chunk without bytes is the end of the input at that moment; what stands behind it is handed out to
later readers. Behind the last chunk the input stays at its end.

`Input.readLine` joins chunks until a line is complete. Reading a line that has bytes makes the
input smaller (`size_readLine_lt`), so an input holds finitely many lines.
-/

namespace TokenDump

/-- What one attempt to read an input yields. -/
inductive Chunk where
  | data (bytes : List UInt8)
  | fault (fault : Fault)
deriving DecidableEq, Repr

/-- The attempts to read that are still to come. -/
abbrev Input := List Chunk

/-- How much a chunk counts for: its bytes and itself. -/
def Chunk.size : Chunk → Nat
  | .data bytes => bytes.length + 1
  | .fault _ => 1

namespace Input

/-- What is left of a chunk goes before the chunks behind it; nothing left is no chunk. -/
def putBack (bytes : List UInt8) (input : Input) : Input :=
  if bytes.isEmpty then input else .data bytes :: input

/-- Reads one line, and what is then left of the input. A line without bytes is the end of the
input. Interruptions are passed over; any other fault ends the reading, and the bytes of the line
that were read before it are lost. -/
def readLine : Input → Except Fault Line × Input
  | [] => (.ok [], [])
  | .fault fault :: rest => if fault.isInterruption then readLine rest else (.error fault, rest)
  | .data [] :: rest => (.ok [], rest)
  | .data (byte :: bytes) :: rest =>
    match (byte :: bytes).dropWhile (· != Line.lineFeed) with
    | lineFeed :: behind =>
      (.ok ((byte :: bytes).takeWhile (· != Line.lineFeed) ++ [lineFeed]), putBack behind rest)
    | [] =>
      match readLine rest with
      | (.ok line, rest) => (.ok (byte :: bytes ++ line), rest)
      | (.error fault, rest) => (.error fault, rest)

/-- How much an input still holds. -/
def size : Input → Nat
  | [] => 0
  | chunk :: rest => chunk.size + size rest

@[simp] theorem size_nil : size [] = 0 := rfl

@[simp] theorem size_cons (chunk : Chunk) (input : Input) :
    size (chunk :: input) = chunk.size + size input := rfl

theorem size_putBack_le (bytes : List UInt8) (input : Input) :
    (putBack bytes input).size ≤ bytes.length + 1 + input.size := by
  unfold putBack
  split
  · omega
  · simp [Chunk.size]

/-- Reading never gives an input more than it had. -/
theorem size_readLine_le (input : Input) : input.readLine.2.size ≤ input.size := by
  fun_induction readLine input with
  | case1 => simp
  | case2 fault rest _ ih => simp only [size_cons]; omega
  | case3 fault rest _ => simp
  | case4 rest => simp
  | case5 byte bytes rest lineFeed behind cut =>
    have shorter := (List.dropWhile_suffix (l := byte :: bytes) (· != Line.lineFeed)).length_le
    have := size_putBack_le behind rest
    rw [cut] at shorter
    simp only [List.length_cons] at shorter
    simp only [size_cons, Chunk.size, List.length_cons]
    omega
  | case6 byte bytes rest _ line left read ih =>
    simp only [read] at ih
    simp only [size_cons]
    omega
  | case7 byte bytes rest _ fault left read ih =>
    simp only [read] at ih
    simp only [size_cons]
    omega

/-- Reading a line that has bytes makes the input smaller. -/
theorem size_readLine_lt {input rest : Input} {line : Line}
    (read : input.readLine = (.ok line, rest)) (nonempty : line ≠ []) :
    rest.size < input.size := by
  fun_induction readLine input with
  | case1 => simp_all
  | case2 fault rest _ ih =>
    have := ih read
    simp only [size_cons]
    omega
  | case3 => simp at read
  | case4 => simp_all
  | case5 byte bytes tail lineFeed behind cut =>
    have shorter := (List.dropWhile_suffix (l := byte :: bytes) (· != Line.lineFeed)).length_le
    have := size_putBack_le behind tail
    rw [cut] at shorter
    simp only [Prod.mk.injEq] at read
    rw [← read.2]
    simp only [List.length_cons] at shorter
    simp only [size_cons, Chunk.size, List.length_cons]
    omega
  | case6 byte bytes tail _ more left readTail ih =>
    have := size_readLine_le tail
    simp only [Prod.mk.injEq] at read
    simp only [readTail, read.2] at this
    simp only [size_cons, Chunk.size]
    omega
  | case7 => simp at read

end Input

end TokenDump
