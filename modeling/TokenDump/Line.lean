/-!
# Lines

A line is the bytes up to and including a line feed; the last line of a stream may lack it.
`Line.content` is what is left of a line without its ending.
-/

namespace TokenDump

/-- The bytes of a line, its ending included. -/
abbrev Line := List UInt8

namespace Line

def lineFeed : UInt8 := 10

def carriageReturn : UInt8 := 13

/-- The bytes without a certain last byte, if that is the last. -/
def dropFinal (final : UInt8) (bytes : List UInt8) : List UInt8 :=
  if bytes.getLast? = some final then bytes.dropLast else bytes

/-- The bytes of a line without its ending: first a line feed is dropped, then a carriage
return, each at most once. -/
def content (line : Line) : List UInt8 :=
  dropFinal carriageReturn (dropFinal lineFeed line)

@[simp] theorem dropFinal_nil (final : UInt8) : dropFinal final [] = [] := rfl

@[simp] theorem dropFinal_append_singleton (final byte : UInt8) (bytes : List UInt8) :
    dropFinal final (bytes ++ [byte]) = if byte = final then bytes else bytes ++ [byte] := by
  simp [dropFinal]

example : content [43, 13, 10] = [43] := by decide
example : content [13, 43] = [13, 43] := by decide
example : content [43, 13, 13, 10] = [43, 13] := by decide

end Line

end TokenDump
