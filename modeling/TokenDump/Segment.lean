import TokenDump.Token

/-!
# Segments

`Segment.cut` cuts a text into segments. A segment is a symbol, or a stray character that is part
of no symbol. At each place the longest symbol that fits is taken: two characters where they spell
a symbol together, else one.

Tokens are the segments that are symbols, with the closing mark behind them. Lines are not counted:
a line break is a stray character like any other, and all of a text is on `Segment.line`.
-/

namespace TokenDump

/-- A piece of a text. -/
inductive Segment where
  | symbol (symbol : Symbol)
  | stray (char : Char)
deriving DecidableEq, Repr

namespace Segment

/-- The line that everything in a text is on. -/
def line : Nat :=
  1

/-- The characters of a segment. -/
def chars : Segment → List Char
  | symbol s => s.chars
  | stray c => [c]

/-- How many bytes a segment takes in UTF-8. -/
def width (segment : Segment) : Nat :=
  (Utf8.encode segment.chars).length

/-- The token of a segment; a stray character has none. -/
def token? : Segment → Option Token
  | symbol s => some (.ofSymbol s line)
  | stray _ => none

/-- The segment of one character by itself. -/
def ofChar (c : Char) : Segment :=
  match Symbol.ofChar? c with
  | some s => symbol s
  | none => stray c

/-- The segments of a text, in order. -/
def cut : List Char → List Segment
  | [] => []
  | [c] => [ofChar c]
  | c :: d :: rest =>
    match Symbol.ofPair? c d with
    | some s => symbol s :: cut rest
    | none => ofChar c :: cut (d :: rest)

/-- The tokens of some segments, with the closing mark behind them. -/
def tokens (segments : List Segment) : List Token :=
  segments.filterMap token? ++ [.endOfText line]

@[simp] theorem chars_ofChar (c : Char) : (ofChar c).chars = [c] := by
  unfold ofChar
  split
  · rename_i s found
    exact Symbol.ofChar?_eq_some_iff.mp found
  · rfl

/-- Cutting loses nothing and adds nothing. -/
theorem flatMap_chars_cut (text : List Char) : (cut text).flatMap chars = text := by
  fun_induction cut text with
  | case1 => rfl
  | case2 c => simp
  | case3 c d rest s found ih =>
    have spelled := Symbol.ofPair?_eq_some_iff.mp found
    simp [ih, chars, spelled]
  | case4 c d rest _ ih => simp [ih]

end Segment

end TokenDump
