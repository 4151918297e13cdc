/-!
# UTF-8

Texts are lists of characters and streams carry bytes. `encode` writes a text as UTF-8. `decode`
reads any bytes at all: it answers the characters that are there and marks every malformed run.
A malformed run is as long as it could still be the beginning of a character, so the byte that
breaks a character off is read afresh, and a byte that begins no character is a run by itself.

`lenient` puts the replacement character for each malformed run; `isValid` holds of bytes that
have none.
-/

namespace TokenDump.Utf8

/-- The bytes of a text. -/
def encode (text : List Char) : List UInt8 :=
  text.flatMap String.utf8EncodeChar

/-- A character of which the first bytes have been read. -/
structure Pending where
  /-- How many bytes follow the next one. -/
  later : Nat
  /-- The least value of the next byte. -/
  low : Nat
  /-- The greatest value of the next byte. -/
  high : Nat
  /-- The number that the bytes read so far stand for. -/
  value : Nat

/-- The character that a first byte beyond ASCII begins. The bounds of the second byte shut out
overlong forms, surrogates and numbers beyond the last character. -/
def Pending.ofLead? (lead : Nat) : Option Pending :=
  if 0xC2 ≤ lead ∧ lead ≤ 0xDF then some ⟨0, 0x80, 0xBF, lead - 0xC0⟩
  else if lead = 0xE0 then some ⟨1, 0xA0, 0xBF, 0⟩
  else if lead = 0xED then some ⟨1, 0x80, 0x9F, 13⟩
  else if 0xE1 ≤ lead ∧ lead ≤ 0xEF then some ⟨1, 0x80, 0xBF, lead - 0xE0⟩
  else if lead = 0xF0 then some ⟨2, 0x90, 0xBF, 0⟩
  else if 0xF1 ≤ lead ∧ lead ≤ 0xF3 then some ⟨2, 0x80, 0xBF, lead - 0xF0⟩
  else if lead = 0xF4 then some ⟨2, 0x80, 0x8F, 4⟩
  else none

/-- Reads a byte between characters. A piece is a character, or `none` for a malformed run. -/
def first (byte : UInt8) : List (Option Char) × Option Pending :=
  if byte.toNat < 0x80 then ([some (Char.ofNat byte.toNat)], none)
  else match Pending.ofLead? byte.toNat with
    | some pending => ([], some pending)
    | none => ([none], none)

/-- Reads one byte: the pieces that it completes, and what is pending after it. -/
def step : Option Pending → UInt8 → List (Option Char) × Option Pending
  | none, byte => first byte
  | some pending, byte =>
    if pending.low ≤ byte.toNat ∧ byte.toNat ≤ pending.high then
      let value := pending.value * 64 + byte.toNat % 64
      match pending.later with
      | 0 => ([some (Char.ofNat value)], none)
      | later + 1 => ([], some ⟨later, 0x80, 0xBF, value⟩)
    else
      (none :: (first byte).1, (first byte).2)

/-- The pieces of the remaining bytes, given what is pending before them. -/
def decodeFrom : Option Pending → List UInt8 → List (Option Char)
  | none, [] => []
  | some _, [] => [none]
  | pending, byte :: rest =>
    match step pending byte with
    | (pieces, pending) => pieces ++ decodeFrom pending rest

/-- The characters and malformed runs of a byte sequence, in order. -/
def decode (bytes : List UInt8) : List (Option Char) :=
  decodeFrom none bytes

/-- Stands for a malformed run. -/
def replacement : Char :=
  '\uFFFD'

/-- The text of any bytes, with `replacement` for each malformed run. -/
def lenient (bytes : List UInt8) : List Char :=
  (decode bytes).map fun piece => piece.getD replacement

/-- Whether bytes are the UTF-8 form of a text. -/
def isValid (bytes : List UInt8) : Bool :=
  (decode bytes).all Option.isSome

@[simp] theorem encode_nil : encode [] = [] := rfl

@[simp] theorem encode_append (left right : List Char) :
    encode (left ++ right) = encode left ++ encode right := by
  simp [encode]

example : lenient [0xE2, 0x82] = [replacement] := by decide
example : lenient [0xC0, 0x80] = [replacement, replacement] := by decide
example : lenient [0xED, 0xA0, 0x80] = [replacement, replacement, replacement] := by decide
example : lenient [0xF0, 0x9F, 0x28] = [replacement, '('] := by decide
example : lenient [0xF0, 0x9F, 0x98, 0x80] = ['😀'] := by decide

end TokenDump.Utf8
