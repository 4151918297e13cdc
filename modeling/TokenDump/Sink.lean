import TokenDump.Fault

/-!
# Sinks

A sink stores the bytes that are written to it. It may have room for a certain number of them
only, and its flushes may fail. A write that does not fit stores as much as fits and fails; a write
that fills the room to the last byte does not fail, and neither does an empty one.

A fault of kind `interrupted` is no reason for a write to fail: a writer tries again after an
interruption, and a sink without room that only interrupts is never done. So what is said here of
a write is meant for a `writeFault` of another kind. A flush is tried once only, and may fail for
any reason.

What a sink has stored stays, and grows at its end only: `stored_write` gives the bytes, and
`write_eq_ok_iff` says when a write does not fail.
-/

namespace TokenDump

/-- How a sink answers to writes and flushes from now on. -/
structure Sink.Behaviour where
  /-- How many more bytes fit; `none` for any number. -/
  room : Option Nat := none
  /-- Why a write that does not fit fails; not for an interruption, which ends no write. -/
  writeFault : Fault := .shortWrite
  /-- Why every flush fails; `none` if flushes succeed. -/
  flushFault : Option Fault := none
deriving DecidableEq, Repr

/-- A stream that bytes are written to. -/
structure Sink where
  stored : Array UInt8 := #[]
  behaviour : Sink.Behaviour := {}
deriving DecidableEq, Repr

namespace Sink

/-- A sink that takes nothing, as a device without space. -/
def full : Sink :=
  { behaviour := { room := some 0, writeFault := .system .noSpaceLeft } }

/-- Whether so many bytes still fit. -/
def Behaviour.fits (behaviour : Behaviour) (count : Nat) : Bool :=
  match behaviour.room with
  | none => true
  | some room => decide (count ≤ room)

/-- The part of some bytes that still fits. -/
def Behaviour.accepted (behaviour : Behaviour) (bytes : List UInt8) : List UInt8 :=
  match behaviour.room with
  | none => bytes
  | some room => bytes.take room

/-- The behaviour once so many bytes have been offered. -/
def Behaviour.after (behaviour : Behaviour) (count : Nat) : Behaviour :=
  { behaviour with room := behaviour.room.map (· - count) }

/-- Writes some bytes. -/
def write : Sink → List UInt8 → Except Fault Unit × Sink
  | ⟨stored, behaviour⟩, bytes =>
    (if behaviour.fits bytes.length then .ok () else .error behaviour.writeFault,
      ⟨stored ++ behaviour.accepted bytes, behaviour.after bytes.length⟩)

/-- Asks for everything stored to be delivered. -/
def flush (sink : Sink) : Except Fault Unit :=
  match sink.behaviour.flushFault with
  | none => .ok ()
  | some fault => .error fault

/-- Writes some bytes and flushes. -/
def deliver (sink : Sink) (bytes : List UInt8) : Except Fault Unit × Sink :=
  match sink.write bytes with
  | (.error fault, sink) => (.error fault, sink)
  | (.ok (), sink) => (sink.flush, sink)

@[simp] theorem stored_write (sink : Sink) (bytes : List UInt8) :
    (sink.write bytes).2.stored.toList =
      sink.stored.toList ++ sink.behaviour.accepted bytes := by
  simp [write]

@[simp] theorem behaviour_write (sink : Sink) (bytes : List UInt8) :
    (sink.write bytes).2.behaviour = sink.behaviour.after bytes.length := rfl

theorem write_eq_ok_iff (sink : Sink) (bytes : List UInt8) :
    (sink.write bytes).1 = .ok () ↔ sink.behaviour.fits bytes.length = true := by
  simp [write]

theorem deliver_snd (sink : Sink) (bytes : List UInt8) :
    (sink.deliver bytes).2 = (sink.write bytes).2 := by
  unfold deliver
  split <;> rename_i h <;> simp [h]

end Sink

end TokenDump
