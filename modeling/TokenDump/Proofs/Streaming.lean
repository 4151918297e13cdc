import TokenDump.Proofs.Conversing

/-!
# Streaming

What an input hands out, one thing after another: bytes, ends and faults (`Input.signals`). How the
bytes are cut into chunks cannot be seen in that, and interruptions cannot either. A line is read
from what is handed out alone, so it makes no difference to a conversation where chunks begin and
end: within a character, between a carriage return and its line feed, or within a symbol.

Results:
1. `readLine_signals`: reading a line of an input is reading a line of its signals.
2. `signals_of_error`: what was handed out before a fault.
3. `signals_joined`: joining chunks and leaving out interruptions changes no signal.
4. `converse_of_same`, `converse_rechunked`: a conversation depends on what its input shows alone.
-/

namespace TokenDump

/-! ## 1. Signals -/

/-- What one look at an input shows. -/
inductive Signal where
  | byte (value : UInt8)
  /-- The input is at its end at that moment. -/
  | ended
  /-- An attempt to read fails, and not by an interruption. -/
  | fault (cause : Fault)
deriving DecidableEq, Repr

/-- What a chunk shows. -/
def Chunk.signals : Chunk → List Signal
  | .data [] => [.ended]
  | .data (byte :: bytes) => (byte :: bytes).map .byte
  | .fault cause => if cause.isInterruption then [] else [.fault cause]

/-- What an input shows. -/
def Input.signals (input : Input) : List Signal :=
  input.flatMap Chunk.signals

namespace Signal

/-- Reads one line of what is shown, and what is then left. -/
def readLine : List Signal → Except Fault Line × List Signal
  | [] => (.ok [], [])
  | .ended :: rest => (.ok [], rest)
  | .fault cause :: rest => (.error cause, rest)
  | .byte value :: rest =>
    if value = Line.lineFeed then (.ok [value], rest)
    else ((readLine rest).1.map (value :: ·), (readLine rest).2)

/-- Bytes without a line feed go before the line that is read of the others. -/
theorem readLine_of_uncut {bytes : List UInt8} (uncut : Line.lineFeed ∉ bytes)
    (rest : List Signal) :
    readLine (bytes.map .byte ++ rest) =
      ((readLine rest).1.map (bytes ++ ·), (readLine rest).2) := by
  induction bytes with
  | nil =>
    rw [List.map_nil, List.nil_append]
    rcases readLine rest with ⟨fault | line, left⟩ <;> rfl
  | cons byte bytes ih =>
    rw [List.mem_cons, not_or] at uncut
    rw [List.map_cons, List.cons_append, readLine, if_neg (Ne.symm uncut.1), ih uncut.2]
    rcases readLine rest with ⟨fault | line, left⟩ <;> rfl

theorem readLine_of_cut {front : List UInt8} (uncut : Line.lineFeed ∉ front)
    (rest : List Signal) :
    readLine (front.map .byte ++ .byte Line.lineFeed :: rest) =
      (.ok (front ++ [Line.lineFeed]), rest) := by
  rw [readLine_of_uncut uncut, readLine, if_pos rfl]
  rfl

end Signal

namespace Input

variable {input left right rest : Input} {line : Line} {fault : Fault}

theorem signals_cons (chunk : Chunk) (rest : Input) :
    signals (chunk :: rest) = chunk.signals ++ signals rest := rfl

theorem signals_data_cons {bytes : List UInt8} (nonempty : bytes ≠ []) (rest : Input) :
    signals (.data bytes :: rest) = bytes.map .byte ++ signals rest := by
  cases bytes with
  | nil => exact absurd rfl nonempty
  | cons byte bytes => rfl

theorem signals_putBack (bytes : List UInt8) (rest : Input) :
    signals (putBack bytes rest) = bytes.map .byte ++ signals rest := by
  rcases putBack_cases bytes rest with ⟨rfl, same⟩ | ⟨nonempty, same⟩
  · rw [same]
    rfl
  · rw [same, signals_data_cons nonempty]

/-- Reading a line of an input is reading a line of what it shows. -/
theorem readLine_signals (input : Input) :
    Signal.readLine input.signals = (input.readLine.1, input.readLine.2.signals) := by
  induction input with
  | nil => rfl
  | cons chunk rest ih =>
    rcases chunk with (_ | ⟨byte, bytes⟩) | fault
    · rfl
    · generalize whole : byte :: bytes = piece
      have nonempty : piece ≠ [] := whole ▸ List.cons_ne_nil byte bytes
      rw [signals_data_cons nonempty]
      by_cases fed : Line.lineFeed ∈ piece
      · obtain ⟨front, behind, rfl, uncut⟩ := List.eq_append_cons_of_mem fed
        rw [readLine_data_cut uncut, List.map_append, List.map_cons, List.append_assoc,
          List.cons_append, Signal.readLine_of_cut uncut, signals_putBack]
      · rw [readLine_data_of_uncut fed nonempty, Signal.readLine_of_uncut fed, ih]
    · by_cases passed : fault.isInterruption = true
      · rw [signals_cons, Chunk.signals, if_pos passed, readLine, if_pos passed]
        exact ih
      · rw [signals_cons, Chunk.signals, if_neg passed, readLine, if_neg passed]
        rfl

/-- Inputs that show the same yield the same line, and show the same behind it. -/
theorem readLine_of_same {result : Except Fault Line} (same : left.signals = right.signals)
    (read : left.readLine = (result, rest)) :
    ∃ rest', right.readLine = (result, rest') ∧ rest.signals = rest'.signals := by
  have both := readLine_signals left
  rw [same, readLine_signals right, read, Prod.mk.injEq] at both
  exact ⟨right.readLine.2, Prod.ext both.1 rfl, both.2.symm⟩

/-- Inputs that show the same have the same lines and come to the same end. -/
theorem readAll_of_same (same : left.signals = right.signals) :
    left.readAll.lines = right.readAll.lines ∧ left.readAll.ending = right.readAll.ending := by
  induction left using readAll_induction generalizing right with
  | error left fault rest read =>
    obtain ⟨rest', read', -⟩ := readLine_of_same same read
    rw [readAll_of_error read, readAll_of_error read']
    exact ⟨rfl, rfl⟩
  | ended left rest read =>
    obtain ⟨rest', read', -⟩ := readLine_of_same same read
    rw [readAll_of_nil read, readAll_of_nil read']
    exact ⟨rfl, rfl⟩
  | line left line rest read nonempty ih =>
    obtain ⟨rest', read', behind⟩ := readLine_of_same same read
    rw [readAll_of_line read nonempty, readAll_of_line read' nonempty]
    obtain ⟨lines, ending⟩ := ih behind
    exact ⟨congrArg (line :: ·) lines, ending⟩

/-- Inputs that show the same still do so after as many attempts to read a line. -/
theorem signals_leftAfter (same : left.signals = right.signals) (count : Nat) :
    (left.leftAfter count).signals = (right.leftAfter count).signals := by
  induction count generalizing left right with
  | zero => exact same
  | succ count ih =>
    obtain ⟨rest', read', behind⟩ := readLine_of_same same rfl
    rw [leftAfter_succ_of_read read']
    exact ih behind

end Input

/-! ## 2. What was shown before a fault -/

/-- What a line shows: its bytes, and the end that it was read up to if it lacks a line feed. -/
def Line.signals (line : Line) : List Signal :=
  line.map .byte ++ if line.getLast? = some lineFeed then [] else [.ended]

theorem Line.signals_cons {byte : UInt8} (other : byte ≠ lineFeed) (line : Line) :
    signals (byte :: line) = .byte byte :: signals line := by
  cases line with
  | nil => simp [signals, other]
  | cons next line => rw [signals, List.getLast?_cons_cons]; rfl

namespace Signal

variable {stream rest : List Signal} {line : Line} {cause : Fault}

/-- Before a fault that ends the reading, only bytes of a line are shown that is not complete. -/
theorem eq_of_readLine_error (read : readLine stream = (.error cause, rest)) :
    ∃ broken : List UInt8, Line.lineFeed ∉ broken ∧
      stream = broken.map .byte ++ .fault cause :: rest := by
  fun_induction readLine stream with
  | case1 => cases read
  | case2 => cases read
  | case3 failing rest =>
    cases read
    exact ⟨[], List.not_mem_nil, rfl⟩
  | case4 => cases read
  | case5 value stream other ih =>
    obtain ⟨result, kept⟩ := Prod.mk.inj read
    cases onward : (readLine stream).1 with
    | ok line =>
      rw [onward] at result
      cases result
    | error failing =>
      rw [onward] at result
      cases result
      obtain ⟨broken, uncut, same⟩ := ih (Prod.ext onward kept)
      refine ⟨value :: broken, ?_, congrArg (Signal.byte value :: ·) same⟩
      rw [List.mem_cons, not_or]
      exact ⟨Ne.symm other, uncut⟩

/-- A line is shown as it is read, unless nothing is shown behind it. -/
theorem eq_of_readLine_ok (read : readLine stream = (.ok line, rest)) :
    stream = line.signals ++ rest ∨ (stream = line.map .byte ∧ rest = []) := by
  fun_induction readLine stream generalizing line with
  | case1 =>
    cases read
    exact .inr ⟨rfl, rfl⟩
  | case2 rest =>
    cases read
    exact .inl rfl
  | case3 => cases read
  | case4 rest =>
    cases read
    exact .inl rfl
  | case5 value stream other ih =>
    obtain ⟨result, kept⟩ := Prod.mk.inj read
    cases onward : (readLine stream).1 with
    | error failing =>
      rw [onward] at result
      cases result
    | ok more =>
      rw [onward] at result
      cases result
      rcases ih (Prod.ext onward kept) with same | ⟨same, none⟩
      · refine .inl ?_
        rw [Line.signals_cons other, same]
        rfl
      · exact .inr ⟨congrArg (Signal.byte value :: ·) same, none⟩

end Signal

namespace Input

variable {input rest : Input} {fault : Fault}

/-- What an input shows up to a fault that ends the reading: the lines that were read, and the bytes
of one more that was not complete. -/
theorem signals_of_error (failed : input.readAll.ending = .error fault) :
    ∃ broken : List UInt8, Line.lineFeed ∉ broken ∧
      input.signals = input.readAll.lines.flatMap Line.signals ++
        (broken.map .byte ++ .fault fault :: input.readAll.rest.signals) := by
  induction input using readAll_induction with
  | error input failing rest read =>
    rw [readAll_of_error read] at failed ⊢
    cases failed
    have shown := readLine_signals input
    rw [read] at shown
    exact Signal.eq_of_readLine_error shown
  | ended input rest read =>
    rw [readAll_of_nil read] at failed
    cases failed
  | line input line rest read nonempty ih =>
    rw [readAll_of_line read nonempty] at failed ⊢
    obtain ⟨broken, uncut, behind⟩ := ih failed
    have shown := readLine_signals input
    rw [read] at shown
    refine ⟨broken, uncut, ?_⟩
    rcases Signal.eq_of_readLine_ok shown with same | ⟨-, none⟩
    · rw [same, behind, ← List.append_assoc]
      rfl
    · -- The fault is shown behind the line.
      rw [none] at behind
      simp at behind

end Input

/-! ## 3. Chunks -/

/-- Whether a chunk is an attempt to read that was only disturbed. -/
def Chunk.isInterruption : Chunk → Bool
  | .data _ => false
  | .fault cause => cause.isInterruption

namespace Input

/-- An input without its interruptions. -/
def uninterrupted (input : Input) : Input :=
  input.filter (!·.isInterruption)

/-- An input in which neighbouring chunks that have bytes are joined. -/
def joined : Input → Input
  | [] => []
  | .data (byte :: bytes) :: rest =>
    match joined rest with
    | .data (next :: more) :: behind => .data (byte :: bytes ++ next :: more) :: behind
    | others => .data (byte :: bytes) :: others
  | chunk :: rest => chunk :: joined rest

theorem signals_uninterrupted (input : Input) : input.uninterrupted.signals = input.signals := by
  induction input with
  | nil => rfl
  | cons chunk rest ih =>
    rw [signals_cons, ← ih, uninterrupted]
    by_cases passed : chunk.isInterruption = true
    · rw [List.filter_cons_of_neg (by simp [passed])]
      cases chunk with
      | data bytes => cases passed
      | fault cause =>
        dsimp only [Chunk.isInterruption] at passed
        rw [Chunk.signals, if_pos passed]
        rfl
    · rw [List.filter_cons_of_pos (by simp [passed])]
      rfl

theorem signals_joined (input : Input) : input.joined.signals = input.signals := by
  fun_induction joined input with
  | case1 => rfl
  | case2 byte bytes rest next more behind whole ih =>
    rw [whole, signals_data_cons (List.cons_ne_nil next more)] at ih
    rw [signals_data_cons (by simp), signals_data_cons (List.cons_ne_nil byte bytes), ← ih,
      List.map_append, List.append_assoc]
  | case3 byte bytes rest _ ih => rw [signals_cons, signals_cons, ih]
  | case4 chunk rest _ ih => rw [signals_cons, signals_cons, ih]

end Input

/-! ## 4. Conversations -/

namespace Session

/-- Inputs that show the same lead to the same conversation, and what is left of them shows the
same. -/
theorem converse_of_same {left right : Input} (same : left.signals = right.signals)
    (session : Session) :
    (session.converse left).1 = (session.converse right).1 ∧
      (session.converse left).2.1 = (session.converse right).2.1 ∧
      (session.converse left).2.2.signals = (session.converse right).2.2.signals := by
  obtain ⟨lines, ending⟩ := Input.readAll_of_same same
  have behind : (session.converse left).2.2.signals = (session.converse right).2.2.signals := by
    rw [unread_converse, unread_converse, lines]
    exact Input.signals_leftAfter same _
  obtain ⟨_, leftward, -⟩ := converse_attend session left
  obtain ⟨_, rightward, -⟩ := converse_attend session right
  refine ⟨?_, ?_, behind⟩
  · rw [leftward, rightward, lines, ending]
  · rw [leftward, rightward, lines, ending]

/-- Where the bytes of an input are cut into chunks makes no difference to a conversation, and
neither do interruptions: if two inputs are equal once these are left out and neighbouring chunks
with bytes are joined, a conversation with either ends in the same way and leaves the same session,
both sinks, the flag and the log included. What it leaves of either input shows the same to a later
one. -/
theorem converse_rechunked {left right : Input}
    (same : left.uninterrupted.joined = right.uninterrupted.joined) (session : Session) :
    (session.converse left).1 = (session.converse right).1 ∧
      (session.converse left).2.1 = (session.converse right).2.1 ∧
      (session.converse left).2.2.signals = (session.converse right).2.2.signals := by
  refine converse_of_same ?_ session
  rw [← Input.signals_uninterrupted left, ← Input.signals_joined, same, Input.signals_joined,
    Input.signals_uninterrupted]

/-- One input is cut within a character, within a symbol and between a carriage return and its line
feed, with an interruption, where the other is in one piece. An end and a fault follow in both, and
the output is full after a few bytes. -/
theorem converse_rechunked_everywhere :
    let left : Input := [.data [195], .data [169, 33], .fault (.system .interruptedCall),
      .data [61, 13], .data [10, 43], .data [], .fault (.plain .brokenPipe)]
    let right : Input := [.data [195, 169, 33, 61, 13, 10, 43], .data [],
      .fault (.plain .brokenPipe)]
    let session : Session := { out := { behaviour := { room := some 40 } } }
    left.uninterrupted.joined = right.uninterrupted.joined ∧ left ≠ right ∧
      (session.converse left).1 = (session.converse right).1 ∧
      (session.converse left).2.1 = (session.converse right).2.1 ∧
      (session.converse left).2.2.signals = (session.converse right).2.2.signals := by
  intro left right session
  have same : left.uninterrupted.joined = right.uninterrupted.joined := by decide
  exact ⟨same, by decide, converse_rechunked same session⟩

end Session

end TokenDump
