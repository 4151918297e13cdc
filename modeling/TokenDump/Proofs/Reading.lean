import TokenDump.Input

/-!
# Reading

All the lines of an input up to its end, as one function (`Input.readAll`), and the lines of some
bytes (`Line.ofBytes`), which is what an input yields that hands out these bytes.

Results:
1. `Calm.ending`: an input without faults other than interruptions is read up to an end.
2. `readAll_local`: what stands behind the mark at which reading ended has no part in it.
3. `Delivers.readAll`: where an input hands out some bytes and then stays at its end, its lines are
   those of the bytes, however it is cut into chunks.
-/

namespace TokenDump.Input

/-! ## 1. Reading up to the end -/

/-- The lines of an input up to its end or up to a fault, why there are no more, and what is left of
the input. -/
structure Reading where
  lines : List Line
  ending : Except Fault Unit
  rest : Input

/-- A reading with one more line in front. -/
def Reading.cons (line : Line) : Reading → Reading
  | ⟨lines, ending, rest⟩ => ⟨line :: lines, ending, rest⟩

/-- Reads line after line until a line has no bytes. -/
def readAll (input : Input) : Reading :=
  match _ : input.readLine with
  | (.error fault, rest) => ⟨[], .error fault, rest⟩
  | (.ok line, rest) =>
    if _ : line = [] then ⟨[], .ok (), rest⟩ else (readAll rest).cons line
termination_by input.size
decreasing_by exact size_readLine_lt ‹_› ‹_›

variable {input rest : Input} {line : Line} {fault : Fault}

theorem readAll_eq (input : Input) :
    input.readAll =
      match input.readLine with
      | (.error fault, rest) => ⟨[], .error fault, rest⟩
      | (.ok line, rest) =>
        if line = [] then ⟨[], .ok (), rest⟩ else (readAll rest).cons line := by
  rw [readAll]
  split
  · next read => rw [read]
  · next read => rw [read]; rfl

theorem readAll_of_error (read : input.readLine = (.error fault, rest)) :
    input.readAll = ⟨[], .error fault, rest⟩ := by
  rw [readAll_eq, read]

theorem readAll_of_nil (read : input.readLine = (.ok [], rest)) :
    input.readAll = ⟨[], .ok (), rest⟩ := by
  rw [readAll_eq, read]
  rfl

theorem readAll_of_line (read : input.readLine = (.ok line, rest)) (nonempty : line ≠ []) :
    input.readAll = (readAll rest).cons line := by
  rw [readAll_eq, read]
  exact if_neg nonempty

/-- Induction along a reading. -/
theorem readAll_induction {motive : Input → Prop}
    (error : ∀ input fault rest, input.readLine = (.error fault, rest) → motive input)
    (ended : ∀ input rest, input.readLine = (.ok [], rest) → motive input)
    (line : ∀ input line rest, input.readLine = (.ok line, rest) → line ≠ [] →
      motive rest → motive input)
    (input : Input) : motive input := by
  fun_induction readAll input with
  | case1 input fault rest read => exact error input fault rest read
  | case2 input rest read => exact ended input rest read
  | case3 input first rest read nonempty ih => exact line input first rest read nonempty ih

/-- What is left of an input after so many attempts to read a line. -/
def leftAfter (input : Input) : Nat → Input
  | 0 => input
  | count + 1 => input.readLine.2.leftAfter count

theorem leftAfter_succ_of_read {result : Except Fault Line} (read : input.readLine = (result, rest))
    (count : Nat) : input.leftAfter (count + 1) = rest.leftAfter count := by
  rw [leftAfter, read]

/-- Reading all lines takes one attempt for each and a last one that yields none. -/
theorem leftAfter_readAll (input : Input) :
    input.leftAfter (input.readAll.lines.length + 1) = input.readAll.rest := by
  induction input using readAll_induction with
  | error input fault rest read =>
    rw [readAll_of_error read, leftAfter_succ_of_read read]
    rfl
  | ended input rest read =>
    rw [readAll_of_nil read, leftAfter_succ_of_read read]
    rfl
  | line input line rest read nonempty ih =>
    rw [readAll_of_line read nonempty, leftAfter_succ_of_read read]
    exact ih

/-! ## 2. Inputs without faults -/

/-- No attempt to read fails, but for interruptions. -/
def Calm (input : Input) : Prop :=
  ∀ fault, .fault fault ∈ input → fault.isInterruption = true

theorem Calm.tail {chunk : Chunk} (h : Calm (chunk :: rest)) : Calm rest :=
  fun fault member => h fault (List.mem_cons_of_mem _ member)

theorem Calm.putBack (h : Calm rest) (bytes : List UInt8) : Calm (putBack bytes rest) := by
  unfold Input.putBack
  split
  · exact h
  · intro fault member
    cases member with
    | tail _ member => exact h fault member

/-- A line of a calm input is read without a fault, and what is left is calm. -/
theorem Calm.readLine (h : input.Calm) :
    ∃ line rest, input.readLine = (.ok line, rest) ∧ rest.Calm := by
  fun_induction Input.readLine input with
  | case1 => exact ⟨[], [], rfl, h⟩
  | case2 fault rest _ ih => exact ih h.tail
  | case3 fault rest loud => exact absurd (h fault List.mem_cons_self) loud
  | case4 rest => exact ⟨[], rest, rfl, h.tail⟩
  | case5 byte bytes rest lineFeed behind cut => exact ⟨_, _, rfl, h.tail.putBack behind⟩
  | case6 byte bytes rest _ line left read ih =>
    obtain ⟨line', rest', same, calm⟩ := ih h.tail
    rw [read] at same
    cases same
    exact ⟨_, _, rfl, calm⟩
  | case7 byte bytes rest _ fault left read ih =>
    obtain ⟨line', rest', same, _⟩ := ih h.tail
    rw [read] at same
    cases same

theorem Calm.ending (h : input.Calm) : input.readAll.ending = .ok () := by
  induction input using readAll_induction with
  | error input fault rest read =>
    obtain ⟨line, rest', same, _⟩ := h.readLine
    rw [read] at same
    cases same
  | ended input rest read => rw [readAll_of_nil read]
  | line input line rest read nonempty ih =>
    obtain ⟨line', rest', same, calm⟩ := h.readLine
    rw [read] at same
    cases same
    rw [readAll_of_line read nonempty]
    exact ih calm

/-! ## 3. What stands behind the end -/

/-- The mark of an end of the input. -/
def mark : Chunk :=
  .data []

theorem putBack_cases (bytes : List UInt8) (rest : Input) :
    (bytes = [] ∧ putBack bytes rest = rest) ∨
      (bytes ≠ [] ∧ putBack bytes rest = .data bytes :: rest) := by
  cases bytes with
  | nil => exact .inl ⟨rfl, rfl⟩
  | cons byte bytes => exact .inr ⟨List.cons_ne_nil byte bytes, rfl⟩

/-- Reading a line leaves what stands behind a later mark as it is. -/
theorem readLine_local {left : Input} (read : input.readLine = (.ok line, left ++ mark :: rest)) :
    ∃ front, input = front ++ mark :: rest ∧
      ∀ rest', readLine (front ++ mark :: rest') = (.ok line, left ++ mark :: rest') := by
  fun_induction readLine input generalizing line with
  | case1 => simp at read
  | case2 fault tail passed ih =>
    obtain ⟨front, rfl, same⟩ := ih read
    refine ⟨.fault fault :: front, rfl, ?_⟩
    intro rest'
    rw [← same rest']
    simp [readLine, passed]
  | case3 => simp at read
  | case4 tail =>
    cases read
    exact ⟨mark :: left, rfl, fun _ => rfl⟩
  | case5 byte bytes tail lineFeed behind cut =>
    simp only [Prod.mk.injEq, Except.ok.injEq] at read
    obtain ⟨rfl, kept⟩ := read
    -- What the line leaves of its own chunk has bytes, so it is not the mark.
    rcases putBack_cases behind tail with ⟨rfl, same⟩ | ⟨nonempty, same⟩
    · rw [same] at kept
      subst kept
      refine ⟨.data (byte :: bytes) :: left, rfl, ?_⟩
      intro rest'
      rw [List.cons_append, readLine, cut]
      rfl
    · rw [same] at kept
      cases left with
      | nil => exact absurd (Chunk.data.inj (List.cons.inj kept).1) nonempty
      | cons chunk left =>
        obtain ⟨rfl, rfl⟩ := List.cons.inj kept
        refine ⟨.data (byte :: bytes) :: left, rfl, ?_⟩
        intro rest'
        rw [List.cons_append, readLine, cut]
        simp [putBack, nonempty]
  | case6 byte bytes tail uncut more left' readTail ih =>
    simp only [Prod.mk.injEq, Except.ok.injEq] at read
    obtain ⟨rfl, rfl⟩ := read
    obtain ⟨front, rfl, same⟩ := ih readTail
    refine ⟨.data (byte :: bytes) :: front, rfl, ?_⟩
    intro rest'
    rw [List.cons_append, readLine, uncut]
    simp only [same rest']
  | case7 => simp at read

/-- A line without bytes was read at a mark, or the input was used up. -/
theorem readLine_nil_local (read : input.readLine = (.ok [], rest)) :
    rest = [] ∨ ∃ front, input = front ++ mark :: rest ∧
      ∀ rest', readLine (front ++ mark :: rest') = (.ok [], rest') := by
  fun_induction readLine input with
  | case1 =>
    cases read
    exact .inl rfl
  | case2 fault tail passed ih =>
    rcases ih read with none | ⟨front, rfl, same⟩
    · exact .inl none
    · refine .inr ⟨.fault fault :: front, rfl, ?_⟩
      intro rest'
      rw [← same rest']
      simp [readLine, passed]
  | case3 => simp at read
  | case4 tail =>
    cases read
    exact .inr ⟨[], rfl, fun _ => rfl⟩
  | case5 => simp at read
  | case6 => simp at read
  | case7 => simp at read

/-- A reading that got to an end used the input up, or it ended at a mark and is the same whatever
stands behind that mark. -/
theorem readAll_local (ended : input.readAll.ending = .ok ()) :
    input.readAll.rest = [] ∨ ∃ front, input = front ++ mark :: input.readAll.rest ∧
      ∀ rest, readAll (front ++ mark :: rest) = { input.readAll with rest := rest } := by
  induction input using readAll_induction with
  | error input fault rest read =>
    rw [readAll_of_error read] at ended
    cases ended
  | ended input rest read =>
    rw [readAll_of_nil read]
    rcases readLine_nil_local read with none | ⟨front, parts, same⟩
    · exact .inl none
    · exact .inr ⟨front, parts, fun rest' => readAll_of_nil (same rest')⟩
  | line input line rest read nonempty ih =>
    rw [readAll_of_line read nonempty] at ended ⊢
    rcases ih ended with none | ⟨left, parts, same⟩
    · exact .inl none
    · rw [parts] at read
      obtain ⟨front, parts', same'⟩ := readLine_local read
      refine .inr ⟨front, parts', ?_⟩
      intro rest'
      rw [readAll_of_line (same' rest') nonempty, same rest']
      rfl

end TokenDump.Input

/-! ## 4. The lines of some bytes -/

namespace TokenDump.Line

/-- The lines of some bytes. -/
def ofBytes : List UInt8 → List Line
  | [] => []
  | byte :: rest =>
    if byte = lineFeed then [byte] :: ofBytes rest
    else
      match ofBytes rest with
      | [] => [[byte]]
      | line :: lines => (byte :: line) :: lines

theorem ofBytes_of_uncut {bytes : List UInt8} (uncut : lineFeed ∉ bytes) (nonempty : bytes ≠ []) :
    ofBytes bytes = [bytes] := by
  induction bytes with
  | nil => exact absurd rfl nonempty
  | cons byte rest ih =>
    rw [List.mem_cons, not_or] at uncut
    obtain ⟨other, uncut⟩ := uncut
    rw [ofBytes, if_neg (Ne.symm other)]
    cases rest with
    | nil => rfl
    | cons next rest => rw [ih uncut (List.cons_ne_nil next rest)]

theorem ofBytes_of_cut {front : List UInt8} (uncut : lineFeed ∉ front) (rest : List UInt8) :
    ofBytes (front ++ lineFeed :: rest) = (front ++ [lineFeed]) :: ofBytes rest := by
  induction front with
  | nil => simp [ofBytes]
  | cons byte front ih =>
    rw [List.mem_cons, not_or] at uncut
    obtain ⟨other, uncut⟩ := uncut
    rw [List.cons_append, ofBytes, if_neg (Ne.symm other), ih uncut]
    rfl

/-- Some bytes are nothing, or a last line that lacks its line feed, or a line that has it and some
bytes behind. -/
theorem bytes_induction {motive : List UInt8 → Prop} (nothing : motive [])
    (last : ∀ bytes, lineFeed ∉ bytes → bytes ≠ [] → motive bytes)
    (line : ∀ front rest, lineFeed ∉ front → motive rest → motive (front ++ lineFeed :: rest))
    (bytes : List UInt8) : motive bytes := by
  by_cases fed : lineFeed ∈ bytes
  · obtain ⟨front, rest, parts, uncut⟩ := List.eq_append_cons_of_mem fed
    rw [parts]
    exact line front rest uncut (bytes_induction nothing last line rest)
  · cases bytes with
    | nil => exact nothing
    | cons byte rest => exact last _ fed (List.cons_ne_nil byte rest)
termination_by bytes.length
decreasing_by
  rw [parts, List.length_append, List.length_cons]
  omega

end TokenDump.Line

/-! ## 5. Inputs that hand out some bytes -/

namespace TokenDump.Input

/-- The input hands out these bytes, in whatever chunks, and then stays at its end. -/
inductive Delivers : Input → List UInt8 → Prop where
  | nothing : Delivers [] []
  | ended {rest : Input} : Delivers rest [] → Delivers (mark :: rest) []
  | interrupted {rest : Input} {bytes : List UInt8} {fault : Fault} :
      fault.isInterruption = true → Delivers rest bytes → Delivers (.fault fault :: rest) bytes
  | data {rest : Input} {bytes piece : List UInt8} :
      piece ≠ [] → Delivers rest bytes → Delivers (.data piece :: rest) (piece ++ bytes)

variable {rest left : Input} {front behind piece bytes : List UInt8} {line : Line}

theorem bne_lineFeed_of_uncut (uncut : Line.lineFeed ∉ bytes) :
    ∀ byte ∈ bytes, (byte != Line.lineFeed) = true := by
  rintro byte member
  rw [bne_iff_ne]
  rintro rfl
  exact uncut member

theorem readLine_data_cut (uncut : Line.lineFeed ∉ front) :
    readLine (.data (front ++ Line.lineFeed :: behind) :: rest) =
      (.ok (front ++ [Line.lineFeed]), putBack behind rest) := by
  have passed := bne_lineFeed_of_uncut uncut
  have cut : (front ++ Line.lineFeed :: behind).dropWhile (· != Line.lineFeed) =
      Line.lineFeed :: behind := by
    rw [List.dropWhile_append_of_pos passed]
    rfl
  have kept : (front ++ Line.lineFeed :: behind).takeWhile (· != Line.lineFeed) = front := by
    rw [List.takeWhile_append_of_pos passed]
    simp
  cases whole : front ++ Line.lineFeed :: behind with
  | nil => simp at whole
  | cons byte bytes =>
    rw [whole] at cut kept
    rw [readLine, cut, kept]

/-- A chunk without a line feed goes before the line that is read of the others. -/
theorem readLine_data_of_uncut (uncut : Line.lineFeed ∉ piece) (nonempty : piece ≠ [])
    (rest : Input) :
    readLine (.data piece :: rest) = (rest.readLine.1.map (piece ++ ·), rest.readLine.2) := by
  have passed : piece.dropWhile (· != Line.lineFeed) = [] := by
    rw [← List.append_nil piece, List.dropWhile_append_of_pos (bne_lineFeed_of_uncut uncut)]
    rfl
  cases piece with
  | nil => exact absurd rfl nonempty
  | cons byte bytes =>
    rw [readLine, passed]
    rcases rest.readLine with ⟨fault | line, left⟩ <;> rfl

theorem readLine_data_uncut (uncut : Line.lineFeed ∉ piece) (nonempty : piece ≠ [])
    (read : readLine rest = (.ok line, left)) :
    readLine (.data piece :: rest) = (.ok (piece ++ line), left) := by
  rw [readLine_data_of_uncut uncut nonempty, read]
  rfl

/-- The last line of the bytes is read whole. -/
theorem Delivers.readLine_last {input : Input} (h : Delivers input bytes)
    (uncut : Line.lineFeed ∉ bytes) :
    ∃ rest, input.readLine = (.ok bytes, rest) ∧ Delivers rest [] := by
  induction h with
  | nothing => exact ⟨[], rfl, .nothing⟩
  | ended h _ => exact ⟨_, rfl, h⟩
  | interrupted passed _ ih =>
    obtain ⟨rest, read, after⟩ := ih uncut
    refine ⟨rest, ?_, after⟩
    rw [readLine, if_pos passed, read]
  | data nonempty _ ih =>
    rw [List.mem_append, not_or] at uncut
    obtain ⟨rest, read, after⟩ := ih uncut.2
    exact ⟨rest, readLine_data_uncut uncut.1 nonempty read, after⟩

/-- A line of the bytes is read up to its line feed. What is left hands out the bytes behind. -/
theorem Delivers.readLine_line {input : Input} (h : Delivers input bytes)
    (parts : bytes = front ++ Line.lineFeed :: behind) (uncut : Line.lineFeed ∉ front) :
    ∃ rest, input.readLine = (.ok (front ++ [Line.lineFeed]), rest) ∧ Delivers rest behind := by
  induction h generalizing front with
  | nothing => simp at parts
  | ended => simp at parts
  | interrupted passed _ ih =>
    obtain ⟨rest, read, after⟩ := ih parts uncut
    refine ⟨rest, ?_, after⟩
    rw [readLine, if_pos passed, read]
  | @data rest bytes piece nonempty h ih =>
    rcases List.append_eq_append_iff.mp parts with ⟨more, rfl, later⟩ | ⟨more, rfl, here⟩
    · rw [List.mem_append, not_or] at uncut
      obtain ⟨left, read, after⟩ := ih later uncut.2
      refine ⟨left, ?_, after⟩
      rw [readLine_data_uncut uncut.1 nonempty read, List.append_assoc]
    · cases more with
      | nil =>
        -- The chunk ends right before the line feed, which begins what is handed out later.
        rw [List.append_nil] at nonempty ⊢
        obtain ⟨left, read, after⟩ := @ih [] here.symm List.not_mem_nil
        exact ⟨left, readLine_data_uncut uncut nonempty read, after⟩
      | cons byte more =>
        obtain ⟨rfl, rfl⟩ := List.cons.inj here
        refine ⟨_, readLine_data_cut uncut, ?_⟩
        rcases putBack_cases more rest with ⟨rfl, same⟩ | ⟨nonempty, same⟩
        · rwa [same]
        · rw [same]
          exact .data nonempty h

/-- However some bytes are cut into chunks, the lines read are their lines. -/
theorem Delivers.readAll {input : Input} (h : Delivers input bytes) :
    ∃ rest, input.readAll = ⟨Line.ofBytes bytes, .ok (), rest⟩ := by
  induction bytes using Line.bytes_induction generalizing input with
  | nothing =>
    obtain ⟨rest, read, _⟩ := h.readLine_last List.not_mem_nil
    exact ⟨rest, readAll_of_nil read⟩
  | last bytes uncut nonempty =>
    obtain ⟨rest, read, after⟩ := h.readLine_last uncut
    obtain ⟨rest', read', _⟩ := after.readLine_last List.not_mem_nil
    refine ⟨rest', ?_⟩
    rw [readAll_of_line read nonempty, readAll_of_nil read', Line.ofBytes_of_uncut uncut nonempty]
    rfl
  | line front behind uncut ih =>
    obtain ⟨rest, read, after⟩ := h.readLine_line rfl uncut
    obtain ⟨rest', same⟩ := ih after
    refine ⟨rest', ?_⟩
    rw [readAll_of_line read (by simp), same, Line.ofBytes_of_cut uncut]
    rfl

end TokenDump.Input
