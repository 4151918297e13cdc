import TokenDump.Proofs.Rereading

/-!
# Recalling

What was reported can be read back from the diagnostic stream. Nothing is escaped in its rows, but
the parts of a diagnostic stand between marks, and the first place of a mark is the one that was put
there: a numeral has no bracket, and a location without a colon ends before the first one. A message
comes last and may look like anything, even like the beginning of a row, unless a line ends within
it.

Results:
1. `ofRow_row`, `Legible.isRow`: one diagnostic and its row.
2. `ofRows_flatMap_row`: rows one after another.
3. `tells_eq_iff`: what consoles store of reports.
-/

namespace TokenDump

namespace Diagnostic

/-! ## 1. The row of a diagnostic -/

theorem not_mem_toDigits {c : Char} (other : c.isDigit = false) (number : Nat) :
    c ∉ Nat.toDigits 10 number := by
  intro member
  rw [Nat.isDigit_of_mem_toDigits (by decide) (by decide) member] at other
  cases other

/-- What is before the first place of a mark, and what is behind it. -/
def parted (mark : Char) (text : List Char) : List Char × List Char :=
  (text.takeWhile (· != mark), (text.dropWhile (· != mark)).tail)

theorem parted_append {mark : Char} {front : List Char} (outside : mark ∉ front)
    (rest : List Char) : parted mark (front ++ mark :: rest) = (front, rest) := by
  have passed : ∀ c ∈ front, (c != mark) = true := by
    intro c member
    exact bne_iff_ne.mpr fun same => outside (same ▸ member)
  rw [parted, List.takeWhile_append_of_pos passed, List.dropWhile_append_of_pos passed]
  simp

/-- What every row begins with, up to the number of the line. -/
def opening : String :=
  greeting ++ " [Line "

/-- What stands between the number of the line and the location. -/
def label : String :=
  " Error"

/-- Reads a diagnostic off the text of its row, which ends with a line feed. -/
def ofText (text : List Char) : Diagnostic :=
  let (number, behind) := parted ']' (text.drop opening.length)
  let (location, message) := parted ':' (behind.drop label.length)
  ⟨Nat.ofDigitChars 10 number 0, String.ofList location,
    String.ofList (message.drop 1).dropLast⟩

/-- Reads a diagnostic off its row. -/
def ofRow (row : Line) : Diagnostic :=
  ofText (Utf8.lenient row)

/-- Reads all diagnostics off their rows. -/
def ofRows (bytes : List UInt8) : List Diagnostic :=
  (Line.ofBytes bytes).map ofRow

theorem lenient_row (diagnostic : Diagnostic) :
    Utf8.lenient diagnostic.row = opening.toList ++ (Nat.toDigits 10 diagnostic.line ++ ']' ::
      (label.toList ++ (diagnostic.location.toList ++ ':' ::
        (' ' :: (diagnostic.message.toList ++ ['\n']))))) := by
  rw [row, Utf8.lenient_encode]
  simp [text, opening, label, String.toList_append]

/-- A row tells its diagnostic, if there is no colon in the location. -/
theorem ofRow_row {diagnostic : Diagnostic} (unparted : ':' ∉ diagnostic.location.toList) :
    ofRow diagnostic.row = diagnostic := by
  have bracket : ']' ∉ Nat.toDigits 10 diagnostic.line := not_mem_toDigits (by decide) _
  rw [ofRow, lenient_row, ofText, ← opening.length_toList, List.drop_left, parted_append bracket]
  dsimp only
  rw [← label.length_toList, List.drop_left, parted_append unparted]
  dsimp only
  rw [Nat.ofDigitChars_ten_toDigits, String.ofList_toList, List.drop_one, List.tail_cons,
    List.dropLast_concat, String.ofList_toList]

/-- A colon in a location is taken for the one behind it. -/
example : text ⟨1, ": at end", "Oops."⟩ = text ⟨1, "", "at end: Oops."⟩ := by decide +kernel

/-- No line ends within the row of the diagnostic, and its location ends at the first colon. -/
structure Legible (diagnostic : Diagnostic) : Prop where
  unparted : ':' ∉ diagnostic.location.toList
  uncutLocation : '\n' ∉ diagnostic.location.toList
  uncutMessage : '\n' ∉ diagnostic.message.toList

instance (diagnostic : Diagnostic) : Decidable diagnostic.Legible :=
  decidable_of_iff (':' ∉ diagnostic.location.toList ∧ '\n' ∉ diagnostic.location.toList ∧
      '\n' ∉ diagnostic.message.toList)
    ⟨fun ⟨unparted, located, told⟩ => ⟨unparted, located, told⟩,
      fun h => ⟨h.unparted, h.uncutLocation, h.uncutMessage⟩⟩

variable {diagnostic : Diagnostic} {diagnostics : List Diagnostic}

theorem Legible.isRow (h : diagnostic.Legible) : Line.IsRow diagnostic.row := by
  refine ⟨Utf8.encode (greeting ++ " " ++ diagnostic.text).toList, ?_, Utf8.encode_append _ _⟩
  refine Utf8.lineFeed_not_mem_encode ?_
  have greeted : '\n' ∉ greeting.toList := by decide +kernel
  have numeral : '\n' ∉ Nat.toDigits 10 diagnostic.line := not_mem_toDigits (by decide) _
  simp [text, String.toList_append, greeted, numeral, h.uncutLocation, h.uncutMessage]

/-! ## 2. Rows one after another -/

theorem ofBytes_flatMap_row (legible : ∀ diagnostic ∈ diagnostics, diagnostic.Legible) :
    Line.ofBytes (diagnostics.flatMap row) = diagnostics.map row :=
  Line.ofBytes_flatMap fun diagnostic member => (legible diagnostic member).isRow

theorem ofRows_flatMap_row (legible : ∀ diagnostic ∈ diagnostics, diagnostic.Legible) :
    ofRows (diagnostics.flatMap row) = diagnostics := by
  rw [ofRows, ofBytes_flatMap_row legible, List.map_map]
  refine (List.map_congr_left ?_).trans (List.map_id diagnostics)
  intro diagnostic member
  exact ofRow_row (legible diagnostic member).unparted

end Diagnostic

/-! ## 3. What consoles store of reports -/

namespace Console

/-- Shows some diagnostics, in order. -/
def reportAll (console : Console) (diagnostics : List Diagnostic) : Console :=
  diagnostics.foldl report console

/-- What is stored as some diagnostics are shown. -/
def tells (console : Console) (diagnostics : List Diagnostic) : List UInt8 :=
  (console.reportAll diagnostics).sink.stored.toList.drop console.sink.stored.size

variable {console other : Console} {diagnostics diagnostics' : List Diagnostic}

theorem sink_reportAll (console : Console) (diagnostics : List Diagnostic) :
    (console.reportAll diagnostics).sink =
      (console.sink.write (diagnostics.flatMap Diagnostic.row)).2 := by
  induction diagnostics generalizing console with
  | nil => exact (Sink.write_nil console.sink).symm
  | cons diagnostic diagnostics ih =>
    show ((console.report diagnostic).reportAll diagnostics).sink = _
    rw [ih, sink_report, Sink.write_append]
    rfl

theorem tells_eq (endless : console.sink.behaviour.room = none) (diagnostics : List Diagnostic) :
    console.tells diagnostics = diagnostics.flatMap Diagnostic.row := by
  rw [tells, sink_reportAll, Sink.stored_write, ← Array.length_toList, List.drop_left,
    Sink.Behaviour.accepted, endless]

/-- What consoles store of reports, on sinks with room for any number of bytes, if no location has a
colon and no line ends within a location or a message:

* it is the same exactly if the same was reported;
* reading it back answers what was reported;
* its lines are the reports, one each: the greeting, the line in brackets, the location right
  behind the word and the message behind the first colon;
* it has no other line feeds than those at the ends of these lines. -/
theorem tells_eq_iff (endless : console.sink.behaviour.room = none)
    (endless' : other.sink.behaviour.room = none)
    (legible : ∀ diagnostic ∈ diagnostics, diagnostic.Legible)
    (legible' : ∀ diagnostic ∈ diagnostics', diagnostic.Legible) :
    (console.tells diagnostics = other.tells diagnostics' ↔ diagnostics = diagnostics') ∧
    Diagnostic.ofRows (console.tells diagnostics) = diagnostics ∧
    (Line.ofBytes (console.tells diagnostics) = diagnostics.map fun diagnostic =>
      Utf8.encode (Diagnostic.greeting ++ " [Line " ++ Nat.repr diagnostic.line ++ "] Error" ++
        diagnostic.location ++ ": " ++ diagnostic.message ++ "\n").toList) ∧
    (console.tells diagnostics).count Line.lineFeed = diagnostics.length := by
  have recalled : Diagnostic.ofRows (console.tells diagnostics) = diagnostics := by
    rw [tells_eq endless, Diagnostic.ofRows_flatMap_row legible]
  have recalled' : Diagnostic.ofRows (other.tells diagnostics') = diagnostics' := by
    rw [tells_eq endless', Diagnostic.ofRows_flatMap_row legible']
  refine ⟨⟨?_, ?_⟩, recalled, ?_, ?_⟩
  · intro same
    rw [← recalled, same, recalled']
  · rintro rfl
    rw [tells_eq endless, tells_eq endless']
  · rw [tells_eq endless, Diagnostic.ofBytes_flatMap_row legible]
    refine List.map_congr_left ?_
    intro diagnostic _
    rw [Diagnostic.row]
    simp [Diagnostic.text, String.toList_append]
  · rw [tells_eq endless]
    exact Line.count_lineFeed_flatMap fun diagnostic member => (legible diagnostic member).isRow

/-- A message that looks like the beginning of a row, on the last line that a machine word can
number; and a location that looks like a message, but for the colon. -/
theorem tells_eq_iff_nested :
    let console : Console := {}
    let other : Console := { sink := { stored := #[62, 32] }, flagged := true }
    let diagnostics : List Diagnostic :=
      [⟨18446744073709551615, " at end", "[Line 1] Error: Oops."⟩, ⟨0, "", ""⟩]
    let diagnostics' : List Diagnostic :=
      [⟨18446744073709551615, " at end", "[Line 1] Error"⟩, ⟨0, " Oops.", ""⟩]
    (console.sink.behaviour.room = none ∧ other.sink.behaviour.room = none ∧
      (∀ diagnostic ∈ diagnostics, diagnostic.Legible) ∧
      ∀ diagnostic ∈ diagnostics', diagnostic.Legible) ∧
    console.tells diagnostics ≠ other.tells diagnostics' ∧
    Diagnostic.ofRows (console.tells diagnostics) = diagnostics ∧
    (console.tells diagnostics).count Line.lineFeed = 2 := by
  intro console other diagnostics diagnostics'
  have legible : ∀ diagnostic ∈ diagnostics, diagnostic.Legible := by decide +kernel
  have legible' : ∀ diagnostic ∈ diagnostics', diagnostic.Legible := by decide +kernel
  have endless : console.sink.behaviour.room = none := rfl
  have endless' : other.sink.behaviour.room = none := rfl
  obtain ⟨apart, recalled, -, count⟩ := tells_eq_iff endless endless' legible legible'
  refine ⟨⟨endless, endless', legible, legible'⟩, ?_, recalled, count⟩
  rw [ne_eq, apart]
  decide +kernel

end Console

end TokenDump
