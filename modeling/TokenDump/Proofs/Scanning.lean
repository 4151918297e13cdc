import TokenDump.Console
import TokenDump.Proofs.LongestMatch
import TokenDump.Proofs.Writing

/-!
# Scanning

What a scan answers and what it leaves on the console, said by the segments of the source. The
tokens are the symbols, the diagnostics are the stray characters, and both come in the order in
which they stand in the source, whatever the sink does with the diagnostics.

Results:
1. `sink_scan`, `flagged_scan`, `exists_log_scan`: the sink, the flag and the log after a scan.
2. `scan_longest_match`: the tokens and diagnostics of a source are the pieces of its one cut.
-/

namespace TokenDump

/-! ## What is owed to a segment -/

namespace Segment

/-- What is reported of a segment, if anything is. -/
def diagnostic? (segment : Segment) : Option Diagnostic :=
  segment.stray?.map fun _ => .strayCharacter

/-- What is noted of some segments, warnings apart. The first one starts so many bytes into the
source. -/
def account (start : Nat) : List Segment → List Event
  | [] => []
  | segment :: rest =>
    .segment start line :: (segment.diagnostic?.toList.map .reported ++
      account (start + segment.width) rest)

theorem filterMap_diagnostic?_cut (source : List Char) :
    (cut source).filterMap diagnostic? =
      List.replicate (strays source).length .strayCharacter := by
  rw [← List.map_const', ← filterMap_stray?_cut, List.map_filterMap]
  rfl

end Segment

/-- The diagnostic that an event tells of, if it tells of one. -/
def Event.diagnostic? : Event → Option Diagnostic
  | reported diagnostic => some diagnostic
  | _ => none

/-- The rows that show the diagnostics of so many stray characters. -/
def Diagnostic.rows (count : Nat) : List UInt8 :=
  (List.replicate count strayCharacter).flatMap row

theorem Diagnostic.rows_add (m n : Nat) : rows (m + n) = rows m ++ rows n := by
  simp [rows, ← List.replicate_append_replicate]

theorem Event.filterMap_diagnostic?_filter (entries : List Event) :
    (entries.filter fun entry => entry.level ≠ .warn).filterMap diagnostic? =
      entries.filterMap diagnostic? := by
  rw [List.filterMap_filter]
  congr 1
  funext entry
  cases entry <;> rfl

theorem Segment.filterMap_diagnostic?_account (start : Nat) (segments : List Segment) :
    (account start segments).filterMap Event.diagnostic? = segments.filterMap diagnostic? := by
  induction segments generalizing start with
  | nil => rfl
  | cons segment rest ih =>
    cases segment <;>
      simp [account, diagnostic?, stray?, Event.diagnostic?, List.filterMap_cons, ih]

/-! ## Where a mark stands -/

/-- A mark that is not among some others stands behind them. -/
theorem exists_of_append_eq {α : Type} {front rest before after : List α} {mark : α}
    (parts : front ++ rest = before ++ mark :: after) (outside : mark ∉ front) :
    ∃ more, before = front ++ more ∧ rest = more ++ mark :: after := by
  rcases List.append_eq_append_iff.mp parts with ⟨more, same, behind⟩ | ⟨more, among, behind⟩
  · exact ⟨more, same, behind⟩
  · cases more with
    | nil => exact ⟨[], by rw [among, List.append_nil, List.append_nil], behind.symm⟩
    | cons first more =>
      obtain ⟨rfl, -⟩ := List.cons.inj behind
      exact absurd (among ▸ List.mem_append_right _ List.mem_cons_self) outside

/-- The first place of a mark tells what is before it and what is behind. -/
theorem eq_of_append_cons_eq {α : Type} {front rest before after : List α} {mark : α}
    (parts : front ++ mark :: rest = before ++ mark :: after) (outside : mark ∉ front)
    (outside' : mark ∉ before) : front = before ∧ rest = after := by
  obtain ⟨more, rfl, behind⟩ := exists_of_append_eq parts outside
  cases more with
  | nil => exact ⟨(List.append_nil front).symm, (List.cons.inj behind).2⟩
  | cons first more =>
    obtain ⟨rfl, -⟩ := List.cons.inj behind
    exact absurd (List.mem_append_right _ List.mem_cons_self) outside'

/-! ## 1. The console after a scan -/

namespace Console

@[simp] theorem sink_note (console : Console) (event : Event) :
    (console.note event).sink = console.sink := rfl

@[simp] theorem flagged_note (console : Console) (event : Event) :
    (console.note event).flagged = console.flagged := rfl

@[simp] theorem toList_log_note (console : Console) (event : Event) :
    (console.note event).log.toList = console.log.toList ++ [event] := by
  simp [note]

@[simp] theorem sink_report (console : Console) (diagnostic : Diagnostic) :
    (console.report diagnostic).sink = (console.sink.write diagnostic.row).2 := by
  obtain ⟨sink, flagged, log⟩ := console
  simp only [report]
  split <;> next written => simp [written]

@[simp] theorem flagged_report (console : Console) (diagnostic : Diagnostic) :
    (console.report diagnostic).flagged = true := by
  obtain ⟨sink, flagged, log⟩ := console
  simp only [report]
  split <;> rfl

/-- A report is noted before it is written, and a warning follows it if it does not fit. -/
theorem toList_log_report (console : Console) (diagnostic : Diagnostic) :
    (console.report diagnostic).log.toList = console.log.toList ++ .reported diagnostic ::
      if console.sink.behaviour.fits diagnostic.row.length then []
      else [.unshown console.sink.behaviour.writeFault] := by
  obtain ⟨⟨stored, behaviour⟩, flagged, log⟩ := console
  by_cases fits : behaviour.fits diagnostic.row.length = true <;>
    simp [report, Sink.write, fits]

theorem sink_visit (console : Console) (start : Nat) (segment : Segment) :
    (console.visit start segment).sink =
      (console.sink.write (segment.diagnostic?.toList.flatMap Diagnostic.row)).2 := by
  cases segment <;> simp [visit, Segment.diagnostic?, Segment.stray?]

theorem flagged_visit (console : Console) (start : Nat) (segment : Segment) :
    (console.visit start segment).flagged = (console.flagged || segment.diagnostic?.isSome) := by
  cases segment <;> simp [visit, Segment.diagnostic?, Segment.stray?]

theorem exists_log_visit (console : Console) (start : Nat) (segment : Segment) :
    ∃ entries, (console.visit start segment).log.toList = console.log.toList ++ entries ∧
      (entries.filter fun entry => entry.level ≠ .warn) = Segment.account start [segment] := by
  cases segment with
  | symbol s => exact ⟨[.segment start Segment.line], by simp [visit], rfl⟩
  | stray c =>
    have log := toList_log_report (console.note (.segment start Segment.line)) .strayCharacter
    rw [toList_log_note, List.append_assoc] at log
    refine ⟨_, log, ?_⟩
    split <;> rfl

/-- The diagnostics of a scan are on the sink as if they had been written in one go. -/
theorem sink_survey (console : Console) (start : Nat) (segments : List Segment) :
    (console.survey start segments).sink =
      (console.sink.write ((segments.filterMap Segment.diagnostic?).flatMap Diagnostic.row)).2 := by
  induction segments generalizing console start with
  | nil => simp [survey]
  | cons segment rest ih =>
    rw [survey, ih, sink_visit, Sink.write_append, ← List.flatMap_append]
    cases h : segment.diagnostic? <;> simp [h]

theorem flagged_survey (console : Console) (start : Nat) (segments : List Segment) :
    (console.survey start segments).flagged =
      (console.flagged || !(segments.filterMap Segment.diagnostic?).isEmpty) := by
  induction segments generalizing console start with
  | nil => simp [survey]
  | cons segment rest ih =>
    rw [survey, ih, flagged_visit]
    cases h : segment.diagnostic? <;> simp [h]

theorem exists_log_survey (console : Console) (start : Nat) (segments : List Segment) :
    ∃ entries, (console.survey start segments).log.toList = console.log.toList ++ entries ∧
      (entries.filter fun entry => entry.level ≠ .warn) = Segment.account start segments := by
  induction segments generalizing console start with
  | nil => exact ⟨[], by simp [survey], rfl⟩
  | cons segment rest ih =>
    obtain ⟨first, visited, firstNotes⟩ := exists_log_visit console start segment
    obtain ⟨later, surveyed, laterNotes⟩ :=
      ih (console.visit start segment) (start + segment.width)
    refine ⟨first ++ later, ?_, ?_⟩
    · rw [survey, surveyed, visited, List.append_assoc]
    · rw [List.filter_append, firstNotes, laterNotes]
      simp [Segment.account]

theorem scan_fst (console : Console) (source : List Char) :
    (console.scan source).1 = Token.ofText source := rfl

/-- The tokens of a scan, written out. -/
theorem scan_fst_eq (console : Console) (source : List Char) :
    (console.scan source).1 =
      ((Segment.cut source).filterMap Segment.symbol?).map
        (fun symbol => (⟨.symbol symbol, .ofList symbol.chars, 1⟩ : Token)) ++
        [⟨.endOfText, "", 1⟩] := by
  rw [scan_fst, Token.ofText, Segment.tokens, Segment.filterMap_token?_eq]
  rfl

theorem sink_scan (console : Console) (source : List Char) :
    (console.scan source).2.sink =
      (console.sink.write (Diagnostic.rows (Segment.strays source).length)).2 := by
  show (console.survey 0 (Segment.cut source)).sink = _
  rw [sink_survey, Segment.filterMap_diagnostic?_cut]
  rfl

theorem flagged_scan (console : Console) (source : List Char) :
    (console.scan source).2.flagged =
      (console.flagged || !(Segment.strays source).isEmpty) := by
  show (console.survey 0 (Segment.cut source)).flagged = _
  rw [flagged_survey, Segment.filterMap_diagnostic?_cut]
  cases Segment.strays source <;> rfl

theorem exists_log_scan (console : Console) (source : List Char) :
    ∃ entries, (console.scan source).2.log.toList = console.log.toList ++ entries ∧
      (entries.filter fun entry => entry.level ≠ .warn) =
        Segment.account 0 (Segment.cut source) :=
  exists_log_survey console 0 (Segment.cut source)

/-- The diagnostics that a scan of a source notes. -/
def diagnosed (console : Console) (source : List Char) : List Diagnostic :=
  ((console.scan source).2.log.toList.drop console.log.size).filterMap Event.diagnostic?

theorem diagnosed_eq (console : Console) (source : List Char) :
    console.diagnosed source = List.replicate (Segment.strays source).length .strayCharacter := by
  obtain ⟨entries, log, notes⟩ := exists_log_scan console source
  rw [diagnosed, log, ← Array.length_toList, List.drop_left, ← Event.filterMap_diagnostic?_filter,
    notes, Segment.filterMap_diagnostic?_account, Segment.filterMap_diagnostic?_cut]

end Console

/-! ## 2. Longest match -/

namespace Console

/-- A source has exactly one cut into longest symbols and characters outside the alphabet, and a
scan answers and reports just that, whatever has happened on the console before and whatever its
sink does:

* each symbol of the cut has a token, in order, which has its kind and is spelled as the symbol is;
  stray characters have none, a single closing mark stands behind the others, and all are on line 1;
* no symbol stands before a `=` that would extend it;
* each segment is noted in order, and the diagnostic of a stray character follows its own note, so
  there are as many diagnostics as characters outside the alphabet;
* the sink is left as if the rows of all the diagnostics had been written to it in one go. -/
theorem scan_longest_match (console : Console) (source : List Char) :
    ∃ (segments : List Segment) (entries : List Event),
      (∀ other : List Segment, Segment.IsCut other source ↔ other = segments) ∧
      (∀ before symbol after, segments = before ++ .symbol symbol :: after →
        symbol.isExtensible → (after.flatMap Segment.chars).head? ≠ some '=') ∧
      (console.scan source).1 =
        (segments.filterMap Segment.symbol?).map
          (fun symbol => (⟨.symbol symbol, .ofList symbol.chars, 1⟩ : Token)) ++
          [⟨.endOfText, "", 1⟩] ∧
      (∀ token ∈ (console.scan source).1.dropLast, token.kind ≠ .endOfText) ∧
      (∀ token ∈ (console.scan source).1, token.line = 1) ∧
      (console.scan source).2.log.toList = console.log.toList ++ entries ∧
      (entries.filter fun entry => entry.level ≠ .warn) = Segment.account 0 segments ∧
      entries.filterMap Event.diagnostic? =
        List.replicate (source.countP (· ∉ Symbol.alphabet)) .strayCharacter ∧
      Diagnostic.strayCharacter.text = "[Line 1] Error: Unexpected character." ∧
      (console.scan source).2.sink =
        (console.sink.write ((entries.filterMap Event.diagnostic?).flatMap Diagnostic.row)).2 := by
  obtain ⟨entries, log, notes⟩ := exists_log_scan console source
  have diagnostics : entries.filterMap Event.diagnostic? =
      List.replicate (Segment.strays source).length .strayCharacter := by
    rw [← Event.filterMap_diagnostic?_filter, notes, Segment.filterMap_diagnostic?_account,
      Segment.filterMap_diagnostic?_cut]
  have tokens := scan_fst_eq console source
  refine ⟨Segment.cut source, entries, fun _ => Segment.isCut_iff, ?_, tokens, ?_, ?_, log, notes,
    ?_, by decide +kernel, ?_⟩
  · intro before symbol after split extensible next
    have fit := (Segment.isCut_cut source).fits before (.symbol symbol) after split
    obtain ⟨rest, follows⟩ := List.head?_eq_some_iff.mp next
    rw [follows] at fit
    exact Symbol.not_longest_of_isExtensible extensible rest fit
  · rw [tokens, List.dropLast_concat]
    refine List.forall_mem_map.mpr ?_
    intro symbol _
    exact Token.Kind.noConfusion
  · intro token member
    rw [tokens, List.mem_append, List.mem_map, List.mem_singleton] at member
    obtain ⟨symbol, -, rfl⟩ | rfl := member
    · rfl
    · rfl
  · rw [diagnostics, Segment.strays, ← List.countP_eq_length_filter]
  · rw [diagnostics, sink_scan]
    rfl

end Console

end TokenDump
