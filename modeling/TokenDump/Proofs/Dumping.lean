import TokenDump.Session
import TokenDump.Proofs.Decoding
import TokenDump.Proofs.Scanning

/-!
# Dumping

What a dump answers and what it leaves of the session, for sinks of any behaviour: the result, the
output, the diagnostic sink, the flag and the files, each by an equation. All that matters of the
console for the next dump is its sink and its flag (`Console.Alike`).

Results:
1. `dump_fst`, `out_dump`, `sink_dump`, `flagged_dump`, `files_dump`: a dump, part by part.
2. `dumpFile_bytewise`: the tokens of a script and whether it has errors can be read off its bytes,
   whatever of them is malformed, and a script in UTF-8 is dumped as its text is.
-/

namespace TokenDump

/-- What a dump of a source shows. -/
def Token.shown (source : List Char) : List UInt8 :=
  listing (ofText source)

/-! ## 1. A dump, part by part -/

namespace Session

@[simp] theorem console_note (session : Session) (event : Event) :
    (session.note event).console = session.console.note event := rfl

/-- The console once a source has been scanned for a dump. -/
def scanned (session : Session) (source : List Char) : Console :=
  (session.console.scan source).2.note (.scanned (Token.ofText source).length)

/-- A dump scans, then delivers the listing, and takes the flag if that succeeds. -/
theorem dump_eq (session : Session) (source : List Char) :
    session.dump source =
      match session.out.deliver (Token.shown source) with
      | (.error fault, out) => (.error fault, ⟨out, session.scanned source, session.files⟩)
      | (.ok (), out) =>
        (.ok (session.scanned source).flagged,
          ⟨out, (session.scanned source).takeFlag.2, session.files⟩) := by
  obtain ⟨out, console, files⟩ := session
  unfold dump
  simp only [scan, note, present, scanned, Console.scan_fst, Token.shown]
  rcases out.deliver (Token.listing (Token.ofText source)) with ⟨_ | ⟨⟩, delivered⟩ <;> rfl

theorem flagged_scanned (session : Session) (source : List Char) :
    (session.scanned source).flagged =
      (session.console.flagged || !(Segment.strays source).isEmpty) :=
  Console.flagged_scan session.console source

/-- A dump fails as the delivery of its listing does. Otherwise it answers whether anything was
reported before it, since the flag was last taken, or of its own source. -/
theorem dump_fst (session : Session) (source : List Char) :
    (session.dump source).1 = (session.out.deliver (Token.shown source)).1.map fun _ =>
      session.console.flagged || !(Segment.strays source).isEmpty := by
  rw [dump_eq, ← flagged_scanned]
  split <;> next delivered => rw [delivered]; rfl

theorem out_dump (session : Session) (source : List Char) :
    (session.dump source).2.out = (session.out.write (Token.shown source)).2 := by
  rw [dump_eq, ← Sink.deliver_snd]
  split <;> next delivered => rw [delivered]

theorem sink_dump (session : Session) (source : List Char) :
    (session.dump source).2.console.sink =
      (session.console.sink.write (Diagnostic.rows (Segment.strays source).length)).2 := by
  rw [dump_eq, ← Console.sink_scan]
  split <;> rfl

theorem flagged_dump (session : Session) (source : List Char) :
    (session.dump source).2.console.flagged =
      match (session.out.deliver (Token.shown source)).1 with
      | .error _ => session.console.flagged || !(Segment.strays source).isEmpty
      | .ok () => false := by
  rw [dump_eq, ← flagged_scanned]
  split
  · next delivered => rw [delivered]
  · next delivered => rw [delivered]; rfl

/-- A dump does to the console what a scan does, and takes the flag if the listing is delivered. -/
theorem console_dump (session : Session) (source : List Char) :
    (session.dump source).2.console =
      match (session.out.deliver (Token.shown source)).1 with
      | .error _ => session.scanned source
      | .ok () => (session.scanned source).takeFlag.2 := by
  rw [dump_eq]
  split <;> next delivered => rw [delivered]

/-- The log of a dump is that of the scan, and the number of tokens behind it. -/
theorem toList_log_dump (session : Session) (source : List Char) :
    (session.dump source).2.console.log.toList =
      (session.scan source).2.console.log.toList ++ [.scanned (Token.ofText source).length] := by
  have noted : (session.scanned source).log.toList =
      (session.scan source).2.console.log.toList ++ [.scanned (Token.ofText source).length] :=
    Console.toList_log_note _ _
  rw [console_dump, ← noted]
  split <;> rfl

theorem files_dump (session : Session) (source : List Char) :
    (session.dump source).2.files = session.files := by
  rw [dump_eq]
  split <;> rfl

/-! ### When the output takes the listing -/

variable {session : Session} {source : List Char}

theorem dump_fst_of_takes (room : session.out.Takes (Token.shown source).length) :
    (session.dump source).1 =
      .ok (session.console.flagged || !(Segment.strays source).isEmpty) := by
  rw [dump_fst, room.deliver]
  rfl

theorem stored_out_dump (room : session.out.Takes (Token.shown source).length) :
    (session.dump source).2.out.stored.toList =
      session.out.stored.toList ++ Token.shown source := by
  rw [out_dump, room.stored]

end Session

/-! ### What matters of a console -/

/-- The consoles answer alike from now on; they may have noted different events. -/
structure Console.Alike (left right : Console) : Prop where
  sink : left.sink = right.sink
  flagged : left.flagged = right.flagged

theorem Console.Alike.refl (console : Console) : console.Alike console :=
  ⟨rfl, rfl⟩

theorem Console.Alike.trans {left middle right : Console} (h : left.Alike middle)
    (h' : middle.Alike right) : left.Alike right :=
  ⟨h.sink.trans h'.sink, h.flagged.trans h'.flagged⟩

theorem Console.Alike.note {left right : Console} (h : left.Alike right) (event : Event) :
    (left.note event).Alike right :=
  ⟨h.sink, h.flagged⟩

/-- Dumps leave consoles alike that were alike, where the same happens on the outputs. -/
theorem Console.Alike.dump {left right : Session} {source : List Char}
    (h : left.console.Alike right.console)
    (same : (left.out.deliver (Token.shown source)).1 =
      (right.out.deliver (Token.shown source)).1) :
    (left.dump source).2.console.Alike (right.dump source).2.console := by
  constructor
  · rw [Session.sink_dump, Session.sink_dump, h.sink]
  · rw [Session.flagged_dump, Session.flagged_dump, h.flagged, same]

/-! ## 2. Scripts, byte by byte -/

namespace Session

/-- What reading a script notes. -/
def scriptNote (path : Path) (data : List UInt8) : Event :=
  .scriptRead (String.ofList (Utf8.lenient path)) data.length

/-- A script that can be read is dumped as its lenient text is. -/
theorem dumpFile_eq {session : Session} {path : Path} {data : List UInt8}
    (readable : session.files.read path = .ok data) :
    session.dumpFile path =
      (((session.note (scriptNote path data)).dump (Utf8.lenient data)).1.mapError .stream,
        ((session.note (scriptNote path data)).dump (Utf8.lenient data)).2) := by
  rw [dumpFile, readable]
  rfl

/-- A script that can be read does to the session what a dump of its lenient text does. -/
theorem dumpFile_of_takes {session : Session} {path : Path} {data : List UInt8}
    (readable : session.files.read path = .ok data)
    (room : session.out.Takes (Token.shown (Utf8.lenient data)).length) :
    (session.dumpFile path).1 =
        .ok (session.console.flagged || !(Segment.strays (Utf8.lenient data)).isEmpty) ∧
      (session.dumpFile path).2.out.stored.toList =
        session.out.stored.toList ++ Token.shown (Utf8.lenient data) ∧
      (session.dumpFile path).2.console.sink = (session.console.sink.write
        (Diagnostic.rows (Segment.strays (Utf8.lenient data)).length)).2 := by
  have noted : (session.note (scriptNote path data)).out.Takes
      (Token.shown (Utf8.lenient data)).length := room
  rw [dumpFile_eq readable]
  refine ⟨?_, stored_out_dump noted, sink_dump _ _⟩
  rw [dump_fst_of_takes noted, console_note, Console.flagged_note]
  rfl

/-- A script that can be read, its output taking everything and its flag down:

* shows the tokens of the text that has a blank in place of each byte that is not in the alphabet,
  and these are the tokens of its lenient text;
* answers that nothing was reported exactly if all its bytes are in the alphabet;
* does the same to both streams and answers the same as a dump of a text, if it is the UTF-8 form
  of that text. -/
theorem dumpFile_bytewise {session : Session} {path : Path} {data : List UInt8}
    (readable : session.files.read path = .ok data) (reliable : session.out.Reliable)
    (fresh : session.console.flagged = false) :
    (session.dumpFile path).2.out.stored.toList =
        session.out.stored.toList ++ Token.listing (session.scan (Utf8.blanked data)).1 ∧
      (session.scan (Utf8.lenient data)).1 = (session.scan (Utf8.blanked data)).1 ∧
      (∃ flag, (session.dumpFile path).1 = .ok flag ∧
        (flag = false ↔ ∀ byte ∈ data, byte ∈ Symbol.byteAlphabet)) ∧
      ∀ text, data = Utf8.encode text →
        (session.dumpFile path).1 = (session.dump text).1.mapError .stream ∧
        (session.dumpFile path).2.out.stored = (session.dump text).2.out.stored ∧
        (session.dumpFile path).2.console.sink.stored =
          (session.dump text).2.console.sink.stored := by
  have same : (session.scan (Utf8.lenient data)).1 = (session.scan (Utf8.blanked data)).1 :=
    Utf8.ofText_lenient data
  obtain ⟨answered, shown, -⟩ := dumpFile_of_takes readable (reliable.takes _)
  rw [← same]
  refine ⟨shown, rfl, ⟨_, answered, ?_⟩, ?_⟩
  · rw [fresh, ← Utf8.strays_lenient_eq_nil_iff]
    simp
  · rintro text rfl
    rw [dumpFile_eq readable, Utf8.lenient_encode]
    refine ⟨?_, ?_, ?_⟩
    · rw [dump_fst, dump_fst]; rfl
    · rw [out_dump, out_dump]; rfl
    · rw [sink_dump, sink_dump]; rfl

/-- Truncated, overlong and surrogate forms around and between operators that must not meet. -/
theorem dumpFile_bytewise_malformed :
    let data : List UInt8 :=
      [0xF0, 0x9F, 33, 0xE2, 0x82, 61, 0xC0, 0x80, 60, 61, 0xED, 0xA0, 0x80, 62, 0xF4, 0x90]
    let session : Session := { files := FileTree.fresh.put [97] (.file data) }
    (session.files.read [97] = .ok data ∧ session.out.Reliable ∧
      session.console.flagged = false) ∧
    (session.dumpFile [97]).2.out.stored.toList = Token.listing (session.scan
      [' ', ' ', '!', ' ', ' ', '=', ' ', ' ', '<', '=', ' ', ' ', ' ', '>', ' ', ' ']).1 ∧
    ∃ flag, (session.dumpFile [97]).1 = .ok flag ∧ flag = true := by
  intro data session
  have readable : session.files.read [97] = .ok data := by rfl
  have reliable : session.out.Reliable := ⟨rfl, rfl⟩
  obtain ⟨shown, -, ⟨flag, answered, clean⟩, -⟩ := dumpFile_bytewise readable reliable rfl
  refine ⟨⟨readable, reliable, rfl⟩, shown, flag, answered, ?_⟩
  cases flag with
  | true => rfl
  | false =>
    have inside := clean.mp rfl 0xF0 List.mem_cons_self
    revert inside
    decide

end Session

end TokenDump
