import TokenDump.Proofs.Conversing

/-!
# Agreement

A script and a conversation split, decode and scan the same bytes in a different order. Neither the
line feeds nor the carriage returns before them are symbols, and no malformed sequence reaches over
one, so both find the same symbols. What is stray is the same too, but for the bytes of line
endings, which only the script reports.

Results:
1. `symbolsOf_lines`, `length_strays_lines`, `length_ofBytes`: the bytes and the texts of their
   lines.
2. `dumpFile_agrees`: what a script and a conversation show and report for the same bytes.
-/

namespace TokenDump

/-! ## 1. Stray ASCII bytes -/

namespace Utf8

theorem symbolsOf_lenient_append {byte : UInt8} (ascii : byte.toNat < 0x80)
    (stray : Char.ofNat byte.toNat ∉ Symbol.alphabet) (left right : List UInt8) :
    Token.symbolsOf (lenient (left ++ byte :: right)) =
      Token.symbolsOf (lenient left) ++ Token.symbolsOf (lenient right) := by
  rw [lenient_append_ascii ascii, Token.symbolsOf_append_stray stray]

theorem length_strays_lenient_append {byte : UInt8} (ascii : byte.toNat < 0x80)
    (stray : Char.ofNat byte.toNat ∉ Symbol.alphabet) (left right : List UInt8) :
    (Segment.strays (lenient (left ++ byte :: right))).length =
      (Segment.strays (lenient left)).length + 1 + (Segment.strays (lenient right)).length := by
  have alone : Segment.strays (Char.ofNat byte.toNat :: lenient right) =
      Char.ofNat byte.toNat :: Segment.strays (lenient right) :=
    List.filter_cons_of_pos (decide_eq_true stray)
  rw [lenient_append_ascii ascii, Segment.strays_append, alone, List.length_append,
    List.length_cons]
  omega

end Utf8

/-! ## 2. Lines and what their endings take away -/

namespace Line

/-- How many lines some bytes have. -/
def count (bytes : List UInt8) : Nat :=
  bytes.count lineFeed + if bytes = [] ∨ bytes.getLast? = some lineFeed then 0 else 1

/-- How many carriage returns stand right before a line feed or at the very end. -/
def finalReturns : List UInt8 → Nat
  | [] => 0
  | byte :: rest =>
    (if byte = carriageReturn ∧ (rest = [] ∨ rest.head? = some lineFeed) then 1 else 0) +
      finalReturns rest

theorem lineFeed_stray : Char.ofNat lineFeed.toNat ∉ Symbol.alphabet := by
  decide

theorem carriageReturn_stray : Char.ofNat carriageReturn.toNat ∉ Symbol.alphabet := by
  decide

/-- The content of a line is the line without its line feed, and then ends in no carriage return or
lacks the last one. -/
theorem content_cases {line front : List UInt8} (uncut : lineFeed ∉ front)
    (ending : line = front ∨ line = front ++ [lineFeed]) :
    (content line = front ∧ front.getLast? ≠ some carriageReturn) ∨
      front = content line ++ [carriageReturn] := by
  have fed : dropFinal lineFeed line = front := by
    rcases ending with rfl | rfl
    · unfold dropFinal
      refine if_neg fun last => uncut (List.mem_of_getLast? last)
    · rw [dropFinal_append_singleton, if_pos rfl]
  rw [content, fed]
  by_cases last : front.getLast? = some carriageReturn
  · obtain ⟨body, rfl⟩ := List.getLast?_eq_some_iff.mp last
    refine .inr ?_
    rw [dropFinal_append_singleton, if_pos rfl]
  · refine .inl ⟨?_, last⟩
    rw [dropFinal, if_neg last]

theorem finalReturns_of_uncut {front : List UInt8} (uncut : lineFeed ∉ front) :
    finalReturns front = if front.getLast? = some carriageReturn then 1 else 0 := by
  induction front with
  | nil => rfl
  | cons byte front ih =>
    rw [List.mem_cons, not_or] at uncut
    rw [finalReturns, ih uncut.2]
    cases front with
    | nil => simp
    | cons next front =>
      have other : next ≠ lineFeed := fun same => uncut.2 (same ▸ List.mem_cons_self)
      simp [other, List.getLast?_cons_cons]

theorem finalReturns_append (front rest : List UInt8) :
    finalReturns (front ++ lineFeed :: rest) = finalReturns front + finalReturns rest := by
  induction front with
  | nil => simp [finalReturns, lineFeed, carriageReturn]
  | cons byte front ih =>
    rw [List.cons_append, finalReturns, ih, finalReturns, Nat.add_assoc]
    cases front with
    | nil => simp
    | cons next front => simp

/-- The content of a line has the symbols of the line, and lacks its final carriage return. -/
theorem text_of_line {line front : List UInt8} (uncut : lineFeed ∉ front)
    (ending : line = front ∨ line = front ++ [lineFeed]) :
    Token.symbolsOf (text line) = Token.symbolsOf (Utf8.lenient front) ∧
      (Segment.strays (Utf8.lenient front)).length =
        (Segment.strays (text line)).length + finalReturns front := by
  rw [finalReturns_of_uncut uncut, text]
  rcases content_cases uncut ending with ⟨same, other⟩ | dropped
  · rw [same, if_neg other]
    exact ⟨rfl, rfl⟩
  · have last : front.getLast? = some carriageReturn := by
      rw [dropped, List.getLast?_concat]
    rw [if_pos last, dropped, Utf8.symbolsOf_lenient_append (by decide) carriageReturn_stray,
      Utf8.length_strays_lenient_append (by decide) carriageReturn_stray]
    exact ⟨(List.append_nil _).symm, rfl⟩

/-! ## 3. The bytes and the texts of their lines -/

theorem symbolsOf_lines (bytes : List UInt8) :
    ((ofBytes bytes).map text).flatMap Token.symbolsOf =
      Token.symbolsOf (Utf8.lenient bytes) := by
  induction bytes using bytes_induction with
  | nothing => rfl
  | last bytes uncut nonempty =>
    rw [ofBytes_of_uncut uncut nonempty, ← (text_of_line uncut (.inl rfl)).1]
    simp
  | line front rest uncut ih =>
    rw [ofBytes_of_cut uncut, Utf8.symbolsOf_lenient_append (by decide) lineFeed_stray, ← ih,
      ← (text_of_line uncut (.inr rfl)).1]
    rfl

/-- What is stray in some bytes is so in one of their lines, or it ends one. -/
theorem length_strays_lines (bytes : List UInt8) :
    (Segment.strays (Utf8.lenient bytes)).length =
      (((ofBytes bytes).map text).flatMap Segment.strays).length + bytes.count lineFeed +
        finalReturns bytes := by
  induction bytes using bytes_induction with
  | nothing => rfl
  | last bytes uncut nonempty =>
    rw [ofBytes_of_uncut uncut nonempty, (text_of_line uncut (.inl rfl)).2,
      List.count_eq_zero_of_not_mem uncut]
    simp
  | line front rest uncut ih =>
    rw [ofBytes_of_cut uncut, Utf8.length_strays_lenient_append (by decide) lineFeed_stray, ih,
      (text_of_line uncut (.inr rfl)).2, finalReturns_append, List.count_append,
      List.count_cons_self, List.count_eq_zero_of_not_mem uncut, List.map_cons,
      List.flatMap_cons, List.length_append]
    omega

theorem length_ofBytes (bytes : List UInt8) : (ofBytes bytes).length = count bytes := by
  induction bytes using bytes_induction with
  | nothing => rfl
  | last bytes uncut nonempty =>
    have open' : ¬ (bytes = [] ∨ bytes.getLast? = some lineFeed) := by
      rintro (none | last)
      · exact nonempty none
      · exact uncut (List.mem_of_getLast? last)
    rw [ofBytes_of_uncut uncut nonempty, count, if_neg open', List.count_eq_zero_of_not_mem uncut]
    rfl
  | line front rest uncut ih =>
    -- Whether the last line lacks its line feed is decided behind the first line.
    have whole : (front ++ lineFeed :: rest = [] ∨
        (front ++ lineFeed :: rest).getLast? = some lineFeed) ↔
          (rest = [] ∨ rest.getLast? = some lineFeed) := by
      cases rest with
      | nil => simp
      | cons byte rest => simp [List.getLast?_append, List.getLast?_cons_cons]
    rw [ofBytes_of_cut uncut, List.length_cons, ih, count, count, List.count_append,
      List.count_cons_self, List.count_eq_zero_of_not_mem uncut]
    simp only [whole]
    omega

end Line

/-! ## 4. Scripts and conversations -/

/-- The closing marks among some tokens. -/
def Token.marks (tokens : List Token) : List Token :=
  tokens.filter (·.kind = .endOfText)

/-- The tokens other than closing marks. -/
def Token.unmarked (tokens : List Token) : List Token :=
  tokens.filter (·.kind ≠ .endOfText)

namespace Token

theorem kind_ne_of_mem_symbolsOf {text : List Char} {token : Token}
    (h : token ∈ symbolsOf text) : token.kind ≠ .endOfText := by
  obtain ⟨symbol, rfl⟩ := exists_eq_ofSymbol h
  exact Kind.noConfusion

theorem unmarked_ofText (text : List Char) : unmarked (ofText text) = symbolsOf text := by
  have all : (symbolsOf text).filter (·.kind ≠ .endOfText) = symbolsOf text :=
    List.filter_eq_self.mpr fun _ member => decide_eq_true (kind_ne_of_mem_symbolsOf member)
  rw [unmarked, ofText_eq, List.filter_append, all]
  exact List.append_nil _

theorem marks_ofText (text : List Char) : marks (ofText text) = [.endOfText Segment.line] := by
  have none : (symbolsOf text).filter (·.kind = .endOfText) = [] :=
    List.filter_eq_nil_iff.mpr fun _ member marked =>
      kind_ne_of_mem_symbolsOf member (of_decide_eq_true marked)
  rw [marks, ofText_eq, List.filter_append, none]
  rfl

end Token

namespace Session

theorem sink_dumpAll (session : Session) (texts : List (List Char)) :
    (session.dumpAll texts).console.sink =
      (session.console.sink.write (Diagnostic.rows (texts.flatMap Segment.strays).length)).2 := by
  induction texts generalizing session with
  | nil => exact (Sink.write_nil session.console.sink).symm
  | cons text texts ih =>
    rw [dumpAll_cons, ih, sink_dump, Sink.write_append, ← Diagnostic.rows_add, List.flatMap_cons,
      List.length_append]

/-- The tokens of the text of each line of some bytes. -/
def answers (bytes : List UInt8) : List (List Token) :=
  (Line.ofBytes bytes).map fun line => Token.ofText line.text

theorem unmarked_answers (bytes : List UInt8) :
    Token.unmarked (answers bytes).flatten = Token.symbolsOf (Utf8.lenient bytes) := by
  rw [← Line.symbolsOf_lines, answers, Token.unmarked, List.filter_flatten, List.map_map,
    List.flatMap_map, List.flatMap_def]
  refine congrArg List.flatten (List.map_congr_left ?_)
  intro line _
  exact Token.unmarked_ofText line.text

/-- A script and a conversation whose input hands out the same bytes, with streams that never fail:

* show the same symbols in the same order;
* report the same, but for the line feeds and the carriage returns of line endings, which only the
  script reports;
* show a closing mark for every line in a conversation, and a single one for the script. -/
theorem dumpFile_agrees {session : Session} {path : Path} {bytes : List UInt8} {input : Input}
    (readable : session.files.read path = .ok bytes) (delivers : Input.Delivers input bytes)
    (out : session.out.Reliable) (err : session.console.sink.Reliable) :
    ∃ (reported : Nat) (flag : Bool) (after : Session) (rest : Input),
      (session.dumpFile path).1 = .ok flag ∧
      session.converse input = (.ok (), after, rest) ∧
      (session.dumpFile path).2.out.stored.toList =
        session.out.stored.toList ++ Token.listing (Token.ofText (Utf8.lenient bytes)) ∧
      after.out.stored.toList = session.out.stored.toList ++
        ((answers bytes).flatMap (fun answer => prompt ++ Token.listing answer) ++
          (prompt ++ [Line.lineFeed])) ∧
      Token.unmarked (Token.ofText (Utf8.lenient bytes)) =
        Token.unmarked (answers bytes).flatten ∧
      after.console.sink.stored.toList =
        session.console.sink.stored.toList ++ Diagnostic.rows reported ∧
      (session.dumpFile path).2.console.sink.stored.toList =
        session.console.sink.stored.toList ++
          Diagnostic.rows (reported + bytes.count Line.lineFeed + Line.finalReturns bytes) ∧
      (answers bytes).length = Line.count bytes ∧
      (∀ answer ∈ answers bytes, Token.marks answer = [.endOfText 1]) ∧
      Token.marks (Token.ofText (Utf8.lenient bytes)) = [.endOfText 1] := by
  obtain ⟨rest, read⟩ := delivers.readAll
  have ended : input.readAll.ending = .ok () := by rw [read]
  have lines : input.readAll.lines = Line.ofBytes bytes := by rw [read]
  obtain ⟨after, attended, shown, alike⟩ := attend_of_takes (.refl session.console)
    (out.takes (transcript ((Line.ofBytes bytes).map Line.text)).length) (out.takes _)
  obtain ⟨left, conversed, -⟩ := converse_attend session input
  rw [ended, lines, attended] at conversed
  obtain ⟨answered, listed, told⟩ := dumpFile_of_takes readable (out.takes _)
  refine ⟨(((Line.ofBytes bytes).map Line.text).flatMap Segment.strays).length, _, after, left,
    answered, conversed, listed, ?_, ?_, ?_, ?_, ?_, ?_, Token.marks_ofText _⟩
  · rw [shown, transcript, answers, List.flatMap_map, List.flatMap_map]
    rfl
  · rw [Token.unmarked_ofText, unmarked_answers]
  · rw [alike.sink, sink_dumpAll, (err.takes _).stored]
  · rw [told, (err.takes _).stored, Line.length_strays_lines]
  · rw [answers, List.length_map, Line.length_ofBytes]
  · intro answer member
    obtain ⟨line, -, rfl⟩ := List.mem_map.mp member
    exact Token.marks_ofText line.text

/-- Chunks that part a line ending and a malformed sequence, which stands between two carriage
returns in a last line without a line feed. -/
theorem dumpFile_agrees_malformed :
    let bytes : List UInt8 := [33, 10, 61, 13, 10, 13, 0xE2, 0x82, 13]
    let input : Input := [.data [33], .fault (.system .interruptedCall), .data [10, 61, 13],
      .data [10, 13, 0xE2], .data [0x82, 13], .data [], .data []]
    let session : Session := { files := FileTree.fresh.put [97] (.file bytes) }
    (session.files.read [97] = .ok bytes ∧ Input.Delivers input bytes ∧ session.out.Reliable ∧
      session.console.sink.Reliable) ∧
    ∃ (reported : Nat) (after : Session) (rest : Input),
      session.converse input = (.ok (), after, rest) ∧ (answers bytes).length = 3 ∧
      after.out.stored.toList = (answers bytes).flatMap
        (fun answer => prompt ++ Token.listing answer) ++ (prompt ++ [Line.lineFeed]) ∧
      after.console.sink.stored.toList = Diagnostic.rows reported ∧
      (session.dumpFile [97]).2.console.sink.stored.toList =
        Diagnostic.rows (reported + 2 + 2) := by
  intro bytes input session
  have readable : session.files.read [97] = .ok bytes := by rfl
  have pieces : Input.Delivers input ([33] ++ ([10, 61, 13] ++ ([10, 13, 0xE2] ++
      ([0x82, 13] ++ [])))) :=
    .data (by decide) (.interrupted rfl (.data (by decide) (.data (by decide)
      (.data (by decide) (.ended (.ended .nothing))))))
  have out : session.out.Reliable := ⟨rfl, rfl⟩
  have err : session.console.sink.Reliable := ⟨rfl, rfl⟩
  obtain ⟨reported, _, after, rest, -, conversed, -, shown, -, told, told', lines, -⟩ :=
    dumpFile_agrees readable pieces out err
  exact ⟨⟨readable, pieces, out, err⟩, reported, after, rest, conversed, lines, shown, told, told'⟩

end Session

end TokenDump
