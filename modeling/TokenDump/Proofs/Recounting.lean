import TokenDump.Proofs.Tracing

/-!
# Recounting

The log of a scan tells its source again. Each segment is noted with the offset at which it begins,
and what is reported of it follows its note at once, if need be with a warning. So the offsets that
were noted cut the source into its segments, and the number of tokens can be told from the log.

Results:
1. `pieces_offsets`, `offsets_pairwise`, `mem_offsets`: where segments begin.
2. `recounts_scan`: the events of a scan, segment by segment.
3. `Recounts.of_segment`, `Recounts.of_reported`: what stands next to an event.
4. `log_recounts_source`: the log of a scan and of a dump.
-/

namespace TokenDump

/-! ## 1. Where segments begin -/

namespace Utf8

/-- The offset, counted in bytes, is none within a character of the text. -/
def IsBoundary (text : List Char) (offset : Nat) : Prop :=
  ∃ before after, text = before ++ after ∧ (encode before).length = offset

/-- The pieces of some bytes that begin at these offsets, each up to where the next one begins. -/
def pieces (bytes : List UInt8) : List Nat → List (List UInt8)
  | [] => []
  | [start] => [bytes.drop start]
  | start :: next :: rest => (bytes.drop start).take (next - start) :: pieces bytes (next :: rest)

theorem length_encode_pos {text : List Char} (h : text ≠ []) : 0 < (encode text).length := by
  obtain ⟨c, rest, rfl⟩ := List.exists_cons_of_ne_nil h
  have first : (String.utf8EncodeChar c).length = c.utf8Size := String.length_utf8EncodeChar c
  have bytes := c.utf8Size_pos
  rw [encode, List.flatMap_cons, List.length_append]
  omega

/-- Beginnings of a text that have the same number of bytes are the same. -/
theorem eq_of_length_encode_eq {before before' after after' : List Char}
    (whole : before ++ after = before' ++ after')
    (same : (encode before).length = (encode before').length) : before = before' := by
  -- Whatever one of them has more than the other takes no bytes.
  have nothing {front more : List Char}
      (same : (encode front).length = (encode (front ++ more)).length) : more = [] := by
    cases more with
    | nil => rfl
    | cons c rest =>
      have bytes := length_encode_pos (List.cons_ne_nil c rest)
      rw [encode_append, List.length_append] at same
      omega
  rcases List.append_eq_append_iff.mp whole with ⟨more, rfl, -⟩ | ⟨more, rfl, -⟩
  · rw [nothing same, List.append_nil]
  · rw [nothing same.symm, List.append_nil]

end Utf8

namespace Segment

/-- The character at an offset of a text is outside the alphabet. -/
def StrayAt (source : List Char) (offset : Nat) : Prop :=
  ∃ before c after, source = before ++ c :: after ∧ (Utf8.encode before).length = offset ∧
    c ∉ Symbol.alphabet

/-- The offsets at which some segments begin, the first of them at this one. -/
def offsets (start : Nat) : List Segment → List Nat
  | [] => []
  | segment :: rest => start :: offsets (start + segment.width) rest

theorem width_pos (segment : Segment) : 0 < segment.width :=
  Utf8.length_encode_pos segment.chars_ne_nil

theorem length_offsets (start : Nat) (segments : List Segment) :
    (offsets start segments).length = segments.length := by
  induction segments generalizing start with
  | nil => rfl
  | cons segment rest ih => exact congrArg (· + 1) (ih _)

/-- An offset is the number of bytes before its segment. -/
theorem mem_offsets {start offset : Nat} {segments : List Segment}
    (h : offset ∈ offsets start segments) :
    ∃ before segment after, segments = before ++ segment :: after ∧
      offset = start + (Utf8.encode (before.flatMap chars)).length := by
  induction segments generalizing start with
  | nil => cases h
  | cons segment rest ih =>
    cases h with
    | head => exact ⟨[], segment, rest, rfl, rfl⟩
    | tail _ h =>
      obtain ⟨before, other, after, rfl, place⟩ := ih h
      refine ⟨segment :: before, other, after, rfl, ?_⟩
      rw [place, List.flatMap_cons, Utf8.encode_append, List.length_append, ← Nat.add_assoc]
      rfl

theorem offsets_pairwise (start : Nat) (segments : List Segment) :
    (offsets start segments).Pairwise (· < ·) := by
  induction segments generalizing start with
  | nil => exact .nil
  | cons segment rest ih =>
    refine .cons ?_ (ih _)
    intro later member
    obtain ⟨before, other, after, -, rfl⟩ := mem_offsets member
    have something := segment.width_pos
    omega

/-- Cutting at the offsets of segments gives their bytes. -/
theorem pieces_offsets (front : List UInt8) (segments : List Segment) :
    Utf8.pieces (front ++ Utf8.encode (segments.flatMap chars)) (offsets front.length segments) =
      segments.map fun segment => Utf8.encode segment.chars := by
  induction segments generalizing front with
  | nil => rfl
  | cons segment rest ih =>
    have later := ih (front ++ Utf8.encode segment.chars)
    rw [List.append_assoc, ← Utf8.encode_append, ← List.flatMap_cons, List.length_append] at later
    cases rest with
    | nil => simp [offsets, Utf8.pieces]
    | cons next rest =>
      rw [offsets, offsets, Utf8.pieces, List.map_cons, ← later, List.drop_left,
        Nat.add_sub_cancel_left, List.flatMap_cons, Utf8.encode_append, width, List.take_left]
      rfl

theorem head?_offsets_cut (source : List Char) :
    (offsets 0 (cut source)).head? = if source = [] then none else some 0 := by
  have lossless := flatMap_chars_cut source
  cases segments : cut source with
  | nil =>
    rw [segments] at lossless
    exact (if_pos lossless.symm).symm
  | cons segment rest =>
    refine (if_neg ?_).symm
    rintro rfl
    cases segments

theorem boundary_of_mem_offsets {source : List Char} {start : Nat}
    (h : start ∈ offsets 0 (cut source)) :
    start < (Utf8.encode source).length ∧ Utf8.IsBoundary source start := by
  obtain ⟨before, segment, after, parts, rfl⟩ := mem_offsets h
  have whole : source = before.flatMap chars ++ (segment.chars ++ after.flatMap chars) := by
    rw [← flatMap_chars_cut source, parts, List.flatMap_append, List.flatMap_cons]
  have something : segment.chars ++ after.flatMap chars ≠ [] :=
    List.append_ne_nil_of_left_ne_nil segment.chars_ne_nil _
  have bytes := Utf8.length_encode_pos something
  rw [Nat.zero_add]
  refine ⟨?_, _, _, whole, rfl⟩
  rw [whole, Utf8.encode_append, List.length_append]
  omega

/-- Every segment is that of a token or that of a diagnostic. -/
theorem length_filterMap_token?_add (segments : List Segment) :
    (segments.filterMap token?).length + (segments.filterMap diagnostic?).length =
      segments.length := by
  induction segments with
  | nil => rfl
  | cons segment rest ih =>
    cases segment with
    | symbol s =>
      show (rest.filterMap token?).length + 1 + (rest.filterMap diagnostic?).length =
        rest.length + 1
      omega
    | stray c =>
      show (rest.filterMap token?).length + ((rest.filterMap diagnostic?).length + 1) =
        rest.length + 1
      omega

/-- The first character of a segment that fits decides whether a stray character is there. -/
theorem strayAt_iff {before after : List Segment} {segment : Segment} {source : List Char}
    (whole : IsCut (before ++ segment :: after) source) :
    StrayAt source (Utf8.encode (before.flatMap chars)).length ↔ ∃ c, segment = .stray c := by
  have parts : source = before.flatMap chars ++ (segment.chars ++ after.flatMap chars) := by
    rw [← whole.lossless, List.flatMap_append, List.flatMap_cons]
  have fit := whole.fits before segment after rfl
  constructor
  · rintro ⟨front, c, rest, here, place, outside⟩
    have same : before.flatMap chars = front :=
      Utf8.eq_of_length_encode_eq (parts.symm.trans here) place.symm
    cases segment with
    | stray d => exact ⟨d, rfl⟩
    | symbol s =>
      rw [parts, same, List.append_cancel_left_eq] at here
      obtain ⟨d, tail, spelled⟩ := List.exists_cons_of_ne_nil (chars_ne_nil (.symbol s))
      rw [spelled] at here
      obtain ⟨rfl, -⟩ := List.cons.inj here
      have member : d ∈ s.chars := by
        rw [show s.chars = d :: tail from spelled]
        exact List.mem_cons_self
      exact absurd (Symbol.mem_alphabet_of_mem_chars member) outside
  · rintro ⟨c, rfl⟩
    exact ⟨before.flatMap chars, c, after.flatMap chars, parts, rfl, fit⟩

/-- A segment of a cut is that of a token, which has its characters, or a single stray character. -/
theorem IsCut.token_or_stray {segments : List Segment} {source : List Char}
    (whole : IsCut segments source) {segment : Segment} (member : segment ∈ segments) :
    (∃ token, segment.token? = some token ∧ token.lexeme.toList = segment.chars) ∨
      ∃ c ∉ Symbol.alphabet, segment = .stray c := by
  cases segment with
  | symbol s => exact .inl ⟨_, rfl, s.lexeme_toList⟩
  | stray c =>
    obtain ⟨before, after, parts⟩ := List.append_of_mem member
    exact .inr ⟨c, whole.fits before (.stray c) after parts, rfl⟩

/-- The tokens of a source are one more than its segments that are not stray. -/
theorem length_ofText (source : List Char) :
    (Token.ofText source).length =
      (cut source).length - ((cut source).filterMap diagnostic?).length + 1 := by
  have both := length_filterMap_token?_add (cut source)
  rw [Token.ofText_eq, Token.symbolsOf, List.length_append, List.length_singleton]
  omega

end Segment

/-! ## 2. The events of a scan -/

/-- The offset of the segment that an event notes, if it notes one. -/
def Event.start? : Event → Option Nat
  | segment start _ => some start
  | _ => none

namespace Console

/-- What follows the note of a segment: nothing if it is a symbol. A stray character is reported,
and there may be a warning that this could not be shown. -/
inductive Remarks : Segment → List Event → Prop where
  | symbol (s : Symbol) : Remarks (.symbol s) []
  | shown (c : Char) : Remarks (.stray c) [.reported .strayCharacter]
  | unshown (c : Char) (cause : Fault) :
      Remarks (.stray c) [.reported .strayCharacter, .unshown cause]

/-- The events tell of some segments in order, the first of which begins at this offset: each is
noted, with the offset at which it begins, and remarks follow its note. -/
inductive Recounts : Nat → List Segment → List Event → Prop where
  | nil (start : Nat) : Recounts start [] []
  | cons {start : Nat} {segment : Segment} {rest : List Segment} {remarks events : List Event} :
      Remarks segment remarks → Recounts (start + segment.width) rest events →
      Recounts start (segment :: rest) (.segment start Segment.line :: (remarks ++ events))

theorem recounts_entries (behaviour : Sink.Behaviour) (start : Nat) (segments : List Segment) :
    Recounts start segments (Act.entries behaviour (Act.ofSegments start segments)) := by
  induction segments generalizing behaviour start with
  | nil => exact .nil start
  | cons segment rest ih =>
    cases segment with
    | symbol s => exact .cons (.symbol s) (ih _ _)
    | stray c =>
      have later := ih (behaviour.after Diagnostic.strayCharacter.row.length)
        (start + (Segment.stray c).width)
      have parts : Act.entries behaviour (Act.ofSegments start (.stray c :: rest)) =
          .segment start Segment.line :: (.reported .strayCharacter ::
            warnings behaviour Diagnostic.strayCharacter.row.length ++ Act.entries _ _) := rfl
      rw [parts, warnings]
      split
      · exact .cons (.shown c) later
      · exact .cons (.unshown c _) later

theorem recounts_scan (console : Console) (source : List Char) :
    ∃ events, Recounts 0 (Segment.cut source) events ∧
      (console.scan source).2.log.toList = console.log.toList ++ events :=
  ⟨_, recounts_entries _ 0 _, (performs_scan console source).log_eq⟩

variable {start offset line : Nat} {segment : Segment} {segments : List Segment}
  {remarks events before after : List Event} {diagnostic : Diagnostic}

theorem Remarks.start?_eq_none (h : Remarks segment remarks) :
    remarks.filterMap Event.start? = [] := by
  cases h <;> rfl

theorem Remarks.filterMap_diagnostic? (h : Remarks segment remarks) :
    remarks.filterMap Event.diagnostic? = segment.diagnostic?.toList := by
  cases h <;> rfl

theorem Remarks.segment_not_mem (h : Remarks segment remarks) : .segment offset line ∉ remarks := by
  cases h <;> simp

theorem Recounts.filterMap_start? (h : Recounts start segments events) :
    events.filterMap Event.start? = Segment.offsets start segments := by
  induction h with
  | nil start => rfl
  | @cons start segment rest remarks events remarked _ ih =>
    show start :: (remarks ++ events).filterMap Event.start? = _
    rw [List.filterMap_append, remarked.start?_eq_none, ih]
    rfl

theorem Recounts.filterMap_diagnostic? (h : Recounts start segments events) :
    events.filterMap Event.diagnostic? = segments.filterMap Segment.diagnostic? := by
  induction h with
  | nil start => rfl
  | @cons start segment rest remarks events remarked _ ih =>
    show (remarks ++ events).filterMap Event.diagnostic? = _
    rw [List.filterMap_append, remarked.filterMap_diagnostic?, ih, List.filterMap_cons]
    cases segment.diagnostic? <;> rfl

/-! ## 3. What stands next to an event -/

/-- What follows the remarks about a segment is the note of the next one. -/
theorem Recounts.level_of_head? (h : Recounts start segments events) {event : Event}
    (first : events.head? = some event) : event.level = .trace := by
  cases h with
  | nil => cases first
  | cons remarked rest =>
    cases first
    rfl

/-- The note of a segment, and what follows it. -/
theorem Recounts.of_segment (h : Recounts start segments events)
    (parts : events = before ++ .segment offset line :: after) :
    ∃ earlier segment later remarks rest, segments = earlier ++ segment :: later ∧
      offset = start + (Utf8.encode (earlier.flatMap Segment.chars)).length ∧
      line = Segment.line ∧ Remarks segment remarks ∧ after = remarks ++ rest ∧
      Recounts (offset + segment.width) later rest := by
  induction h generalizing before with
  | nil => simp at parts
  | @cons start segment later remarks rest remarked recounted ih =>
    cases before with
    | nil =>
      obtain ⟨same, rfl⟩ := List.cons.inj parts
      cases same
      exact ⟨[], segment, later, remarks, rest, rfl, rfl, rfl, remarked, rfl, recounted⟩
    | cons first before =>
      obtain ⟨more, -, behind⟩ :=
        exists_of_append_eq (List.cons.inj parts).2 remarked.segment_not_mem
      obtain ⟨earlier, other, later, remarks, rest, rfl, place, others⟩ := ih behind
      refine ⟨segment :: earlier, other, later, remarks, rest, rfl, ?_, others⟩
      rw [place, List.flatMap_cons, Utf8.encode_append, List.length_append, ← Nat.add_assoc]
      rfl

theorem Recounts.line_eq (h : Recounts start segments events)
    (member : .segment offset line ∈ events) : line = Segment.line := by
  obtain ⟨before, after, parts⟩ := List.append_of_mem member
  obtain ⟨_, _, _, _, _, -, -, same, -⟩ := h.of_segment parts
  exact same

/-- A report is right between the note of a segment and that of the next one. -/
structure Enclosed (before : List Event) (diagnostic : Diagnostic) (after : List Event) : Prop where
  reported : diagnostic = ⟨1, "", "Unexpected character."⟩
  noted : ∃ front offset, before = front ++ [.segment offset 1]
  /-- At most a warning comes between. -/
  next : ∃ warnings rest, after = warnings ++ rest ∧ warnings.length ≤ 1 ∧
    (∀ warning ∈ warnings, warning.level = .warn) ∧
    ∀ event, rest.head? = some event → event.level = .trace

theorem Enclosed.append (h : Enclosed before diagnostic after) (front : List Event) :
    Enclosed (front ++ before) diagnostic after := by
  obtain ⟨more, offset, noted⟩ := h.noted
  exact ⟨h.reported, ⟨front ++ more, offset, by rw [noted, List.append_assoc]⟩, h.next⟩

theorem Recounts.of_reported (h : Recounts start segments events)
    (parts : events = before ++ .reported diagnostic :: after) :
    Enclosed before diagnostic after := by
  induction h generalizing before with
  | nil => simp at parts
  | @cons start segment later remarks rest remarked recounted ih =>
    cases before with
    | nil => cases (List.cons.inj parts).1
    | cons first before =>
      obtain ⟨rfl, behind⟩ := List.cons.inj parts
      cases remarked with
      | symbol s => exact (ih behind).append [_]
      | shown c =>
        cases before with
        | nil =>
          cases behind
          exact ⟨rfl, ⟨[], start, rfl⟩, [], rest, rfl, Nat.zero_le _, by simp,
            fun _ => recounted.level_of_head?⟩
        | cons report before => exact (ih (List.cons.inj behind).2).append [_, report]
      | unshown c cause =>
        match before, behind with
        | [], behind =>
          cases behind
          exact ⟨rfl, ⟨[], start, rfl⟩, [.unshown cause], rest, rfl, Nat.le_refl _,
            List.forall_mem_singleton.mpr rfl, fun _ => recounted.level_of_head?⟩
        | [report], behind => cases behind
        | report :: warning :: before, behind =>
          exact (ih (List.cons.inj (List.cons.inj behind).2).2).append [_, report, warning]

/-! ## 4. The log of a scan and of a dump -/

/-- A stray character is reported right behind the note of its segment, and nothing else is. -/
theorem Recounts.reported_iff {source : List Char} (h : Recounts 0 segments events)
    (whole : Segment.IsCut segments source)
    (parts : events = before ++ .segment offset line :: after) :
    after.head? = some (.reported .strayCharacter) ↔ Segment.StrayAt source offset := by
  obtain ⟨earlier, segment, later, remarks, rest, rfl, place, -, remarked, rfl, recounted⟩ :=
    h.of_segment parts
  rw [place, Nat.zero_add, Segment.strayAt_iff whole]
  cases remarked with
  | symbol s =>
    refine iff_of_false ?_ (by simp)
    intro first
    cases recounted.level_of_head? first
  | shown c => exact iff_of_true rfl ⟨c, rfl⟩
  | unshown c cause => exact iff_of_true rfl ⟨c, rfl⟩

end Console

namespace Session

open Console (Recounts Enclosed)

/-- The log of a scan tells its source, and so does that of a dump, which notes the number of tokens
behind it whether or not they can be shown:

* the segments that are noted are on line 1, and their offsets begin with 0 if there is a character
  at all, rise, and stand at boundaries of characters before the end of the source;
* the bytes of the source, cut at these offsets, are those of the lexemes of the tokens and of the
  single characters outside the alphabet, in the order of both;
* a report follows the note of a segment at once exactly if a stray character is there, and each
  report stands right behind such a note, with at most a warning before the next one;
* there is one token more than segments that were noted without a report. -/
theorem log_recounts_source (session : Session) (source : List Char) :
    ∃ (segments : List Segment) (events : List Event) (count : Nat),
      let starts := events.filterMap Event.start?
      let reports := events.filterMap Event.diagnostic?
      (session.scan source).2.console.log.toList = session.console.log.toList ++ events ∧
      (session.dump source).2.console.log.toList =
        session.console.log.toList ++ (events ++ [.scanned count]) ∧
      (∀ start line, .segment start line ∈ events → line = 1) ∧
      starts.head? = (if source = [] then none else some 0) ∧
      starts.Pairwise (· < ·) ∧
      (∀ start ∈ starts, start < (Utf8.encode source).length ∧ Utf8.IsBoundary source start) ∧
      Utf8.pieces (Utf8.encode source) starts =
        segments.map (fun segment => Utf8.encode segment.chars) ∧
      (∀ segment ∈ segments,
        (∃ token, segment.token? = some token ∧ token.lexeme.toList = segment.chars) ∨
        ∃ c ∉ Symbol.alphabet, segment = .stray c) ∧
      (session.scan source).1 = segments.filterMap Segment.token? ++ [⟨.endOfText, "", 1⟩] ∧
      segments.filterMap Segment.stray? = source.filter (· ∉ Symbol.alphabet) ∧
      (∀ before start line after, events = before ++ .segment start line :: after →
        (after.head? = some (.reported ⟨1, "", "Unexpected character."⟩) ↔
          Segment.StrayAt source start)) ∧
      (∀ before diagnostic after, events = before ++ .reported diagnostic :: after →
        Enclosed before diagnostic after) ∧
      reports.length ≤ starts.length ∧ count = starts.length - reports.length + 1 := by
  obtain ⟨events, recounted, log⟩ := Console.recounts_scan session.console source
  have log : (session.scan source).2.console.log.toList =
      session.console.log.toList ++ events := log
  have whole := Segment.isCut_cut source
  have starts := recounted.filterMap_start?
  have reports := recounted.filterMap_diagnostic?
  refine ⟨Segment.cut source, events, (Token.ofText source).length, log, ?_, ?_, ?_, ?_, ?_, ?_,
    fun _ => whole.token_or_stray, rfl, Segment.filterMap_stray?_cut source, ?_, ?_, ?_, ?_⟩
  · rw [toList_log_dump, log, List.append_assoc]
  · intro start line
    exact recounted.line_eq
  · rw [starts, Segment.head?_offsets_cut]
  · rw [starts]
    exact Segment.offsets_pairwise 0 _
  · intro start member
    rw [starts] at member
    exact Segment.boundary_of_mem_offsets member
  · rw [starts]
    have cut := Segment.pieces_offsets [] (Segment.cut source)
    rwa [Segment.flatMap_chars_cut] at cut
  · intro before start line after parts
    exact recounted.reported_iff whole parts
  · intro before diagnostic after parts
    exact recounted.of_reported parts
  · rw [starts, reports, Segment.length_offsets]
    exact List.length_filterMap_le _ _
  · rw [starts, reports, Segment.length_offsets, Segment.length_ofText]

example : (Console.scan { sink := .full } ['é', '!', '=', '+']).2.log.toList =
    [.segment 0 1, .reported .strayCharacter, .unshown (.system .noSpaceLeft), .segment 2 1,
      .segment 4 1] := by
  decide +kernel

end Session

end TokenDump
