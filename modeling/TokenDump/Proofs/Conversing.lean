import TokenDump.Session.Step
import TokenDump.Proofs.Dumping
import TokenDump.Proofs.Reading

/-!
# Conversing

A conversation reads a line only after it has answered the one before. What it does to the session
is nevertheless what answering the lines of the input does (`converse_attend`), since reading
does not depend on the session.

Results:
1. `converse_attend`: a conversation with any input, for sinks of any behaviour, as a recursion on
   the lines of the input.
2. `converse_calm`: a conversation with a calm input dumps the text of each line, between
   invitations.
-/

namespace TokenDump

/-- The text of a line: malformed bytes are read leniently, the ending is dropped. -/
def Line.text (line : Line) : List Char :=
  Utf8.lenient line.content

/-- The texts of the lines that an input holds up to its end. -/
def Input.texts (input : Input) : List (List Char) :=
  input.readAll.lines.map Line.text

namespace Session

/-- The bytes of an invitation. -/
def prompt : List UInt8 :=
  Utf8.encode invitation.toList

/-! ## 1. A conversation as a recursion on lines -/

/-- Answers some lines, each after an invitation, and what follows the last invitation: the end of
the input or the fault of a read. -/
def attend (ending : Except Fault Unit) (session : Session) :
    List Line → Except Fault Unit × Session
  | [] =>
    match session.invite with
    | (.error fault, session) => (.error fault, session)
    | (.ok (), session) =>
      match ending with
      | .error fault => (.error fault, session)
      | .ok () => session.close
  | line :: lines =>
    match session.invite with
    | (.error fault, session) => (.error fault, session)
    | (.ok (), session) =>
      match session.answer line with
      | (.error fault, session) => (.error fault, session)
      | (.ok (), session) => session.attend ending lines

theorem attend_nil_of_ok {session asked : Session} (invited : session.invite = (.ok (), asked)) :
    session.attend (.ok ()) [] = asked.close := by
  rw [attend, invited]

theorem attend_cons_of_ok {session asked answered : Session} {line : Line} {lines : List Line}
    {ending : Except Fault Unit} (invited : session.invite = (.ok (), asked))
    (answer : asked.answer line = (.ok (), answered)) :
    session.attend ending (line :: lines) = answered.attend ending lines := by
  rw [attend, invited]
  dsimp only
  rw [answer]

theorem converse_eq (session : Session) (input : Input) :
    session.converse input =
      match session.invite with
      | (.error fault, session) => (.error fault, session, input)
      | (.ok (), session) =>
        match input.readLine with
        | (.error fault, rest) => (.error fault, session, rest)
        | (.ok line, rest) =>
          if line = [] then
            match session.close with
            | (result, session) => (result, session, rest)
          else
            match session.answer line with
            | (.error fault, session) => (.error fault, session, rest)
            | (.ok (), session) => session.converse rest := by
  rw [converse]
  rcases session.invite with ⟨_ | ⟨⟩, invited⟩
  · rfl
  · dsimp only
    split
    · next read => rw [read]
    · next read => rw [read]; rfl

/-- A conversation answers the lines of its input. If it succeeds, it leaves of the input what
reading all of them leaves. -/
theorem converse_attend (session : Session) (input : Input) :
    ∃ left, session.converse input =
        ((session.attend input.readAll.ending input.readAll.lines).1,
          (session.attend input.readAll.ending input.readAll.lines).2, left) ∧
      ((session.attend input.readAll.ending input.readAll.lines).1 = .ok () →
        left = input.readAll.rest) := by
  induction input using Input.readAll_induction generalizing session with
  | error input fault rest read =>
    rw [converse_eq, Input.readAll_of_error read, read]
    unfold attend
    rcases session.invite with ⟨_ | ⟨⟩, invited⟩
    · refine ⟨input, rfl, ?_⟩
      rintro ⟨⟩
    · refine ⟨rest, rfl, ?_⟩
      rintro ⟨⟩
  | ended input rest read =>
    rw [converse_eq, Input.readAll_of_nil read, read]
    unfold attend
    rcases session.invite with ⟨_ | ⟨⟩, invited⟩
    · refine ⟨input, rfl, ?_⟩
      rintro ⟨⟩
    · exact ⟨rest, rfl, fun _ => rfl⟩
  | line input line rest read nonempty ih =>
    rw [converse_eq, Input.readAll_of_line read nonempty, read]
    simp only [Input.Reading.cons, attend, if_neg nonempty]
    rcases session.invite with ⟨_ | ⟨⟩, invited⟩
    · refine ⟨input, rfl, ?_⟩
      rintro ⟨⟩
    · dsimp only
      rcases invited.answer line with ⟨_ | ⟨⟩, answered⟩
      · refine ⟨rest, rfl, ?_⟩
        rintro ⟨⟩
      · exact ih answered

/-- How many invitations of a conversation about some lines succeed. Each is followed by an attempt
to read a line. -/
def invitations (session : Session) : List Line → Nat
  | [] =>
    match session.invite with
    | (.error _, _) => 0
    | (.ok (), _) => 1
  | line :: lines =>
    match session.invite with
    | (.error _, _) => 0
    | (.ok (), asked) =>
      match asked.answer line with
      | (.error _, _) => 1
      | (.ok (), answered) => answered.invitations lines + 1

/-- A conversation leaves of its input what its attempts to read leave, however it ends. -/
theorem unread_converse (session : Session) (input : Input) :
    (session.converse input).2.2 =
      input.leftAfter (session.invitations input.readAll.lines) := by
  induction input using Input.readAll_induction generalizing session with
  | error input fault rest read =>
    rw [converse_eq, Input.readAll_of_error read, read, invitations]
    rcases session.invite with ⟨_ | ⟨⟩, asked⟩
    · rfl
    · exact (Input.leftAfter_succ_of_read read 0).symm
  | ended input rest read =>
    rw [converse_eq, Input.readAll_of_nil read, read, invitations]
    rcases session.invite with ⟨_ | ⟨⟩, asked⟩
    · rfl
    · exact (Input.leftAfter_succ_of_read read 0).symm
  | line input line rest read nonempty ih =>
    rw [converse_eq, Input.readAll_of_line read nonempty, read]
    simp only [Input.Reading.cons, invitations, if_neg nonempty]
    rcases session.invite with ⟨_ | ⟨⟩, asked⟩
    · rfl
    · dsimp only
      rcases asked.answer line with ⟨_ | ⟨⟩, answered⟩
      · exact (Input.leftAfter_succ_of_read read 0).symm
      · exact (ih answered).trans (Input.leftAfter_succ_of_read read _).symm

/-! ## 2. When the output takes everything -/

/-- What a conversation shows for lines of these texts. -/
def transcript (texts : List (List Char)) : List UInt8 :=
  texts.flatMap (fun text => prompt ++ Token.shown text) ++ (prompt ++ [Line.lineFeed])

theorem transcript_cons (text : List Char) (texts : List (List Char)) :
    transcript (text :: texts) = prompt ++ (Token.shown text ++ transcript texts) := by
  simp [transcript]

/-- Some dumps one after another. -/
def dumpAll (session : Session) (texts : List (List Char)) : Session :=
  (session.play (texts.map .dump)).2

@[simp] theorem dumpAll_cons (session : Session) (text : List Char) (texts : List (List Char)) :
    session.dumpAll (text :: texts) = (session.dump text).2.dumpAll texts := rfl

theorem present_eq (session : Session) (bytes : List UInt8) :
    session.present bytes =
      ((session.out.deliver bytes).1, { session with out := (session.out.deliver bytes).2 }) := rfl

theorem print_eq (session : Session) (bytes : List UInt8) :
    session.print bytes =
      ((session.out.write bytes).1, { session with out := (session.out.write bytes).2 }) := rfl

theorem invite_of_takes {session : Session} (room : session.out.Takes prompt.length) :
    session.invite = (.ok (), { session with out := (session.out.write prompt).2 }) := by
  rw [invite, ← prompt, present_eq, room.deliver]

theorem close_of_takes {session : Session} (room : session.out.Takes [Line.lineFeed].length) :
    session.close =
      (.ok (), { session with out := (session.out.write [Line.lineFeed]).2 }) := by
  rw [close, print_eq, room.write_fst]

theorem answer_eq (session : Session) (line : Line) :
    session.answer line =
      match session.dump line.text with
      | (.error fault, session) => (.error fault, session)
      | (.ok true, session) => (.ok (), session.note .lineFlagged)
      | (.ok false, session) => (.ok (), session) := rfl

/-- Answering a line is dumping its text, but for the flag, which is only noted. -/
theorem answer_of_takes {session : Session} {line : Line}
    (room : session.out.Takes (Token.shown line.text).length) :
    ∃ after, session.answer line = (.ok (), after) ∧
      after.out = (session.dump line.text).2.out ∧
      after.console.Alike (session.dump line.text).2.console := by
  obtain ⟨flag, dumped⟩ : ∃ flag, (session.dump line.text).1 = .ok flag :=
    ⟨_, dump_fst_of_takes room⟩
  rw [answer_eq]
  rcases whole : session.dump line.text with ⟨result, after⟩
  rw [whole] at dumped
  cases dumped
  cases flag with
  | true => exact ⟨_, rfl, rfl, (Console.Alike.refl after.console).note .lineFlagged⟩
  | false => exact ⟨_, rfl, rfl, .refl after.console⟩

/-- The session that talks and the one that only dumps go side by side: their consoles are alike
before every line, though their outputs differ by the invitations. -/
theorem attend_of_takes {talk played : Session} {lines : List Line}
    (alike : talk.console.Alike played.console)
    (room : talk.out.Takes (transcript (lines.map Line.text)).length)
    (room' : played.out.Takes ((lines.map Line.text).flatMap Token.shown).length) :
    ∃ after, talk.attend (.ok ()) lines = (.ok (), after) ∧
      after.out.stored.toList =
        talk.out.stored.toList ++ transcript (lines.map Line.text) ∧
      after.console.Alike (played.dumpAll (lines.map Line.text)).console := by
  induction lines generalizing talk played with
  | nil =>
    have both : talk.out.Takes (prompt.length + [Line.lineFeed].length) := by
      rw [← List.length_append]
      exact room
    obtain ⟨invited, closing⟩ := Sink.takes_add_iff.mp both
    refine ⟨{ talk with out := ((talk.out.write prompt).2.write [Line.lineFeed]).2 }, ?_, ?_, alike⟩
    · rw [attend_nil_of_ok (invite_of_takes invited)]
      exact close_of_takes closing
    · rw [closing.stored, invited.stored, List.append_assoc]
      rfl
  | cons line lines ih =>
    rw [List.map_cons] at room room' ⊢
    -- The room is spent on the invitation, then on the answer, then on the lines behind.
    rw [transcript_cons, List.length_append] at room
    obtain ⟨invited, room⟩ := Sink.takes_add_iff.mp room
    rw [List.length_append] at room
    obtain ⟨answering, room⟩ := Sink.takes_add_iff.mp room
    rw [List.flatMap_cons, List.length_append] at room'
    obtain ⟨dumping, room'⟩ := Sink.takes_add_iff.mp room'
    let asked : Session := { talk with out := (talk.out.write prompt).2 }
    obtain ⟨answered, answer, out, same⟩ : ∃ after, asked.answer line = (.ok (), after) ∧
        after.out = (asked.dump line.text).2.out ∧
        after.console.Alike (asked.dump line.text).2.console := answer_of_takes answering
    have onward : answered.console.Alike (played.dump line.text).2.console := by
      refine same.trans (Console.Alike.dump alike ?_)
      rw [Sink.Takes.deliver answering, dumping.deliver]
    rw [out_dump] at out
    rw [← out] at room
    rw [← out_dump] at room'
    obtain ⟨after, attended, shown, alike'⟩ := ih onward room room'
    refine ⟨after, ?_, ?_, alike'⟩
    · rw [attend_cons_of_ok (invite_of_takes invited) answer]
      exact attended
    · rw [shown, out, answering.stored, invited.stored, transcript_cons]
      simp

theorem length_flatMap_shown_le (texts : List (List Char)) :
    (texts.flatMap Token.shown).length ≤ (transcript texts).length := by
  induction texts with
  | nil => exact Nat.zero_le _
  | cons text texts ih =>
    rw [transcript_cons, List.flatMap_cons]
    simp only [List.length_append]
    omega

/-- A conversation with a calm input, its output taking what is shown:

* succeeds, and shows for each line in turn an invitation and what a dump of its text shows,
  wherever that text is dumped, then a last invitation and the end of its row;
* leaves the diagnostics and the flag as the dumps of these texts do, one after another;
* is the same whatever stands behind the mark at which the lines ended, and leaves that unread.
-/
theorem converse_calm {session : Session} {input : Input} (calm : input.Calm)
    (room : session.out.Takes (transcript input.texts).length) :
    ∃ after, session.converse input = (.ok (), after, input.readAll.rest) ∧
      after.out.stored.toList = session.out.stored.toList ++ transcript input.texts ∧
      (∀ (other : Session) (text : List Char), other.out.Takes (Token.shown text).length →
        (other.dump text).2.out.stored.toList =
          other.out.stored.toList ++ Token.shown text) ∧
      after.console.sink = (session.dumpAll input.texts).console.sink ∧
      after.console.flagged = (session.dumpAll input.texts).console.flagged ∧
      (input.readAll.rest = [] ∨ ∃ front, input = front ++ Input.mark :: input.readAll.rest ∧
        ∀ rest, session.converse (front ++ Input.mark :: rest) = (.ok (), after, rest)) := by
  obtain ⟨after, attended, shown, alike⟩ := attend_of_takes (.refl session.console) room
    (room.mono (length_flatMap_shown_le _))
  have answers (other : Input) (lines : other.readAll.lines = input.readAll.lines)
      (ending : other.readAll.ending = .ok ()) :
      session.converse other = (.ok (), after, other.readAll.rest) := by
    obtain ⟨left, conversed, kept⟩ := converse_attend session other
    rw [ending, lines, attended] at conversed kept
    rw [conversed, kept rfl]
  refine ⟨after, answers input rfl calm.ending, shown, fun other text => stored_out_dump,
    alike.sink, alike.flagged, ?_⟩
  rcases Input.readAll_local calm.ending with none | ⟨front, parts, same⟩
  · exact .inl none
  · refine .inr ⟨front, parts, ?_⟩
    intro rest
    have behind := same rest
    rw [answers (front ++ Input.mark :: rest) (by rw [behind]) (by rw [behind, calm.ending]),
      behind]

/-- A line is cut by a mark, within what would be one symbol; an interruption, a carriage return and
a second mark follow, and a chunk that is never read. -/
theorem converse_calm_cut :
    let input : Input := [.data [33], .data [], .fault (.system .interruptedCall),
      .data [61, 13, 10], .data [], .data [43]]
    let session : Session := { console := { flagged := true } }
    (input.Calm ∧ session.out.Takes (transcript input.texts).length) ∧
    input.readAll.lines = [[33], [61, 13, 10]] ∧
    ∃ after, session.converse input = (.ok (), after, [.data [43]]) ∧
      after.out.stored.toList = transcript [['!'], ['=']] ∧
      after.console.flagged = false := by
  intro input session
  have read : input.readAll = ⟨[[33], [61, 13, 10]], .ok (), [.data [43]]⟩ := by
    rw [Input.readAll_of_line rfl (by decide), Input.readAll_of_line rfl (by decide),
      Input.readAll_of_nil rfl]
    rfl
  have calm : input.Calm := by
    intro fault member
    simp only [input, List.mem_cons, reduceCtorEq, false_or, or_false, Chunk.fault.injEq,
      List.not_mem_nil] at member
    rw [member]
    rfl
  have room : session.out.Takes (transcript input.texts).length := ⟨rfl, rfl⟩
  obtain ⟨after, conversed, shown, -, -, flagged, -⟩ := converse_calm calm room
  rw [Input.texts, read] at shown flagged
  rw [read] at conversed
  refine ⟨⟨calm, room⟩, by rw [read], after, conversed, shown, ?_⟩
  rw [flagged]
  rfl

end Session

end TokenDump
