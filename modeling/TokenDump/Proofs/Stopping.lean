import TokenDump.Proofs.Flagging
import TokenDump.Proofs.Streaming
import TokenDump.Proofs.Truncating

/-!
# Stopping

How far a conversation gets when a stream fails. A line is read right after the invitation for it,
so it is read exactly if that invitation could be shown. Then it is scanned, and what is wrong with
it is reported, before the output is used again: it makes no difference to that whether its own
tokens can be shown.

Results:
1. `lt_invitations_iff`: an invitation succeeds exactly if everything up to it fits.
2. `reaches_invitations`: what was read, scanned and reported, for a stream that fails in any way.
3. `converse_stops`: where the room of the output ends, its flushes fail or a read fails.
-/

namespace TokenDump.Session

open Console (Act)

variable {session : Session} {input : Input} {lines : List Line}

/-! ## 1. Up to an invitation -/

/-- What a conversation about lines of these texts shows once it has answered so many of them and
invites the user to type in the next one. -/
def opening (texts : List (List Char)) (index : Nat) : List UInt8 :=
  (texts.take index).flatMap (fun text => prompt ++ Token.shown text) ++ prompt

theorem opening_succ (text : List Char) (texts : List (List Char)) (index : Nat) :
    opening (text :: texts) (index + 1) = prompt ++ (Token.shown text ++ opening texts index) := by
  simp [opening]

theorem opening_isPrefix_transcript (texts : List (List Char)) (index : Nat) :
    opening texts index <+: transcript texts := by
  induction texts generalizing index with
  | nil => simp [opening, transcript]
  | cons text texts ih =>
    rw [transcript_cons]
    cases index with
    | zero => exact List.prefix_append _ _
    | succ index =>
      rw [opening_succ]
      exact (List.prefix_append_right_inj _).mpr ((List.prefix_append_right_inj _).mpr (ih index))

theorem dialogue_ok (lines : List Line) :
    dialogue (.ok ()) lines = transcript (lines.map Line.text) := by
  induction lines with
  | nil => rfl
  | cons line lines ih => rw [dialogue, ih, List.map_cons, transcript_cons]

theorem dialogue_error (fault : Fault) (lines : List Line) :
    dialogue (.error fault) lines = opening (lines.map Line.text) lines.length := by
  induction lines with
  | nil => rfl
  | cons line lines ih => rw [dialogue, ih, List.map_cons, List.length_cons, opening_succ]

theorem invitations_of_error {fault : Fault} (failed : session.invite.1 = .error fault)
    (lines : List Line) : session.invitations lines = 0 := by
  generalize invited : session.invite = done at failed
  obtain ⟨result, asked⟩ := done
  cases failed
  cases lines with
  | nil => rw [invitations, invited]
  | cons line lines => rw [invitations, invited]

theorem invitations_pos_of_ok {asked : Session} (invited : session.invite = (.ok (), asked))
    (lines : List Line) : 0 < session.invitations lines := by
  cases lines with
  | nil =>
    rw [invitations, invited]
    exact Nat.zero_lt_one
  | cons line lines =>
    rw [invitations, invited]
    dsimp only
    rcases asked.answer line with ⟨fault | ⟨⟩, answered⟩
    · exact Nat.zero_lt_one
    · exact Nat.succ_pos _

theorem invitations_cons_of_error {asked : Session} {line : Line} {fault : Fault}
    (invited : session.invite = (.ok (), asked)) (failed : (asked.answer line).1 = .error fault)
    (lines : List Line) : session.invitations (line :: lines) = 1 := by
  rw [invitations, invited]
  dsimp only
  generalize asked.answer line = done at failed ⊢
  obtain ⟨result, answered⟩ := done
  cases failed
  rfl

theorem invitations_cons_of_ok {asked answered : Session} {line : Line}
    (invited : session.invite = (.ok (), asked)) (answer : asked.answer line = (.ok (), answered))
    (lines : List Line) :
    session.invitations (line :: lines) = answered.invitations lines + 1 := by
  rw [invitations, invited]
  dsimp only
  rw [answer]

theorem invitations_pos_iff (flush : session.out.behaviour.flushFault = none)
    (lines : List Line) :
    0 < session.invitations lines ↔ session.out.behaviour.fits prompt.length = true := by
  have inviting := shows_invite flush
  cases fits : session.out.behaviour.fits prompt.length with
  | false =>
    rw [invitations_of_error (inviting.result_of_overflow fits)]
    exact iff_of_false (Nat.lt_irrefl 0) Bool.false_ne_true
  | true => exact iff_of_true (invitations_pos_of_ok (inviting.eq_of_fits fits) lines) rfl

/-- The invitation behind so many lines succeeds exactly if all that is shown up to it fits. -/
theorem lt_invitations_iff (flush : session.out.behaviour.flushFault = none) {index : Nat}
    (bound : index ≤ lines.length) :
    index < session.invitations lines ↔
      session.out.behaviour.fits (opening (lines.map Line.text) index).length = true := by
  induction lines generalizing session index with
  | nil =>
    obtain rfl : index = 0 := Nat.le_zero.mp bound
    exact invitations_pos_iff flush []
  | cons line lines ih =>
    cases index with
    | zero => exact invitations_pos_iff flush (line :: lines)
    | succ index =>
      -- The room is spent on the invitation, then on the answer, then on the lines behind.
      have inviting := shows_invite flush
      rw [List.map_cons, opening_succ, List.length_append, Sink.Behaviour.fits_add,
        List.length_append]
      cases fits : session.out.behaviour.fits prompt.length with
      | false =>
        rw [invitations_of_error (inviting.result_of_overflow fits)]
        exact iff_of_false (Nat.not_lt_zero _) fun both => Bool.false_ne_true both.1
      | true =>
        have invited := inviting.eq_of_fits fits
        have flush' : session.invite.2.out.behaviour.flushFault = none := by
          rw [inviting.out]
          exact flush
        have answering := shows_answer flush' line
        rw [Sink.Behaviour.fits_add, ← Sink.behaviour_write, ← inviting.out, and_iff_right rfl]
        cases fits' : session.invite.2.out.behaviour.fits (Token.shown line.text).length with
        | false =>
          rw [invitations_cons_of_error invited (answering.result_of_overflow fits')]
          exact iff_of_false (Nat.not_lt.mpr (Nat.le_add_left 1 index))
            fun both => Bool.false_ne_true both.1
        | true =>
          have answer := answering.eq_of_fits fits'
          have flush'' : (session.invite.2.answer line).2.out.behaviour.flushFault = none := by
            rw [answering.out]
            exact flush'
          rw [invitations_cons_of_ok invited answer, Nat.succ_lt_succ_iff,
            ih flush'' (Nat.le_of_succ_le_succ bound), answering.out, Sink.behaviour_write,
            and_iff_right rfl]

theorem invitations_le (session : Session) (lines : List Line) :
    session.invitations lines ≤ lines.length + 1 := by
  induction lines generalizing session with
  | nil =>
    rw [invitations]
    rcases session.invite with ⟨fault | ⟨⟩, asked⟩
    · exact Nat.zero_le _
    · exact Nat.le_refl _
  | cons line lines ih =>
    rw [invitations]
    rcases session.invite with ⟨fault | ⟨⟩, asked⟩
    · exact Nat.zero_le _
    · dsimp only
      rcases asked.answer line with ⟨fault | ⟨⟩, answered⟩
      · exact Nat.le_add_left _ _
      · exact Nat.succ_le_succ (ih answered)

/-! ## 2. What was read, scanned and reported -/

/-- A line is dumped exactly if the invitation for it succeeds. -/
theorem sources_attempts (session : Session) (lines : List Line) :
    (session.attempts lines).map Attempt.source =
      (lines.map Line.text).take (session.invitations lines) := by
  induction lines generalizing session with
  | nil => exact List.take_nil.symm
  | cons line lines ih =>
    rw [attempts, invitations]
    rcases session.invite with ⟨fault | ⟨⟩, asked⟩
    · rfl
    · dsimp only
      rcases asked.answer line with ⟨fault | ⟨⟩, answered⟩
      · rfl
      · exact congrArg (line.text :: ·) (ih answered)

/-- A conversation tries to read a line so many times. It scans the texts of the lines that it reads
in turn and reports what is wrong with each; beside that it takes the flag after those whose tokens
were shown, and does nothing else to the console. -/
structure Reaches (session : Session) (input : Input) (count : Nat) : Prop where
  /-- The last time may be the one that finds no more lines. -/
  bound : count ≤ input.texts.length + 1
  left : (session.converse input).2.2 = input.leftAfter count
  scanned : ∃ attempts : List Attempt, attempts.map Attempt.source = input.texts.take count ∧
    session.console.Performs (attempts.flatMap Act.ofLine) (session.converse input).2.1.console
  told : (session.converse input).2.1.console.sink = (session.console.sink.write
    (((input.texts.take count).flatMap Diagnostic.ofSource).flatMap Diagnostic.row)).2

theorem reaches_invitations (session : Session) (input : Input) :
    session.Reaches input (session.invitations input.readAll.lines) := by
  have sources := sources_attempts session input.readAll.lines
  refine ⟨?_, unread_converse session input, ⟨_, sources, performs_converse session input⟩, ?_⟩
  · rw [Input.texts, List.length_map]
    exact invitations_le session _
  · rw [sink_converse, filterMap_diagnostic?_trace, reports, Input.texts, ← sources,
      List.flatMap_map]

/-! ## 3. Where a stream fails -/

theorem shows_converse (flush : session.out.behaviour.flushFault = none) (input : Input) :
    Shows session (dialogue input.readAll.ending input.readAll.lines) input.readAll.ending
      ((session.converse input).1, (session.converse input).2.1) := by
  obtain ⟨left, conversed, -⟩ := converse_attend session input
  rw [conversed]
  exact shows_attend flush input.readAll.ending input.readAll.lines

/-- A conversation whose output has room for so many bytes. -/
theorem converse_of_limit {limit : Nat} (room : session.out.behaviour.room = some limit)
    (flush : session.out.behaviour.flushFault = none) (calm : input.Calm) :
    (session.converse input).2.1.out.stored.toList =
        session.out.stored.toList ++ (transcript input.texts).take limit ∧
      (session.converse input).1 =
        (if (transcript input.texts).length ≤ limit then .ok ()
          else .error session.out.behaviour.writeFault) ∧
      ∀ index ≤ input.texts.length, index < session.invitations input.readAll.lines ↔
        (opening input.texts index).length ≤ limit := by
  have fits (count : Nat) : session.out.behaviour.fits count = decide (count ≤ limit) := by
    rw [Sink.Behaviour.fits, room]
  have shows := shows_converse flush input
  rw [calm.ending, dialogue_ok] at shows
  refine ⟨?_, ?_, ?_⟩
  · rw [shows.out, Sink.stored_write, Sink.Behaviour.accepted, room]
    rfl
  · rw [shows.result, fits]
    simp only [decide_eq_true_eq]
    rfl
  · intro index bound
    rw [Input.texts, List.length_map] at bound
    rw [lt_invitations_iff flush bound, fits, decide_eq_true_eq]
    rfl

theorem invite_of_flushFault {fault : Fault}
    (flush : session.out.behaviour.flushFault = some fault) :
    session.invite =
      (.error (if session.out.behaviour.fits prompt.length then fault
          else session.out.behaviour.writeFault),
        { session with out := (session.out.write prompt).2 }) := by
  rw [invite, ← prompt, present_eq, Sink.deliver_of_flushFault flush]

/-- A conversation whose output cannot be flushed. -/
theorem converse_of_flushFault {fault : Fault}
    (flush : session.out.behaviour.flushFault = some fault) (input : Input) :
    session.converse input =
      (.error (if session.out.behaviour.fits prompt.length then fault
          else session.out.behaviour.writeFault),
        { session with out := (session.out.write prompt).2 }, input) := by
  rw [converse_eq, invite_of_flushFault flush]

/-- A conversation whose input fails, the output taking everything up to then. -/
theorem converse_of_ending {fault : Fault} (failed : input.readAll.ending = .error fault)
    (room : session.out.Takes (opening input.texts input.texts.length).length) :
    (session.converse input).1 = .error fault ∧
      (session.converse input).2.1.out.stored.toList =
        session.out.stored.toList ++ opening input.texts input.texts.length ∧
      (session.converse input).2.1.console.flagged =
        (session.console.flagged && input.texts.isEmpty) ∧
      session.invitations input.readAll.lines = input.texts.length + 1 := by
  rw [Input.texts, List.length_map] at room ⊢
  have shows := shows_converse room.flush input
  rw [failed, dialogue_error] at shows
  refine ⟨shows.result_of_takes room, ?_, ?_, ?_⟩
  · rw [shows.out, room.stored]
  · obtain ⟨left, conversed, -⟩ := converse_attend session input
    rw [conversed, failed]
    dsimp only
    rw [flagged_attend_of_takes (by rw [dialogue_error]; exact room), List.isEmpty_map]
  · have last := (lt_invitations_iff room.flush (Nat.le_refl input.readAll.lines.length)).mpr
      room.fits
    exact Nat.le_antisymm (invitations_le session _) last

/-- How far a conversation gets:

* If the output has room for so many bytes and is flushed without a fault, and the input is calm,
  the output stores the beginning of what it would store without an end, and the conversation
  succeeds exactly if all of that fits. A line is read, scanned and reported exactly if what is
  shown up to the invitation for it fits, whether or not its own tokens fit then.
* If every flush of the output fails, no line is read, scanned or reported. All that is stored is as
  much as fits of the first invitation, and the failure is that of the write if this is not all of
  it, and else that of the flush.
* If a read fails with an output that takes everything up to then, the lines before were shown,
  scanned and reported; the bytes that were handed out behind them are lost. The output ends with
  the invitation for the line that they belong to, and the failure is that of the read. The flag was
  taken after each line, so it is up only if there was none and it was up before. -/
theorem converse_stops (session : Session) (input : Input) :
    (∀ limit, session.out.behaviour.room = some limit →
      session.out.behaviour.flushFault = none → input.Calm →
      let shown := session.unlimited.stores [.converse input]
      shown = transcript input.texts ∧
      (session.converse input).2.1.out.stored.toList =
        session.out.stored.toList ++ shown.take limit ∧
      (session.converse input).1 =
        (if shown.length ≤ limit then .ok () else .error session.out.behaviour.writeFault) ∧
      ∃ count, session.Reaches input count ∧ ∀ index ≤ input.texts.length,
        opening input.texts index <+: shown ∧
        (index < count ↔ (opening input.texts index).length ≤ limit)) ∧
    (∀ fault, session.out.behaviour.flushFault = some fault →
      session.Reaches input 0 ∧
      (session.converse input).2.1.console = session.console ∧
      (session.converse input).2.2 = input ∧
      (session.out.behaviour.room = none →
        (session.converse input).2.1.out.stored.toList = session.out.stored.toList ++ prompt ∧
        (session.converse input).1 = .error fault) ∧
      ∀ limit, session.out.behaviour.room = some limit →
        (session.converse input).2.1.out.stored.toList =
          session.out.stored.toList ++ prompt.take limit ∧
        (session.converse input).1 =
          .error (if limit < 2 then session.out.behaviour.writeFault else fault)) ∧
    (∀ fault, input.readAll.ending = .error fault →
      session.out.Takes (opening input.texts input.texts.length).length →
      session.Reaches input (input.texts.length + 1) ∧
      (session.converse input).1 = .error fault ∧
      (session.converse input).2.1.out.stored.toList =
        session.out.stored.toList ++ opening input.texts input.texts.length ∧
      (session.converse input).2.1.console.flagged =
        (session.console.flagged && input.texts.isEmpty) ∧
      ∃ broken : List UInt8, Line.lineFeed ∉ broken ∧
        input.signals = input.readAll.lines.flatMap Line.signals ++
          (broken.map .byte ++ .fault fault :: (session.converse input).2.2.signals)) := by
  have reached := reaches_invitations session input
  refine ⟨?_, ?_, ?_⟩
  · intro limit room flush calm shown
    have whole : shown = transcript input.texts := by
      have constant : ∀ step ∈ [Step.converse input], step.isConfigureOut = false :=
        List.forall_mem_singleton.mpr rfl
      show session.unlimited.stores [.converse input] = _
      rw [stores_unlimited flush constant, display, Step.display, display, List.append_nil,
        calm.ending, dialogue_ok]
      rfl
    obtain ⟨stored, result, fits⟩ := converse_of_limit room flush calm
    rw [whole]
    refine ⟨rfl, stored, result, _, reached, ?_⟩
    intro index bound
    exact ⟨opening_isPrefix_transcript _ _, fits index bound⟩
  · intro fault flush
    rw [invitations_of_error (by rw [invite_of_flushFault flush])] at reached
    have conversed := converse_of_flushFault flush input
    refine ⟨reached, by rw [conversed], by rw [conversed], ?_, ?_⟩
    · intro room
      rw [conversed, Sink.stored_write]
      simp [Sink.Behaviour.accepted, Sink.Behaviour.fits, room]
    · intro limit room
      have size : prompt.length = 2 := by decide
      rw [conversed, Sink.stored_write]
      simp only [Sink.Behaviour.accepted, Sink.Behaviour.fits, room, size, true_and]
      rcases Nat.lt_or_ge limit 2 with short | enough
      · rw [if_pos short, if_neg (by simpa using short)]
      · rw [if_neg (Nat.not_lt.mpr enough), if_pos (decide_eq_true enough)]
  · intro fault failed room
    obtain ⟨result, stored, flagged, count⟩ := converse_of_ending failed room
    rw [count] at reached
    obtain ⟨broken, uncut, signals⟩ := Input.signals_of_error failed
    refine ⟨reached, result, stored, flagged, broken, uncut, ?_⟩
    rw [signals, reached.left, Input.texts, List.length_map, Input.leftAfter_readAll]

/-- The room ends within the tokens of a first line, whose stray character is reported all the same;
an output cannot be flushed and has room for half an invitation; a read fails within a second
line. -/
theorem converse_stops_midway :
    let reset : Fault := .plain .connectionReset
    let narrow : Session := { out := { behaviour := { room := some 5 } } }
    let stuck : Session := { out := { behaviour := { room := some 1, flushFault := some reset } } }
    let wide : Session := {}
    let calm : Input := [.data [36, 10, 37, 10]]
    let broken : Input := [.data [36, 10, 37], .fault reset, .data [43, 10]]
    (calm.Calm ∧ broken.readAll.ending = .error reset ∧
      wide.out.Takes (opening broken.texts broken.texts.length).length) ∧
    calm.texts = [['$'], ['%']] ∧
    narrow.Reaches calm 1 ∧
    (narrow.converse calm).1 = .error .shortWrite ∧
    (narrow.converse calm).2.1.console.sink.stored.toList = Diagnostic.strayCharacter.row ∧
    stuck.Reaches calm 0 ∧
    (stuck.converse calm).1 = .error .shortWrite ∧
    wide.Reaches broken 2 ∧
    (wide.converse broken).1 = .error reset ∧
    (wide.converse broken).2.1.out.stored.toList = prompt ++ Token.shown ['$'] ++ prompt := by
  intro reset narrow stuck wide calm broken
  have read : calm.readAll = ⟨[[36, 10], [37, 10]], .ok (), []⟩ := by
    rw [Input.readAll_of_line rfl (by decide), Input.readAll_of_line rfl (by decide),
      Input.readAll_of_nil rfl]
    rfl
  have read' : broken.readAll = ⟨[[36, 10]], .error reset, [.data [43, 10]]⟩ := by
    rw [Input.readAll_of_line rfl (by decide), Input.readAll_of_error rfl]
    rfl
  have texts : calm.texts = [['$'], ['%']] := by
    rw [Input.texts, read]
    rfl
  have texts' : broken.texts = [['$']] := by
    rw [Input.texts, read']
    rfl
  have isCalm : calm.Calm := by
    intro fault member
    simp [calm] at member
  have room : wide.out.Takes (opening broken.texts broken.texts.length).length := ⟨rfl, rfl⟩
  have failed : broken.readAll.ending = .error reset := by rw [read']
  obtain ⟨shown, -, result, count, reached, fits⟩ :=
    (converse_stops narrow calm).1 5 rfl rfl isCalm
  rw [shown] at result
  rw [texts] at result fits
  -- The invitation for the first line fits, and the one for the second does not.
  have first : 0 < count := (fits 0 (by decide)).2.mpr (by decide)
  have second : ¬ 1 < count := mt (fits 1 (by decide)).2.mp (by decide +kernel)
  obtain rfl : count = 1 := Nat.le_antisymm (Nat.not_lt.mp second) first
  obtain ⟨stuckReached, -, -, -, stuckResult⟩ := (converse_stops stuck calm).2.1 reset rfl
  obtain ⟨wideReached, wideResult, stored, -⟩ := (converse_stops wide broken).2.2 reset failed room
  rw [texts'] at wideReached stored
  refine ⟨⟨isCalm, failed, room⟩, texts, reached, ?_, ?_, stuckReached, ?_, wideReached,
    wideResult, stored⟩
  · rw [result]
    exact if_neg (by decide +kernel)
  · have reported : ([['$'], ['%']].take 1).flatMap Diagnostic.ofSource = [.strayCharacter] := rfl
    rw [reached.told, texts, reported, List.flatMap_singleton, Sink.stored_write]
    rfl
  · exact (stuckResult 1 rfl).2

end TokenDump.Session
