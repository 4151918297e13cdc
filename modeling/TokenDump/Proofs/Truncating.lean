import TokenDump.Proofs.Tracing

/-!
# Truncating

What a session shows on an output whose flushes succeed, but whose room may end. Each action shows
some bytes that do not depend on the output, and fails exactly if they do not fit (`Shows`). Actions
one after another show their bytes one after another: where the first of them does not fit, the rest
is not shown, and on a full output it would not have been stored either. So all that a session
stores is the beginning of what it would store on an output without end, and it does there what it
does here as long as everything fits.

Results:
1. `Shows.followed`, `shows_attend`: what a conversation shows.
2. `out_play`: what some steps show.
3. `play_truncated`: an output with an end, beside one without.
-/

namespace TokenDump.Session

/-! ## 1. What an action shows -/

/-- An action writes these bytes to the output. Where they fit this comes of it, and else it fails
as the write does. -/
structure Shows {α : Type} (session : Session) (bytes : List UInt8) (outcome : Except Fault α)
    (action : Except Fault α × Session) : Prop where
  out : action.2.out = (session.out.write bytes).2
  result : action.1 =
    if session.out.behaviour.fits bytes.length then outcome
    else .error session.out.behaviour.writeFault

variable {α β : Type} {session : Session}

theorem Shows.result_of_takes {bytes : List UInt8} {outcome : Except Fault α}
    {action : Except Fault α × Session} (h : Shows session bytes outcome action)
    (room : session.out.Takes bytes.length) : action.1 = outcome :=
  h.result.trans (if_pos room.fits)

theorem Shows.result_of_overflow {bytes : List UInt8} {outcome : Except Fault α}
    {action : Except Fault α × Session} (h : Shows session bytes outcome action)
    (excess : session.out.behaviour.fits bytes.length = false) :
    action.1 = .error session.out.behaviour.writeFault :=
  h.result.trans (if_neg (Bool.not_eq_true _ ▸ excess))

theorem Shows.eq_of_fits {bytes : List UInt8} {outcome : Except Fault α}
    {action : Except Fault α × Session} (h : Shows session bytes outcome action)
    (fits : session.out.behaviour.fits bytes.length = true) : action = (outcome, action.2) :=
  Prod.ext (h.result.trans (if_pos fits)) rfl

/-- An action, and if it succeeds another one with what came of it. -/
def andThen (next : α → Session → Except Fault β × Session) :
    Except Fault α × Session → Except Fault β × Session
  | (.error fault, after) => (.error fault, after)
  | (.ok value, after) => next value after

/-- An action that is followed by another one shows what both of them show. -/
theorem Shows.followed {left right : List UInt8} {value : α} {outcome : Except Fault β}
    {action : Except Fault α × Session} {next : α → Session → Except Fault β × Session}
    (h : Shows session left (.ok value) action)
    (h' : ∀ after, after.out = (session.out.write left).2 →
      Shows after right outcome (next value after)) :
    Shows session (left ++ right) outcome (andThen next action) := by
  obtain ⟨out, result⟩ := h
  obtain ⟨done, after⟩ := action
  have out : after.out = (session.out.write left).2 := out
  cases fits : session.out.behaviour.fits left.length with
  | false =>
    rw [fits] at result
    cases result
    -- The second action is not begun, and none of its bytes would have been stored.
    refine ⟨out.trans (Sink.write_append_of_not_fits right fits).symm, (if_neg ?_).symm⟩
    rw [List.length_append, Sink.Behaviour.fits_add, fits]
    exact fun both => Bool.noConfusion both.1
  | true =>
    rw [fits] at result
    cases result
    have second := h' after out
    have both : session.out.behaviour.fits (left ++ right).length =
        after.out.behaviour.fits right.length := by
      rw [out, List.length_append, Bool.eq_iff_iff, Sink.Behaviour.fits_add, fits]
      exact and_iff_right rfl
    refine ⟨second.out.trans ?_, second.result.trans ?_⟩
    · rw [out, Sink.write_append]
    · rw [both, out]
      rfl

/-- What has no part in the output shows nothing. -/
theorem shows_nothing {after : Session} {outcome : Except Fault α}
    (same : after.out = session.out) :
    Shows session [] outcome (outcome, after) := by
  have fits : session.out.behaviour.fits 0 = true := by
    unfold Sink.Behaviour.fits
    split <;> simp
  refine ⟨same.trans (Sink.write_nil session.out).symm, ?_⟩
  rw [List.length_nil, if_pos fits]

theorem shows_present (flush : session.out.behaviour.flushFault = none) (bytes : List UInt8) :
    Shows session bytes (.ok ()) (session.present bytes) := by
  rw [present_eq, Sink.deliver_eq_write flush]
  exact ⟨rfl, Sink.write_fst session.out bytes⟩

theorem shows_invite (flush : session.out.behaviour.flushFault = none) :
    Shows session prompt (.ok ()) session.invite :=
  shows_present flush prompt

theorem shows_close : Shows session [Line.lineFeed] (.ok ()) session.close :=
  ⟨rfl, Sink.write_fst session.out [Line.lineFeed]⟩

theorem shows_dump (flush : session.out.behaviour.flushFault = none) (source : List Char) :
    Shows session (Token.shown source)
      (.ok (session.console.flagged || !(Segment.strays source).isEmpty))
      (session.dump source) := by
  refine ⟨out_dump session source, ?_⟩
  rw [dump_fst, Sink.deliver_eq_write flush, Sink.write_fst]
  split <;> rfl

/-- What is done about a line once it is dumped. -/
def remark (flag : Bool) (session : Session) : Except Fault Unit × Session :=
  (.ok (), if flag then session.note .lineFlagged else session)

theorem answer_eq_andThen (line : Line) :
    session.answer line = andThen remark (session.dump line.text) := by
  rw [answer_eq]
  rcases session.dump line.text with ⟨fault | ⟨_ | _⟩, after⟩ <;> rfl

theorem shows_answer (flush : session.out.behaviour.flushFault = none) (line : Line) :
    Shows session (Token.shown line.text) (.ok ()) (session.answer line) := by
  rw [answer_eq_andThen, ← List.append_nil (Token.shown line.text)]
  refine (shows_dump flush line.text).followed ?_
  intro after _
  refine shows_nothing ?_
  split <;> rfl

/-- What a conversation about some lines shows, if it comes to this end behind them. -/
def dialogue (ending : Except Fault Unit) : List Line → List UInt8
  | [] =>
    prompt ++
      match ending with
      | .error _ => []
      | .ok () => [Line.lineFeed]
  | line :: lines => prompt ++ (Token.shown line.text ++ dialogue ending lines)

/-- What follows the last invitation of a conversation that comes to this end. -/
def conclude (ending : Except Fault Unit) (session : Session) : Except Fault Unit × Session :=
  match ending with
  | .error fault => (.error fault, session)
  | .ok () => session.close

theorem attend_nil_eq (ending : Except Fault Unit) :
    session.attend ending [] = andThen (fun _ => conclude ending) session.invite := by
  rw [attend]
  rcases session.invite with ⟨fault | ⟨⟩, asked⟩ <;> rfl

theorem attend_cons_eq (ending : Except Fault Unit) (line : Line) (lines : List Line) :
    session.attend ending (line :: lines) =
      andThen (fun _ asked => andThen (fun _ answered => answered.attend ending lines)
        (asked.answer line)) session.invite := by
  rw [attend]
  rcases session.invite with ⟨fault | ⟨⟩, asked⟩
  · rfl
  · dsimp only [andThen]
    rcases asked.answer line with ⟨fault | ⟨⟩, answered⟩ <;> rfl

theorem shows_attend (flush : session.out.behaviour.flushFault = none)
    (ending : Except Fault Unit) (lines : List Line) :
    Shows session (dialogue ending lines) ending (session.attend ending lines) := by
  induction lines generalizing session with
  | nil =>
    rw [attend_nil_eq]
    refine (shows_invite flush).followed ?_
    intro asked _
    cases ending with
    | error fault => exact shows_nothing rfl
    | ok => exact shows_close
  | cons line lines ih =>
    rw [attend_cons_eq]
    refine (shows_invite flush).followed ?_
    intro asked out
    have flush' : asked.out.behaviour.flushFault = none := by
      rw [out]
      exact flush
    refine (shows_answer flush' line).followed ?_
    intro answered out'
    apply ih
    rw [out']
    exact flush'

/-! ## 2. What some steps show -/

/-- Whether a step changes the output. -/
def Step.isConfigureOut : Step → Bool
  | .configureOut _ => true
  | _ => false

/-- What a step shows, given the files. -/
def Step.display (files : FileTree) : Step → List UInt8
  | .dump source => Token.shown source
  | .dumpFile path =>
    match files.read path with
    | .error _ => []
    | .ok data => Token.shown (Utf8.lenient data)
  | .converse input => dialogue input.readAll.ending input.readAll.lines
  | .report _ | .takeFlag | .scan _ | .configureOut _ | .configureErr _ | .addFiles _ => []

/-- The files after a step. -/
def Step.files (files : FileTree) : Step → FileTree
  | .addFiles nodes => files.putAll nodes
  | .report _ | .takeFlag | .scan _ | .dump _ | .dumpFile _ | .converse _ | .configureOut _
  | .configureErr _ => files

/-- What some steps show, one after another. -/
def display (files : FileTree) : List Step → List UInt8
  | [] => []
  | step :: steps => step.display files ++ display (step.files files) steps

theorem files_andThen {files : FileTree} {action : Except Fault α × Session}
    {next : α → Session → Except Fault β × Session} (first : action.2.files = files)
    (second : ∀ value after, after.files = files → (next value after).2.files = files) :
    (andThen next action).2.files = files := by
  obtain ⟨fault | value, after⟩ := action
  · exact first
  · exact second value after first

theorem files_answer (session : Session) (line : Line) :
    (session.answer line).2.files = session.files := by
  rw [answer_eq_andThen]
  refine files_andThen (files_dump session line.text) ?_
  rintro ⟨⟩ after same
  · exact same
  · exact same

theorem files_attend (session : Session) (ending : Except Fault Unit) (lines : List Line) :
    (session.attend ending lines).2.files = session.files := by
  induction lines generalizing session with
  | nil =>
    rw [attend_nil_eq]
    refine files_andThen rfl ?_
    intro _ asked same
    cases ending with
    | error fault => exact same
    | ok => exact same
  | cons line lines ih =>
    rw [attend_cons_eq]
    refine files_andThen rfl ?_
    intro _ asked same
    refine files_andThen ((files_answer asked line).trans same) ?_
    intro _ answered same
    exact (ih answered).trans same

theorem files_dumpFile (session : Session) (path : Path) :
    (session.dumpFile path).2.files = session.files := by
  cases read : session.files.read path with
  | error fault =>
    rw [dumpFile, read]
    rfl
  | ok data =>
    rw [dumpFile_eq read]
    exact files_dump _ _

theorem step_converse_attend (session : Session) (input : Input) :
    session.step (.converse input) =
      (.ofEnding (session.attend input.readAll.ending input.readAll.lines).1,
        (session.attend input.readAll.ending input.readAll.lines).2) := by
  obtain ⟨left, conversed, -⟩ := converse_attend session input
  rw [step_converse, conversed]

theorem files_step (session : Session) (step : Step) :
    (session.step step).2.files = step.files session.files := by
  cases step with
  | dump source => exact files_dump session source
  | dumpFile path => exact files_dumpFile session path
  | converse input =>
    rw [step_converse_attend]
    exact files_attend session _ _
  | report | takeFlag | scan | configureOut | configureErr | addFiles => rfl

theorem out_step (flush : session.out.behaviour.flushFault = none) {step : Step}
    (constant : step.isConfigureOut = false) :
    (session.step step).2.out = (session.out.write (step.display session.files)).2 := by
  cases step with
  | dump source => exact out_dump session source
  | dumpFile path =>
    show (session.dumpFile path).2.out = _
    rw [Step.display]
    cases read : session.files.read path with
    | error fault =>
      rw [dumpFile, read]
      exact (Sink.write_nil session.out).symm
    | ok data =>
      rw [dumpFile_eq read]
      exact out_dump _ _
  | converse input =>
    rw [step_converse_attend]
    exact (shows_attend flush _ _).out
  | configureOut behaviour => cases constant
  | report | takeFlag | scan | configureErr | addFiles => exact (Sink.write_nil session.out).symm

/-- Some steps leave the output as writing all that they show at once does. -/
theorem out_play (flush : session.out.behaviour.flushFault = none) {steps : List Step}
    (constant : ∀ step ∈ steps, step.isConfigureOut = false) :
    (session.play steps).2.out = (session.out.write (display session.files steps)).2 := by
  induction steps generalizing session with
  | nil => exact (Sink.write_nil session.out).symm
  | cons step steps ih =>
    obtain ⟨first, others⟩ := List.forall_mem_cons.mp constant
    have out := out_step flush first
    rw [play_cons, ih (by rw [out]; exact flush) others, out, files_step, Sink.write_append]
    rfl

theorem files_play (session : Session) (steps : List Step) :
    (session.play steps).2.files = steps.foldl Step.files session.files := by
  induction steps generalizing session with
  | nil => rfl
  | cons step steps ih =>
    rw [play_cons, ih, files_step]
    rfl

theorem display_append (files : FileTree) (before later : List Step) :
    display files (before ++ later) =
      display files before ++ display (before.foldl Step.files files) later := by
  induction before generalizing files with
  | nil => rfl
  | cons step before ih =>
    rw [List.cons_append, display, ih, display, List.append_assoc]
    rfl

/-! ## 3. Where everything fits -/

theorem flagged_dump_of_takes {source : List Char}
    (room : session.out.Takes (Token.shown source).length) :
    (session.dump source).2.console.flagged = false := by
  rw [flagged_dump, room.deliver]

/-- A conversation that shows everything takes the flag after each line. -/
theorem flagged_attend_of_takes {ending : Except Fault Unit} {lines : List Line}
    (room : session.out.Takes (dialogue ending lines).length) :
    (session.attend ending lines).2.console.flagged =
      (session.console.flagged && lines.isEmpty) := by
  induction lines generalizing session with
  | nil =>
    have kept : (session.attend ending []).2.console = session.console := by
      rw [attend_nil_eq, ← console_invite session]
      rcases session.invite with ⟨fault | ⟨⟩, asked⟩
      · rfl
      · cases ending <;> rfl
    rw [kept]
    exact (Bool.and_true _).symm
  | cons line lines ih =>
    rw [dialogue, List.length_append] at room
    obtain ⟨inviting, room⟩ := Sink.takes_add_iff.mp room
    rw [List.length_append] at room
    obtain ⟨answering, room⟩ := Sink.takes_add_iff.mp room
    let asked : Session := { session with out := (session.out.write prompt).2 }
    obtain ⟨answered, answer, out, alike⟩ : ∃ after, asked.answer line = (.ok (), after) ∧
        after.out = (asked.dump line.text).2.out ∧
        after.console.Alike (asked.dump line.text).2.console := answer_of_takes answering
    -- The first line takes the flag that was there before, so it matters no more.
    have lowered : answered.console.flagged = false :=
      alike.flagged.trans (flagged_dump_of_takes answering)
    rw [out_dump] at out
    rw [← out] at room
    rw [attend_cons_of_ok (invite_of_takes inviting) answer, ih room, lowered]
    exact (Bool.and_false _).symm

variable {left right : Session}

/-- Outputs that both take what a step shows make no difference. -/
theorem step_of_takes {step : Step} (flagged : left.console.flagged = right.console.flagged)
    (files : left.files = right.files)
    (room : left.out.Takes (step.display left.files).length)
    (room' : right.out.Takes (step.display left.files).length) :
    (left.step step).1 = (right.step step).1 ∧
      (left.step step).2.console.flagged = (right.step step).2.console.flagged := by
  cases step with
  | report diagnostic =>
    exact ⟨rfl, (Console.flagged_report _ _).trans (Console.flagged_report _ _).symm⟩
  | takeFlag => exact ⟨congrArg Yield.flag flagged, rfl⟩
  | scan source =>
    refine ⟨rfl, ?_⟩
    show (left.console.scan source).2.flagged = (right.console.scan source).2.flagged
    rw [Console.flagged_scan, Console.flagged_scan, flagged]
  | dump source =>
    refine ⟨?_, (flagged_dump_of_takes room).trans (flagged_dump_of_takes room').symm⟩
    show Yield.ofFlag ((left.dump source).1.mapError _) =
      Yield.ofFlag ((right.dump source).1.mapError _)
    rw [dump_fst_of_takes room, dump_fst_of_takes room', flagged]
  | dumpFile path =>
    show Yield.ofFlag (left.dumpFile path).1 = Yield.ofFlag (right.dumpFile path).1 ∧
      (left.dumpFile path).2.console.flagged = (right.dumpFile path).2.console.flagged
    rw [Step.display] at room room'
    cases read : left.files.read path with
    | error fault =>
      rw [dumpFile, dumpFile, ← files, read]
      exact ⟨rfl, flagged⟩
    | ok data =>
      rw [read] at room room'
      have noted : (left.note (scriptNote path data)).out.Takes
        (Token.shown (Utf8.lenient data)).length := room
      have noted' : (right.note (scriptNote path data)).out.Takes
        (Token.shown (Utf8.lenient data)).length := room'
      rw [dumpFile_eq read, dumpFile_eq (files ▸ read), dump_fst_of_takes noted,
        dump_fst_of_takes noted', flagged_dump_of_takes noted, flagged_dump_of_takes noted']
      refine ⟨?_, rfl⟩
      rw [console_note, console_note, Console.flagged_note, Console.flagged_note, flagged]
  | converse input =>
    rw [step_converse_attend, step_converse_attend, flagged_attend_of_takes room,
      flagged_attend_of_takes room', (shows_attend room.flush _ _).result_of_takes room,
      (shows_attend room'.flush _ _).result_of_takes room', flagged]
    exact ⟨rfl, rfl⟩
  | configureOut | configureErr | addFiles => exact ⟨rfl, flagged⟩

theorem flagged_play_of_takes {steps : List Step}
    (constant : ∀ step ∈ steps, step.isConfigureOut = false)
    (flagged : left.console.flagged = right.console.flagged)
    (files : left.files = right.files)
    (room : left.out.Takes (display left.files steps).length)
    (room' : right.out.Takes (display left.files steps).length) :
    (left.play steps).2.console.flagged = (right.play steps).2.console.flagged := by
  induction steps generalizing left right with
  | nil => exact flagged
  | cons step steps ih =>
    obtain ⟨first, others⟩ := List.forall_mem_cons.mp constant
    rw [display, List.length_append] at room room'
    obtain ⟨now, later⟩ := Sink.takes_add_iff.mp room
    obtain ⟨now', later'⟩ := Sink.takes_add_iff.mp room'
    have out := out_step room.flush first
    have out' := out_step room'.flush first
    rw [← files] at out'
    rw [play_cons, play_cons]
    refine ih others (step_of_takes flagged files now now').2 ?_ ?_ ?_
    · rw [files_step, files_step, files]
    · rw [files_step, out]
      exact later
    · rw [files_step, out']
      exact later'

/-! ## 4. Where the room ends -/

theorem shown_ne_nil (source : List Char) : Token.shown source ≠ [] := by
  rw [Token.shown, Token.ofText_eq, Token.listing_append, Token.listing_cons, Token.row,
    Utf8.encode_append]
  intro none
  simp only [List.append_eq_nil_iff] at none
  exact absurd none.2.1.2 (by decide)

theorem dialogue_ne_nil (ending : Except Fault Unit) (lines : List Line) :
    dialogue ending lines ≠ [] := by
  have asks : prompt ≠ [] := by decide
  cases lines with
  | nil => exact List.append_ne_nil_of_left_ne_nil asks _
  | cons line lines => exact List.append_ne_nil_of_left_ne_nil asks _

/-- Whether a step shows the tokens of something: a source, a script or the lines of an input. -/
def Step.shows : Step → Bool
  | .dump _ | .dumpFile _ | .converse _ => true
  | .report _ | .takeFlag | .scan _ | .configureOut _ | .configureErr _ | .addFiles _ => false

/-- The step is not a script that cannot be read. -/
def Step.Readable (files : FileTree) (step : Step) : Prop :=
  ∀ path, step = .dumpFile path → ∃ data, files.read path = .ok data

theorem display_ne_nil {files : FileTree} {step : Step} (shows : step.shows = true)
    (readable : step.Readable files) : step.display files ≠ [] := by
  cases step with
  | dump source => exact shown_ne_nil source
  | dumpFile path =>
    obtain ⟨data, read⟩ := readable path rfl
    rw [Step.display, read]
    exact shown_ne_nil _
  | converse input => exact dialogue_ne_nil _ _
  | report | takeFlag | scan | configureOut | configureErr | addFiles => cases shows

/-- A step that shows more than fits fails as the write does. -/
theorem step_of_overflow (flush : session.out.behaviour.flushFault = none) {step : Step}
    (shows : step.shows = true) (readable : step.Readable session.files)
    (excess : session.out.behaviour.fits (step.display session.files).length = false) :
    (session.step step).1 = .failure (.stream session.out.behaviour.writeFault) := by
  cases step with
  | dump source =>
    show Yield.ofFlag ((session.dump source).1.mapError _) = _
    rw [(shows_dump flush source).result_of_overflow excess]
    rfl
  | dumpFile path =>
    obtain ⟨data, read⟩ := readable path rfl
    rw [Step.display, read] at excess
    have noted : (session.note (scriptNote path data)).out.behaviour.flushFault = none := flush
    show Yield.ofFlag (session.dumpFile path).1 = _
    rw [dumpFile_eq read, (shows_dump noted _).result_of_overflow excess]
    rfl
  | converse input =>
    rw [step_converse_attend, (shows_attend flush _ _).result_of_overflow excess]
    rfl
  | report | takeFlag | scan | configureOut | configureErr | addFiles => cases shows

theorem step_of_unreadable {path : Path} {cause : Fault}
    (unreadable : session.files.read path = .error cause) :
    (session.step (.dumpFile path)).1 = .failure (.unreadable path cause) := by
  show Yield.ofFlag (session.dumpFile path).1 = _
  rw [dumpFile, unreadable]
  rfl

theorem length_display_snoc (before : List Step) (step : Step) :
    (display session.files (before ++ [step])).length =
      (display session.files before).length +
        (step.display (session.play before).2.files).length := by
  rw [display_append, List.length_append, files_play]
  exact congrArg _ (congrArg _ (List.append_nil _))

/-- A step behind some others yields the same on outputs that take what all of them show. -/
theorem step_after_of_takes {before : List Step} {step : Step}
    (constant : ∀ step ∈ before, step.isConfigureOut = false)
    (flagged : left.console.flagged = right.console.flagged)
    (files : left.files = right.files)
    (room : left.out.Takes (display left.files (before ++ [step])).length)
    (room' : right.out.Takes (display left.files (before ++ [step])).length) :
    ((left.play before).2.step step).1 = ((right.play before).2.step step).1 := by
  rw [length_display_snoc] at room room'
  obtain ⟨first, second⟩ := Sink.takes_add_iff.mp room
  obtain ⟨first', second'⟩ := Sink.takes_add_iff.mp room'
  have out' := out_play room'.flush constant
  rw [← out_play room.flush constant] at second
  rw [← files] at out'
  rw [← out'] at second'
  refine (step_of_takes ?_ ?_ second second').1
  · exact flagged_play_of_takes constant flagged files first first'
  · rw [files_play, files_play, files]

/-- A step behind some others fails as a write does if not all of what they show fits. -/
theorem step_after_of_overflow (flush : session.out.behaviour.flushFault = none)
    {before : List Step} {step : Step}
    (constant : ∀ step ∈ before, step.isConfigureOut = false) (shows : step.shows = true)
    (readable : step.Readable (session.play before).2.files)
    (excess : session.out.behaviour.fits (display session.files (before ++ [step])).length =
      false) :
    ((session.play before).2.step step).1 =
      .failure (.stream session.out.behaviour.writeFault) := by
  have out := out_play flush constant
  have flush' : (session.play before).2.out.behaviour.flushFault = none := by
    rw [out]
    exact flush
  rw [length_display_snoc] at excess
  -- The room may have ended within `before` already, so the step has to show something to fail.
  have spent := Sink.Behaviour.fits_after_of_excess excess
    (List.length_pos_iff.mpr (display_ne_nil shows readable))
  rw [step_of_overflow flush' shows readable (by rw [out]; exact spent), out]
  rfl

/-! ## 5. An output with an end beside one without -/

/-- The same session with an output without end. -/
def unlimited (session : Session) : Session :=
  { session with out.behaviour.room := none }

/-- What some steps store on the output. -/
def stores (session : Session) (steps : List Step) : List UInt8 :=
  (session.play steps).2.out.stored.toList.drop session.out.stored.size

theorem stored_play_unlimited (flush : session.out.behaviour.flushFault = none) {steps : List Step}
    (constant : ∀ step ∈ steps, step.isConfigureOut = false) :
    (session.unlimited.play steps).2.out.stored.toList =
      session.out.stored.toList ++ display session.files steps := by
  have flush' : session.unlimited.out.behaviour.flushFault = none := flush
  rw [out_play flush' constant, Sink.stored_write]
  rfl

theorem stores_unlimited (flush : session.out.behaviour.flushFault = none) {steps : List Step}
    (constant : ∀ step ∈ steps, step.isConfigureOut = false) :
    session.unlimited.stores steps = display session.files steps := by
  have size : session.unlimited.out.stored.size = session.out.stored.toList.length :=
    Array.length_toList.symm
  rw [stores, stored_play_unlimited flush constant, size, List.drop_left]

/-- A session without changes of its output, which has room for so many bytes and is flushed without
a fault, beside the same session on an output without end:

* it stores the beginning of what is stored there, as long as there is room;
* a source, a script or a conversation yields the same as there if all that is stored there up to
  its end fits, and else fails as the write does;
* but a script that cannot be read yields just that in both.

A sink that was given no fault of its own fails for want of room in a write. -/
theorem play_truncated {limit : Nat} {steps : List Step}
    (room : session.out.behaviour.room = some limit)
    (flush : session.out.behaviour.flushFault = none)
    (constant : ∀ step ∈ steps, step.isConfigureOut = false) :
    (session.play steps).2.out.stored.toList =
      session.out.stored.toList ++ (session.unlimited.stores steps).take limit ∧
    (session.unlimited.play steps).2.out.stored.toList =
      session.out.stored.toList ++ session.unlimited.stores steps ∧
    (∀ before step after, steps = before ++ step :: after → step.shows = true →
      let now := (session.play before).2
      let there := (session.unlimited.play before).2
      let count := (session.unlimited.stores (before ++ [step])).length
      (count ≤ limit → (now.step step).1 = (there.step step).1) ∧
      (limit < count → step.Readable now.files →
        (now.step step).1 = .failure (.stream session.out.behaviour.writeFault)) ∧
      (∀ path cause, step = .dumpFile path → now.files.read path = .error cause →
        (now.step step).1 = .failure (.unreadable path cause) ∧
          (there.step step).1 = .failure (.unreadable path cause))) ∧
    ({ room := some limit } : Sink.Behaviour).writeFault =
      .described .writeZero "failed to write whole buffer" := by
  have endless : session.unlimited.out.Reliable := ⟨rfl, flush⟩
  have fits (n : Nat) : session.out.behaviour.fits n = decide (n ≤ limit) := by
    rw [Sink.Behaviour.fits, room]
  refine ⟨?_, ?_, ?_, rfl⟩
  · rw [out_play flush constant, Sink.stored_write, stores_unlimited flush constant,
      Sink.Behaviour.accepted, room]
  · rw [stored_play_unlimited flush constant, stores_unlimited flush constant]
  intro before step after parts shows now there count
  obtain ⟨earlier, others⟩ := List.forall_mem_append.mp (parts ▸ constant)
  have upTo : ∀ other ∈ before ++ [step], other.isConfigureOut = false :=
    List.forall_mem_append.mpr ⟨earlier,
      List.forall_mem_singleton.mpr (List.forall_mem_cons.mp others).1⟩
  have total : count = (display session.files (before ++ [step])).length :=
    congrArg List.length (stores_unlimited flush upTo)
  have sameFiles : now.files = there.files :=
    (files_play session before).trans (files_play session.unlimited before).symm
  refine ⟨?_, ?_, ?_⟩
  · intro within
    have room' : session.out.Takes count := ⟨(fits count).trans (decide_eq_true within), flush⟩
    rw [total] at room'
    exact step_after_of_takes earlier rfl rfl room' (endless.takes _)
  · intro beyond readable
    refine step_after_of_overflow flush earlier shows readable ?_
    rw [← total, fits]
    exact decide_eq_false (Nat.not_le_of_lt beyond)
  · rintro path cause rfl unreadable
    exact ⟨step_of_unreadable unreadable, step_of_unreadable (sameFiles ▸ unreadable)⟩

/-- The room ends within the row of a `+`, between a script that is missing and a conversation. -/
theorem play_truncated_within_row :
    let session : Session := { out := { behaviour := { room := some 40 } } }
    let before : List Step := [.dump ['!', '='], .dumpFile [97]]
    let input : Input := [.data [43, 10, 33], .data [61]]
    let steps : List Step := before ++ [.dump ['+'], .converse input]
    (session.out.behaviour.room = some 40 ∧ session.out.behaviour.flushFault = none ∧
      ∀ step ∈ steps, step.isConfigureOut = false) ∧
    (session.play steps).2.out.stored.toList = (session.unlimited.stores steps).take 40 ∧
    (session.step (.dump ['!', '='])).1 = (session.unlimited.step (.dump ['!', '='])).1 ∧
    ((session.step (.dump ['!', '='])).2.step (.dumpFile [97])).1 =
      .failure (.unreadable [97] (.system .noSuchFile)) ∧
    ((session.play before).2.step (.dump ['+'])).1 =
      .failure (.stream (.described .writeZero "failed to write whole buffer")) := by
  intro session before input steps
  have constant : ∀ step ∈ steps, step.isConfigureOut = false := by decide
  obtain ⟨stored, -, yields, -⟩ := @play_truncated session 40 steps rfl rfl constant
  refine ⟨⟨rfl, rfl, constant⟩, stored, ?_, ?_, ?_⟩
  · exact (yields [] _ _ rfl rfl).1 (by decide +kernel)
  · exact ((yields [_] _ _ rfl rfl).2.2 [97] (.system .noSuchFile) rfl rfl).1
  · refine (yields before _ _ rfl rfl).2.1 (by decide +kernel) ?_
    rintro path ⟨⟩

end TokenDump.Session
