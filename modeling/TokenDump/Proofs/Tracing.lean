import TokenDump.Proofs.Conversing

/-!
# Tracing

What a session does to its console, as a list of acts: events are noted, diagnostics are reported,
the flag is taken. The acts of a step are read off its result and the sources that it dumps; whether
a diagnostic can be shown has no part in them. What the console becomes by some acts is a relation
(`Console.Performs`), which also says that a flag that is taken answers what it is.

Results:
1. `Performs.flagged_iff`, `Performs.sink_eq`, `Performs.log_eq`: the flag, the sink and the log
   after some acts.
2. `performs_step`, `performs_play`: a session does to its console what its trace says.
-/

namespace TokenDump

/-! ## 1. Acts -/

/-- A single thing that is done to a console. -/
inductive Console.Act where
  | note (event : Event)
  | report (diagnostic : Diagnostic)
  /-- The flag is lowered, after this answer. -/
  | takeFlag (answer : Bool)
  | configure (behaviour : Sink.Behaviour)
deriving DecidableEq, Repr

namespace Console

/-- The console becomes another one by some acts, in order, and answers as they say. -/
inductive Performs : Console → List Act → Console → Prop where
  | nil (console : Console) : Performs console [] console
  | note {console after : Console} {acts : List Act} (event : Event) :
      Performs (console.note event) acts after → Performs console (.note event :: acts) after
  | report {console after : Console} {acts : List Act} (diagnostic : Diagnostic) :
      Performs (console.report diagnostic) acts after →
      Performs console (.report diagnostic :: acts) after
  | takeFlag {console after : Console} {acts : List Act} :
      Performs console.takeFlag.2 acts after →
      Performs console (.takeFlag console.takeFlag.1 :: acts) after
  | configure {console after : Console} {acts : List Act} (behaviour : Sink.Behaviour) :
      Performs (console.configure behaviour) acts after →
      Performs console (.configure behaviour :: acts) after

/-- The diagnostic that an act reports, if it reports one. -/
def Act.diagnostic? : Act → Option Diagnostic
  | report diagnostic => some diagnostic
  | _ => none

/-- The event that an act leaves in the log, warnings apart. -/
def Act.event? : Act → Option Event
  | note event => some event
  | report diagnostic => some (.reported diagnostic)
  | _ => none

/-- The flag is not taken. -/
def Act.Untaken (acts : List Act) : Prop :=
  ∀ answer, takeFlag answer ∉ acts

/-- Something was reported, and the flag was not taken since. -/
def Act.Due (acts : List Act) : Prop :=
  ∃ before diagnostic later, acts = before ++ report diagnostic :: later ∧ Untaken later

variable {console middle after : Console} {acts acts' : List Act}

theorem Performs.append (h : Performs console acts middle) (h' : Performs middle acts' after) :
    Performs console (acts ++ acts') after := by
  induction h with
  | nil => exact h'
  | note event _ ih => exact .note event (ih h')
  | report diagnostic _ ih => exact .report diagnostic (ih h')
  | takeFlag _ ih => exact .takeFlag (ih h')
  | configure behaviour _ ih => exact .configure behaviour (ih h')

/-- Between any two acts there is a console. -/
theorem Performs.split (h : Performs console (acts ++ acts') after) :
    ∃ middle, Performs console acts middle ∧ Performs middle acts' after := by
  induction acts generalizing console with
  | nil => exact ⟨console, .nil console, h⟩
  | cons act acts ih =>
    cases h with
    | note event h =>
      obtain ⟨middle, first, second⟩ := ih h
      exact ⟨middle, .note event first, second⟩
    | report diagnostic h =>
      obtain ⟨middle, first, second⟩ := ih h
      exact ⟨middle, .report diagnostic first, second⟩
    | takeFlag h =>
      obtain ⟨middle, first, second⟩ := ih h
      exact ⟨middle, .takeFlag first, second⟩
    | configure behaviour h =>
      obtain ⟨middle, first, second⟩ := ih h
      exact ⟨middle, .configure behaviour first, second⟩

/-! ### The flag -/

theorem Act.untaken_nil : Untaken [] :=
  fun _ => List.not_mem_nil

theorem Act.untaken_cons_iff {act : Act} :
    Untaken (act :: acts) ↔ (∀ answer, takeFlag answer ≠ act) ∧ Untaken acts := by
  simp only [Untaken, List.mem_cons, not_or, forall_and, ne_eq]

theorem Act.not_due_nil : ¬ Due [] := by
  rintro ⟨before, diagnostic, later, parts, -⟩
  simp at parts

theorem Act.due_cons_iff {act : Act} :
    Due (act :: acts) ↔ Due acts ∨ (act.diagnostic?.isSome ∧ Untaken acts) := by
  constructor
  · rintro ⟨before, diagnostic, later, parts, kept⟩
    cases before with
    | nil =>
      obtain ⟨rfl, rfl⟩ := List.cons.inj parts
      exact .inr ⟨rfl, kept⟩
    | cons _ before =>
      obtain ⟨rfl, rfl⟩ := List.cons.inj parts
      exact .inl ⟨before, diagnostic, later, rfl, kept⟩
  · rintro (⟨before, diagnostic, later, rfl, kept⟩ | ⟨reports, kept⟩)
    · exact ⟨act :: before, diagnostic, later, rfl, kept⟩
    · cases act with
      | report diagnostic => exact ⟨[], diagnostic, acts, rfl, kept⟩
      | note | takeFlag | configure => cases reports

/-- The flag is up if something is due, or if it was up at first and was not taken. -/
theorem Performs.flagged_iff (h : Performs console acts after) :
    after.flagged = true ↔ Act.Due acts ∨ (console.flagged = true ∧ Act.Untaken acts) := by
  induction h with
  | nil console => simp [Act.not_due_nil, Act.untaken_nil]
  | note event _ ih => simp [ih, Act.due_cons_iff, Act.untaken_cons_iff, Act.diagnostic?]
  | report diagnostic _ ih =>
    rw [ih, flagged_report, Act.due_cons_iff, Act.untaken_cons_iff]
    constructor
    · rintro (due | ⟨-, kept⟩)
      · exact .inl (.inl due)
      · exact .inl (.inr ⟨rfl, kept⟩)
    · rintro ((due | ⟨-, kept⟩) | ⟨-, -, kept⟩)
      · exact .inl due
      · exact .inr ⟨rfl, kept⟩
      · exact .inr ⟨rfl, kept⟩
  | @takeFlag console after acts _ ih =>
    have lowered : console.takeFlag.2.flagged = false := rfl
    simp [ih, lowered, Act.due_cons_iff, Act.untaken_cons_iff, Act.diagnostic?]
  | @configure console after acts behaviour _ ih =>
    have kept : (console.configure behaviour).flagged = console.flagged := rfl
    simp [ih, kept, Act.due_cons_iff, Act.untaken_cons_iff, Act.diagnostic?]

/-- A flag that is taken was up exactly if something was due, unless it was up at first. -/
theorem Performs.answer_iff {answer : Bool} (down : console.flagged = false)
    (h : Performs console (acts ++ .takeFlag answer :: acts') after) :
    answer = true ↔ Act.Due acts := by
  obtain ⟨middle, first, second⟩ := h.split
  have up := first.flagged_iff
  rw [down] at up
  cases second with
  | takeFlag => exact up.trans (by simp)

/-! ### The sink and the log -/

/-- Unless the sink is changed, the rows of all that is reported are written to it, as in one go. -/
theorem Performs.sink_eq (h : Performs console acts after)
    (constant : ∀ behaviour, .configure behaviour ∉ acts) :
    after.sink =
      (console.sink.write ((acts.filterMap Act.diagnostic?).flatMap Diagnostic.row)).2 := by
  induction h with
  | nil console => exact (Sink.write_nil console.sink).symm
  | note event _ ih => exact ih fun behaviour => List.not_mem_of_not_mem_cons (constant behaviour)
  | report diagnostic _ ih =>
    rw [ih fun behaviour => List.not_mem_of_not_mem_cons (constant behaviour), sink_report,
      Sink.write_append]
    rfl
  | takeFlag _ ih => exact ih fun behaviour => List.not_mem_of_not_mem_cons (constant behaviour)
  | configure behaviour _ ih => exact absurd List.mem_cons_self (constant behaviour)

/-- The warning about a write after so many bytes have been offered, if they do not all fit. -/
def warnings (behaviour : Sink.Behaviour) (count : Nat) : List Event :=
  if behaviour.fits count then [] else [.unshown behaviour.writeFault]

namespace Act

/-- What some acts leave in the log, given how the sink answers at first. -/
def entries (behaviour : Sink.Behaviour) : List Act → List Event
  | [] => []
  | note event :: acts => event :: entries behaviour acts
  | report diagnostic :: acts =>
    .reported diagnostic :: (warnings behaviour diagnostic.row.length ++
      entries (behaviour.after diagnostic.row.length) acts)
  | takeFlag _ :: acts => entries behaviour acts
  | configure behaviour :: acts => entries behaviour acts

theorem filter_entries (behaviour : Sink.Behaviour) (acts : List Act) :
    ((entries behaviour acts).filter fun entry => entry.level ≠ .warn) =
      (acts.filterMap event?).filter fun entry => entry.level ≠ .warn := by
  induction acts generalizing behaviour with
  | nil => rfl
  | cons act acts ih =>
    cases act with
    | note event =>
      show (event :: entries behaviour acts).filter _ = (event :: acts.filterMap event?).filter _
      rw [List.filter_cons, List.filter_cons, ih]
    | report diagnostic =>
      have warned : (warnings behaviour diagnostic.row.length).filter
          (fun entry => entry.level ≠ .warn) = [] := by
        unfold warnings
        split <;> rfl
      rw [entries, List.filter_cons, List.filter_append, warned, ih]
      rfl
    | takeFlag answer => exact ih behaviour
    | configure behaviour => exact ih behaviour

end Act

/-- The log grows by the events of the acts, and by a warning behind each report that does not
fit. -/
theorem Performs.log_eq (h : Performs console acts after) :
    after.log.toList = console.log.toList ++ Act.entries console.sink.behaviour acts := by
  induction h with
  | nil console => exact (List.append_nil _).symm
  | note event _ ih =>
    rw [ih, toList_log_note, List.append_assoc]
    rfl
  | report diagnostic _ ih =>
    rw [ih, toList_log_report, sink_report, Sink.behaviour_write, List.append_assoc]
    rfl
  | takeFlag _ ih => exact ih
  | configure behaviour _ ih => exact ih

/-- Warnings apart, the log grows by the events of the acts. -/
theorem Performs.exists_log (h : Performs console acts after) :
    ∃ entries, after.log.toList = console.log.toList ++ entries ∧
      (entries.filter fun entry => entry.level ≠ .warn) =
        (acts.filterMap Act.event?).filter fun entry => entry.level ≠ .warn :=
  ⟨_, h.log_eq, Act.filter_entries console.sink.behaviour acts⟩

end Console

/-! ## 2. The trace of a session -/

/-- Whether an event has nothing to do with diagnostics. -/
def Event.isNeutral : Event → Bool
  | reported _ | unshown _ => false
  | segment _ _ | scanned _ | scriptRead _ _ | lineFlagged => true

/-- A source that was dumped, and what came of it. -/
structure Session.Attempt where
  source : List Char
  result : Except Fault Bool

namespace Console.Act

open Session (Attempt)

/-- What is done to the console for some segments, the first of which starts so many bytes into the
source. -/
def ofSegments (start : Nat) : List Segment → List Act
  | [] => []
  | segment :: rest =>
    note (.segment start Segment.line) ::
      (segment.diagnostic?.toList.map report ++ ofSegments (start + segment.width) rest)

/-- What a scan does to the console. -/
def ofSource (source : List Char) : List Act :=
  ofSegments 0 (Segment.cut source)

/-- What a dump does to the console: the flag is taken only if the dump succeeds, and then it is
what the dump answers. -/
def ofAttempt : Attempt → List Act
  | ⟨source, .error _⟩ => ofSource source ++ [note (.scanned (Token.ofText source).length)]
  | ⟨source, .ok answer⟩ =>
    ofSource source ++ [note (.scanned (Token.ofText source).length), takeFlag answer]

/-- What answering a line does to the console: if the flag was up, this is noted. -/
def ofLine (attempt : Attempt) : List Act :=
  ofAttempt attempt ++
    match attempt.result with
    | .ok true => [note .lineFlagged]
    | _ => []

theorem filterMap_diagnostic?_ofSegments (start : Nat) (segments : List Segment) :
    (ofSegments start segments).filterMap diagnostic? =
      segments.filterMap Segment.diagnostic? := by
  induction segments generalizing start with
  | nil => rfl
  | cons segment rest ih =>
    cases segment with
    | symbol s => exact ih _
    | stray c => exact congrArg (Diagnostic.strayCharacter :: ·) (ih _)

/-- A scan reports once for each character outside the alphabet. -/
theorem filterMap_diagnostic?_ofSource (source : List Char) :
    (ofSource source).filterMap diagnostic? =
      List.replicate (source.countP (· ∉ Symbol.alphabet)) .strayCharacter := by
  rw [ofSource, filterMap_diagnostic?_ofSegments, Segment.filterMap_diagnostic?_cut,
    Segment.strays, ← List.countP_eq_length_filter]

theorem mem_ofSegments {act : Act} {start : Nat} {segments : List Segment}
    (h : act ∈ ofSegments start segments) :
    (∃ start, act = note (.segment start Segment.line)) ∨ act = report .strayCharacter := by
  induction segments generalizing start with
  | nil => cases h
  | cons segment rest ih =>
    cases h with
    | head => exact .inl ⟨start, rfl⟩
    | tail _ h =>
      cases segment with
      | symbol s => exact ih h
      | stray c =>
        cases h with
        | head => exact .inr rfl
        | tail _ h => exact ih h

/-- Whether an act leaves the sink as it is, and tells of diagnostics by reports only. -/
def isOrdinary : Act → Bool
  | note event => event.isNeutral
  | report _ | takeFlag _ => true
  | configure _ => false

theorem isOrdinary_of_mem_ofAttempt {act : Act} {attempt : Attempt} (h : act ∈ ofAttempt attempt) :
    act.isOrdinary = true := by
  have scanned (member : act ∈ ofSource attempt.source) : act.isOrdinary = true := by
    rcases mem_ofSegments member with ⟨start, rfl⟩ | rfl
    · rfl
    · rfl
  obtain ⟨source, fault | answer⟩ := attempt
  · rcases List.mem_append.mp h with member | member
    · exact scanned member
    · obtain rfl := List.mem_singleton.mp member
      rfl
  · rcases List.mem_append.mp h with member | member
    · exact scanned member
    · simp only [List.mem_cons, List.not_mem_nil, or_false] at member
      rcases member with rfl | rfl
      · rfl
      · rfl

theorem isOrdinary_of_mem_ofLine {act : Act} {attempt : Attempt} (h : act ∈ ofLine attempt) :
    act.isOrdinary = true := by
  rcases List.mem_append.mp h with member | member
  · exact isOrdinary_of_mem_ofAttempt member
  · split at member
    · obtain rfl := List.mem_singleton.mp member
      rfl
    · cases member

end Console.Act

namespace Console

theorem performs_visit (console : Console) (start : Nat) (segment : Segment) :
    console.Performs (.note (.segment start Segment.line) :: segment.diagnostic?.toList.map .report)
      (console.visit start segment) := by
  cases segment with
  | symbol s => exact .note _ (.nil _)
  | stray c => exact .note _ (.report _ (.nil _))

theorem performs_survey (console : Console) (start : Nat) (segments : List Segment) :
    console.Performs (Act.ofSegments start segments) (console.survey start segments) := by
  induction segments generalizing console start with
  | nil => exact .nil console
  | cons segment rest ih => exact (performs_visit console start segment).append (ih _ _)

theorem performs_scan (console : Console) (source : List Char) :
    console.Performs (Act.ofSource source) (console.scan source).2 :=
  performs_survey console 0 (Segment.cut source)

end Console

namespace Session

open Console (Act)

/-- The dumps of a conversation: one for each line that is read, up to one that fails. -/
def attempts (session : Session) : List Line → List Attempt
  | [] => []
  | line :: lines =>
    match session.invite with
    | (.error _, _) => []
    | (.ok (), asked) =>
      ⟨line.text, (asked.dump line.text).1⟩ ::
        match asked.answer line with
        | (.error _, _) => []
        | (.ok (), answered) => answered.attempts lines

/-- What a step does to the console. -/
def trace (session : Session) : Step → List Act
  | .report diagnostic => [.report diagnostic]
  | .takeFlag => [.takeFlag session.takeFlag.1]
  | .scan source => Act.ofSource source
  | .dump source => Act.ofAttempt ⟨source, (session.dump source).1⟩
  | .dumpFile path =>
    match session.files.read path with
    | .error _ => []
    | .ok data =>
      let noted := session.note (scriptNote path data)
      .note (scriptNote path data) ::
        Act.ofAttempt ⟨Utf8.lenient data, (noted.dump (Utf8.lenient data)).1⟩
  | .converse input => (session.attempts input.readAll.lines).flatMap Act.ofLine
  | .configureErr behaviour => [.configure behaviour]
  | .configureOut _ | .addFiles _ => []

/-- What some steps do to the console. -/
def history (session : Session) : List Step → List Act
  | [] => []
  | step :: steps => session.trace step ++ (session.step step).2.history steps

/-- A session to which nothing has been done yet. -/
def fresh (out err : Sink) (files : FileTree) : Session :=
  { out := out, console := { sink := err }, files := files }

theorem performs_dump (session : Session) (source : List Char) :
    session.console.Performs (Act.ofAttempt ⟨source, (session.dump source).1⟩)
      (session.dump source).2.console := by
  have scanned := Console.performs_scan session.console source
  rw [dump_eq]
  rcases session.out.deliver (Token.shown source) with ⟨fault | ⟨⟩, out⟩
  · exact scanned.append (.note _ (.nil _))
  · exact scanned.append (.note _ (.takeFlag (.nil _)))

theorem performs_answer (session : Session) (line : Line) :
    session.console.Performs (Act.ofLine ⟨line.text, (session.dump line.text).1⟩)
      (session.answer line).2.console := by
  have dumped := performs_dump session line.text
  rw [answer_eq]
  generalize session.dump line.text = done at dumped ⊢
  rcases done with ⟨fault | ⟨_ | _⟩, after⟩
  · exact dumped.append (.nil _)
  · exact dumped.append (.nil _)
  · exact dumped.append (.note _ (.nil _))

theorem console_invite (session : Session) : session.invite.2.console = session.console := rfl

/-- A conversation does to the console what answering its lines does. -/
theorem performs_attend (session : Session) (ending : Except Fault Unit) (lines : List Line) :
    session.console.Performs ((session.attempts lines).flatMap Act.ofLine)
      (session.attend ending lines).2.console := by
  induction lines generalizing session with
  | nil =>
    rw [attend, attempts, ← console_invite session]
    rcases session.invite with ⟨fault | ⟨⟩, asked⟩
    · exact .nil _
    · cases ending with
      | error fault => exact .nil _
      | ok => exact .nil _
  | cons line lines ih =>
    -- The invitation decides whether there is an answer, but does nothing to the console.
    rw [attend, attempts, ← console_invite session]
    rcases session.invite with ⟨fault | ⟨⟩, asked⟩
    · exact .nil _
    · have answered := performs_answer asked line
      dsimp only
      generalize asked.answer line = done at answered ⊢
      rcases done with ⟨fault | ⟨⟩, after⟩
      · exact answered.append (.nil _)
      · exact answered.append (ih after)

theorem performs_dumpFile (session : Session) (path : Path) :
    session.console.Performs (session.trace (.dumpFile path))
      (session.dumpFile path).2.console := by
  rw [dumpFile, trace]
  cases session.files.read path with
  | error fault => exact .nil _
  | ok data =>
    exact .note (scriptNote path data)
      (performs_dump (session.note (scriptNote path data)) (Utf8.lenient data))

theorem performs_converse (session : Session) (input : Input) :
    session.console.Performs (session.trace (.converse input))
      (session.converse input).2.1.console := by
  obtain ⟨left, conversed, -⟩ := converse_attend session input
  rw [conversed]
  exact performs_attend session input.readAll.ending input.readAll.lines

/-- A conversation leaves the sink as writing all its diagnostics at once does. -/
theorem sink_converse (session : Session) (input : Input) :
    (session.converse input).2.1.console.sink = (session.console.sink.write
      (((session.trace (.converse input)).filterMap Act.diagnostic?).flatMap Diagnostic.row)).2 := by
  refine (performs_converse session input).sink_eq ?_
  intro behaviour changed
  obtain ⟨attempt, -, member⟩ := List.mem_flatMap.mp changed
  cases Act.isOrdinary_of_mem_ofLine member

/-- What a conversation yields that ended in this way. -/
def Yield.ofEnding : Except Fault Unit → Yield
  | .ok () => .nothing
  | .error fault => .failure (.stream fault)

theorem step_converse (session : Session) (input : Input) :
    session.step (.converse input) =
      (.ofEnding (session.converse input).1, (session.converse input).2.1) := by
  rw [step]
  rcases session.converse input with ⟨fault | ⟨⟩, after, left⟩ <;> rfl

/-- A session does to its console what its trace says. -/
theorem performs_step (session : Session) (step : Step) :
    session.console.Performs (session.trace step) (session.step step).2.console := by
  cases step with
  | report diagnostic => exact .report _ (.nil _)
  | takeFlag => exact .takeFlag (.nil _)
  | scan source => exact Console.performs_scan session.console source
  | dump source => exact performs_dump session source
  | dumpFile path => exact performs_dumpFile session path
  | converse input =>
    rw [step_converse]
    exact performs_converse session input
  | configureErr behaviour => exact .configure _ (.nil _)
  | configureOut behaviour => exact .nil _
  | addFiles nodes => exact .nil _

theorem play_cons (session : Session) (step : Step) (steps : List Step) :
    session.play (step :: steps) =
      ((session.step step).1 :: ((session.step step).2.play steps).1,
        ((session.step step).2.play steps).2) := rfl

theorem performs_play (session : Session) (steps : List Step) :
    session.console.Performs (session.history steps) (session.play steps).2.console := by
  induction steps generalizing session with
  | nil => exact .nil _
  | cons step steps ih => exact (performs_step session step).append (ih _)

theorem history_append (session : Session) (before later : List Step) :
    session.history (before ++ later) =
      session.history before ++ (session.play before).2.history later := by
  induction before generalizing session with
  | nil => rfl
  | cons step before ih =>
    show session.trace step ++ (session.step step).2.history (before ++ later) = _
    rw [ih, ← List.append_assoc]
    rfl

end Session

end TokenDump
