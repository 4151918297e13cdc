import TokenDump.Proofs.Tracing

/-!
# Flagging

When the flag of a console is up. Its history is the reports that were made and the times when the
flag was taken; the flag is up while a report is due. A dump takes the flag only if it succeeds, and
a conversation takes it after each line, so it matters where each of them stops.

Results:
1. `due_append_note_append`, `Performs.flagged_iff_due`: events have no part in what is due, and
   what is due is what the flag says.
2. `filterMap_diagnostic?_trace`, `filterMap_answer?_trace`: what a step reports, and when it takes
   the flag.
3. `dump_answer_iff_due`, `dumpFile_answer_iff_due`, `line_answer_iff_due`: what a dump answers.
4. `flag_history`: the flag at every moment of every session, and every answer it gives.
-/

namespace TokenDump

/-! ## 1. What is due -/

namespace Console

/-- The answer that an act gives, if it takes the flag. -/
def Act.answer? : Act → Option Bool
  | takeFlag answer => some answer
  | _ => none

theorem Act.untaken_append_iff {acts acts' : List Act} :
    Untaken (acts ++ acts') ↔ Untaken acts ∧ Untaken acts' := by
  simp only [Untaken, List.mem_append, not_or, forall_and]

theorem Act.untaken_note_cons {acts : List Act} {event : Event} :
    Untaken (note event :: acts) ↔ Untaken acts := by
  rw [untaken_cons_iff]
  exact and_iff_right fun answer => Act.noConfusion

/-- An event that is noted has no part in what is due. -/
theorem Act.due_append_note_append {acts acts' : List Act} {event : Event} :
    Due (acts ++ note event :: acts') ↔ Due (acts ++ acts') := by
  induction acts with
  | nil =>
    show Due (note event :: acts') ↔ Due acts'
    rw [due_cons_iff]
    exact or_iff_left fun reports => Bool.noConfusion reports.1
  | cons act acts ih =>
    rw [List.cons_append, List.cons_append, due_cons_iff, due_cons_iff, ih, untaken_append_iff,
      untaken_append_iff, untaken_note_cons]

/-- If the flag was down at first, it is up while something is due. -/
theorem Performs.flagged_iff_due {console after : Console} {acts : List Act}
    (down : console.flagged = false) (h : Performs console acts after) :
    after.flagged = true ↔ Act.Due acts := by
  rw [h.flagged_iff, down]
  exact or_iff_left fun up => Bool.noConfusion up.1

end Console

/-! ## 2. What a step reports and when it takes the flag -/

/-- What is reported of a source: a diagnostic for each character outside the alphabet. -/
def Diagnostic.ofSource (source : List Char) : List Diagnostic :=
  List.replicate (source.countP (· ∉ Symbol.alphabet)) strayCharacter

namespace Session

open Console (Act)

/-- What a step reports, in order. -/
def reports (session : Session) : Step → List Diagnostic
  | .report diagnostic => [diagnostic]
  | .scan source | .dump source => Diagnostic.ofSource source
  | .dumpFile path =>
    match session.files.read path with
    | .error _ => []
    | .ok data => Diagnostic.ofSource (Utf8.lenient data)
  | .converse input =>
    (session.attempts input.readAll.lines).flatMap fun attempt => Diagnostic.ofSource attempt.source
  | .takeFlag | .configureOut _ | .configureErr _ | .addFiles _ => []

/-- The answers that the flag gives as a step takes it: once if it is asked for, once after a source
or a script that was dumped with success, and once after each such line. -/
def takings (session : Session) : Step → List Bool
  | .takeFlag => [session.takeFlag.1]
  | .dump source => (session.dump source).1.toOption.toList
  | .dumpFile path => (session.dumpFile path).1.toOption.toList
  | .converse input =>
    (session.attempts input.readAll.lines).flatMap fun attempt => attempt.result.toOption.toList
  | .report _ | .scan _ | .configureOut _ | .configureErr _ | .addFiles _ => []

end Session

namespace Console.Act

open Session (Attempt)

theorem filterMap_diagnostic?_ofAttempt (attempt : Attempt) :
    (ofAttempt attempt).filterMap diagnostic? = Diagnostic.ofSource attempt.source := by
  obtain ⟨source, result⟩ := attempt
  cases result with
  | error fault =>
    rw [ofAttempt, List.filterMap_append, filterMap_diagnostic?_ofSource]
    exact List.append_nil _
  | ok answer =>
    rw [ofAttempt, List.filterMap_append, filterMap_diagnostic?_ofSource]
    exact List.append_nil _

theorem filterMap_diagnostic?_ofLine (attempt : Attempt) :
    (ofLine attempt).filterMap diagnostic? = Diagnostic.ofSource attempt.source := by
  rw [ofLine, List.filterMap_append, filterMap_diagnostic?_ofAttempt]
  split <;> exact List.append_nil _

theorem filterMap_answer?_ofSegments (start : Nat) (segments : List Segment) :
    (ofSegments start segments).filterMap answer? = [] := by
  induction segments generalizing start with
  | nil => rfl
  | cons segment rest ih =>
    cases segment with
    | symbol s => exact ih _
    | stray c => exact ih _

theorem filterMap_answer?_ofAttempt (attempt : Attempt) :
    (ofAttempt attempt).filterMap answer? = attempt.result.toOption.toList := by
  obtain ⟨source, result⟩ := attempt
  cases result with
  | error fault =>
    rw [ofAttempt, List.filterMap_append, ofSource, filterMap_answer?_ofSegments]
    rfl
  | ok answer =>
    rw [ofAttempt, List.filterMap_append, ofSource, filterMap_answer?_ofSegments]
    rfl

theorem filterMap_answer?_ofLine (attempt : Attempt) :
    (ofLine attempt).filterMap answer? = attempt.result.toOption.toList := by
  rw [ofLine, List.filterMap_append, filterMap_answer?_ofAttempt]
  split <;> exact List.append_nil _

theorem lineFlagged_not_mem_ofAttempt (attempt : Attempt) :
    note .lineFlagged ∉ ofAttempt attempt := by
  have unscanned : note .lineFlagged ∉ ofSource attempt.source := by
    intro h
    cases mem_ofSegments h with
    | inl h => cases h.choose_spec
    | inr h => cases h
  obtain ⟨source, result⟩ := attempt
  cases result with
  | error fault => simpa [ofAttempt] using unscanned
  | ok answer => simpa [ofAttempt] using unscanned

/-- That a line was flagged is noted exactly if its dump answered so. -/
theorem lineFlagged_mem_ofLine_iff {attempt : Attempt} :
    note .lineFlagged ∈ ofLine attempt ↔ attempt.result = .ok true := by
  rw [ofLine, List.mem_append, or_iff_right (lineFlagged_not_mem_ofAttempt attempt)]
  split
  · next answered => exact iff_of_true List.mem_cons_self answered
  · next other => exact iff_of_false List.not_mem_nil other

end Console.Act

namespace Session

open Console (Act)

theorem filterMap_diagnostic?_trace (session : Session) (step : Step) :
    (session.trace step).filterMap Act.diagnostic? = session.reports step := by
  cases step with
  | report diagnostic => rfl
  | takeFlag => rfl
  | scan source => exact Act.filterMap_diagnostic?_ofSource source
  | dump source => exact Act.filterMap_diagnostic?_ofAttempt _
  | dumpFile path =>
    rw [trace, reports]
    cases session.files.read path with
    | error fault => rfl
    | ok data => exact Act.filterMap_diagnostic?_ofAttempt _
  | converse input =>
    rw [trace, reports, List.filterMap_flatMap]
    exact congrArg (List.flatMap · _) (funext Act.filterMap_diagnostic?_ofLine)
  | configureOut behaviour => rfl
  | configureErr behaviour => rfl
  | addFiles nodes => rfl

theorem filterMap_answer?_trace (session : Session) (step : Step) :
    (session.trace step).filterMap Act.answer? = session.takings step := by
  cases step with
  | report diagnostic => rfl
  | takeFlag => rfl
  | scan source => exact Act.filterMap_answer?_ofSegments 0 _
  | dump source => exact Act.filterMap_answer?_ofAttempt _
  | dumpFile path =>
    rw [trace, takings]
    cases read : session.files.read path with
    | error fault =>
      rw [dumpFile, read]
      rfl
    | ok data =>
      rw [dumpFile_eq read]
      refine (Act.filterMap_answer?_ofAttempt _).trans ?_
      dsimp only
      cases ((session.note (scriptNote path data)).dump (Utf8.lenient data)).1 <;> rfl
  | converse input =>
    rw [trace, takings, List.filterMap_flatMap]
    exact congrArg (List.flatMap · _) (funext Act.filterMap_answer?_ofLine)
  | configureOut behaviour => rfl
  | configureErr behaviour => rfl
  | addFiles nodes => rfl

/-! ## 3. The flag of a session -/

/-- What a script that can be read does to the console. -/
theorem trace_dumpFile {session : Session} {path : Path} {data : List UInt8} {answer : Bool}
    (readable : session.files.read path = .ok data)
    (answered : (session.dumpFile path).1 = .ok answer) :
    session.trace (.dumpFile path) =
      .note (scriptNote path data) :: Act.ofAttempt ⟨Utf8.lenient data, .ok answer⟩ := by
  rw [dumpFile_eq readable] at answered
  rw [trace, readable]
  dsimp only at answered ⊢
  cases result : ((session.note (scriptNote path data)).dump (Utf8.lenient data)).1 with
  | error fault =>
    rw [result] at answered
    cases answered
  | ok flag =>
    rw [result] at answered
    cases answered
    rfl

section

variable {console after : Console} {past later : List Act} {source : List Char} {answer : Bool}

theorem ofAttempt_ok (source : List Char) (answer : Bool) :
    Act.ofAttempt ⟨source, .ok answer⟩ =
      Act.ofSource source ++ .note (.scanned (Token.ofText source).length) ::
        .takeFlag answer :: [] := rfl

/-- A dump that succeeded answered whether something was due once its source was scanned. -/
theorem answer_iff_due_ofSource (down : console.flagged = false)
    (h : console.Performs (past ++ (Act.ofAttempt ⟨source, .ok answer⟩ ++ later)) after) :
    answer = true ↔ Act.Due (past ++ Act.ofSource source) := by
  rw [ofAttempt_ok] at h
  -- Between the scan and the answer the number of tokens is noted.
  have parts : past ++ (Act.ofSource source ++ Act.note (.scanned (Token.ofText source).length) ::
        .takeFlag answer :: [] ++ later) =
      (past ++ Act.ofSource source ++ [Act.note (.scanned (Token.ofText source).length)]) ++
        .takeFlag answer :: later := by simp
  rw [parts] at h
  rw [h.answer_iff down, Act.due_append_note_append, List.append_nil]

variable {session : Session}

/-- What a source answers, given all that was done to the console before. -/
theorem dump_answer_iff_due (down : console.flagged = false)
    (h : console.Performs past session.console) (answered : (session.dump source).1 = .ok answer) :
    answer = true ↔ Act.Due (past ++ Act.ofSource source) := by
  have dumped := h.append (performs_dump session source)
  rw [answered, ← List.append_nil (Act.ofAttempt _)] at dumped
  exact answer_iff_due_ofSource down dumped

/-- What a script answers. -/
theorem dumpFile_answer_iff_due {path : Path} {data : List UInt8} (down : console.flagged = false)
    (h : console.Performs past session.console) (readable : session.files.read path = .ok data)
    (answered : (session.dumpFile path).1 = .ok answer) :
    answer = true ↔ Act.Due (past ++ Act.ofSource (Utf8.lenient data)) := by
  have dumped := h.append (performs_dumpFile session path)
  rw [trace_dumpFile readable answered, ← List.append_nil (Act.ofAttempt _),
    List.append_cons] at dumped
  rw [answer_iff_due_ofSource down dumped, List.append_assoc]
  exact Act.due_append_note_append

/-- What a line of a conversation answers. -/
theorem line_answer_iff_due {input : Input} {before behind : List Attempt}
    (down : console.flagged = false) (h : console.Performs past session.console)
    (parts : session.attempts input.readAll.lines = before ++ ⟨source, .ok answer⟩ :: behind) :
    answer = true ↔ Act.Due (past ++ before.flatMap Act.ofLine ++ Act.ofSource source) := by
  have conversed := h.append (performs_converse session input)
  rw [trace, parts, List.flatMap_append, List.flatMap_cons, Act.ofLine, ← List.append_assoc,
    List.append_assoc (Act.ofAttempt _)] at conversed
  exact answer_iff_due_ofSource down conversed

end

theorem attempts_eq_nil {session : Session} {lines : List Line}
    (unread : lines = [] ∨ ∃ fault, session.invite.1 = .error fault) :
    session.attempts lines = [] := by
  cases lines with
  | nil => rfl
  | cons line lines =>
    cases unread with
    | inl none => cases none
    | inr failed =>
      obtain ⟨fault, failed⟩ := failed
      rw [attempts]
      generalize session.invite = invited at failed ⊢
      obtain ⟨result, asked⟩ := invited
      cases failed
      rfl

theorem console_dumpFile_of_error {session : Session} {path : Path} {fault : Fault}
    (unreadable : session.files.read path = .error fault) :
    (session.dumpFile path).2.console = session.console := by
  rw [dumpFile, unreadable]
  rfl

theorem console_converse_of_unread {session : Session} {input : Input}
    (unread : input.readAll.lines = [] ∨ ∃ fault, session.invite.1 = .error fault) :
    (session.converse input).2.1.console = session.console := by
  have conversed := performs_converse session input
  rw [trace, attempts_eq_nil unread] at conversed
  generalize (session.converse input).2.1.console = after at conversed ⊢
  cases conversed
  rfl

/-- The flag of a session that began as a new one, after any steps, whatever its sinks do:

* between any two acts of its history, in a scan or in a conversation too, the flag is up exactly if
  something was reported and the flag was not taken since;
* whenever the flag is taken, it answers just that;
* a step adds its trace to the history, which reports as `reports` says and takes the flag as
  `takings` says, and the log has the events of the history;
* so the flag, a source and a script each answer whether something is due, their own diagnostics
  included, and so does each line of a conversation, where a line that answers yes is noted;
* a script that cannot be read leaves the flag as it is, and so does a conversation that comes to
  no line. -/
theorem flag_history (out err : Sink) (files : FileTree) (steps : List Step) :
    let created := fresh out err files
    let past := created.history steps
    let now := (created.play steps).2
    (∀ before later, past = before ++ later → ∃ console, created.console.Performs before console ∧
      console.Performs later now.console ∧ (console.flagged = true ↔ Act.Due before)) ∧
    (∀ before answer later, past = before ++ .takeFlag answer :: later →
      (answer = true ↔ Act.Due before)) ∧
    (∀ step, created.history (steps ++ [step]) = past ++ now.trace step ∧
      (now.trace step).filterMap Act.diagnostic? = now.reports step ∧
      (now.trace step).filterMap Act.answer? = now.takings step) ∧
    (now.console.log.toList.filter fun entry => entry.level ≠ .warn) =
      (past.filterMap Act.event?).filter (fun entry => entry.level ≠ .warn) ∧
    (∃ answer, (now.step .takeFlag).1 = .flag answer ∧ (answer = true ↔ Act.Due past)) ∧
    (∀ source answer, (now.dump source).1 = .ok answer →
      (answer = true ↔ Act.Due (past ++ Act.ofSource source))) ∧
    (∀ path data answer, now.files.read path = .ok data → (now.dumpFile path).1 = .ok answer →
      (answer = true ↔ Act.Due (past ++ Act.ofSource (Utf8.lenient data)))) ∧
    (∀ (input : Input) before attempt later,
      now.attempts input.readAll.lines = before ++ attempt :: later →
      (∀ answer, attempt.result = .ok answer → (answer = true ↔
        Act.Due (past ++ before.flatMap Act.ofLine ++ Act.ofSource attempt.source))) ∧
      (.note .lineFlagged ∈ Act.ofLine attempt ↔ attempt.result = .ok true)) ∧
    (∀ path fault, now.files.read path = .error fault →
      (now.dumpFile path).2.console.flagged = now.console.flagged) ∧
    (∀ input : Input, (input.readAll.lines = [] ∨ ∃ fault, now.invite.1 = .error fault) →
      (now.converse input).2.1.console.flagged = now.console.flagged) := by
  intro created past now
  have down : created.console.flagged = false := rfl
  have played : created.console.Performs past now.console := performs_play created steps
  have taken := played.flagged_iff_due down
  -- Each answer is read off the history up to it, to which `played` adds what was done before.
  refine ⟨?_, ?_, ?_, ?_, ?_, ?_, ?_, ?_, ?_, ?_⟩
  · intro before later parts
    rw [parts] at played
    obtain ⟨console, first, second⟩ := played.split
    exact ⟨console, first, second, first.flagged_iff_due down⟩
  · intro before answer later parts
    rw [parts] at played
    exact played.answer_iff down
  · intro step
    refine ⟨?_, filterMap_diagnostic?_trace now step, filterMap_answer?_trace now step⟩
    rw [history_append]
    exact congrArg (past ++ ·) (List.append_nil _)
  · obtain ⟨entries, log, same⟩ := played.exists_log
    rw [log, ← same]
    rfl
  · exact ⟨_, rfl, taken⟩
  · intro source answer answered
    exact dump_answer_iff_due down played answered
  · intro path data answer readable answered
    exact dumpFile_answer_iff_due down played readable answered
  · intro input before attempt later parts
    refine ⟨?_, Act.lineFlagged_mem_ofLine_iff⟩
    intro answer answered
    obtain ⟨source, result⟩ := attempt
    cases answered
    exact line_answer_iff_due down played parts
  · intro path fault unreadable
    rw [console_dumpFile_of_error unreadable]
  · intro input unread
    rw [console_converse_of_unread unread]

end Session

end TokenDump
