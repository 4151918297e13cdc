import TokenDump.Proofs.Observing
import TokenDump.Proofs.Tracing

/-!
# Noninterference

Nothing but the diagnostic stream shows what becomes of the diagnostics. Two sessions that differ in
their diagnostic sinks only are twins; a step yields the same in both and leaves them twins, since
what it does to the console and to the output depends on the output, the flag and the files alone.

Results:
1. `Twin.converse`, `Twin.step`, `Twin.trace`: twins do the same and stay twins.
   `masks_twin`: changes of a diagnostic sink cannot be told.
2. `sights_eq_of_twin`: all that is seen of some steps is the same, however the diagnostic sinks
   behave and whenever that changes.
-/

namespace TokenDump.Session

/-! ## 1. Twins -/

/-- The sessions differ in their diagnostic sinks and in what they have noted, if they differ. -/
structure Twin (left right : Session) : Prop where
  out : left.out = right.out
  flagged : left.console.flagged = right.console.flagged
  files : left.files = right.files

variable {left middle right : Session}

theorem Twin.refl (session : Session) : Twin session session :=
  ⟨rfl, rfl, rfl⟩

theorem Twin.symm (h : Twin left right) : Twin right left :=
  ⟨h.out.symm, h.flagged.symm, h.files.symm⟩

theorem Twin.trans (h : Twin left middle) (h' : Twin middle right) : Twin left right :=
  ⟨h.out.trans h'.out, h.flagged.trans h'.flagged, h.files.trans h'.files⟩

theorem Twin.note (h : Twin left right) (event : Event) :
    Twin (left.note event) (right.note event) :=
  ⟨h.out, h.flagged, h.files⟩

/-- The same comes of both, and the sessions after it are twins. -/
structure Matched {α : Type} (left right : α × Session) : Prop where
  result : left.1 = right.1
  twin : Twin left.2 right.2

theorem Matched.parts {α : Type} {left right : α × Session} (h : Matched left right) :
    ∃ result after after', left = (result, after) ∧ right = (result, after') ∧
      Twin after after' :=
  ⟨left.1, left.2, right.2, rfl, Prod.ext h.result.symm rfl, h.twin⟩

theorem Twin.dump (h : Twin left right) (source : List Char) :
    Matched (left.dump source) (right.dump source) := by
  refine ⟨?_, ?_, ?_, ?_⟩
  · rw [dump_fst, dump_fst, h.out, h.flagged]
  · rw [out_dump, out_dump, h.out]
  · rw [flagged_dump, flagged_dump, h.out, h.flagged]
  · rw [files_dump, files_dump, h.files]

theorem Twin.dumpFile (h : Twin left right) (path : Path) :
    Matched (left.dumpFile path) (right.dumpFile path) := by
  cases read : right.files.read path with
  | error fault =>
    rw [Session.dumpFile, Session.dumpFile, h.files, read]
    exact ⟨rfl, h⟩
  | ok data =>
    have dumped := (h.note (scriptNote path data)).dump (Utf8.lenient data)
    rw [dumpFile_eq (h.files ▸ read), dumpFile_eq read]
    exact ⟨congrArg (Except.mapError Failure.stream) dumped.result, dumped.twin⟩

theorem Twin.invite (h : Twin left right) : Matched left.invite right.invite := by
  refine ⟨?_, ?_, h.flagged, h.files⟩
  · exact congrArg (fun out => (out.deliver prompt).1) h.out
  · exact congrArg (fun out => (out.deliver prompt).2) h.out

theorem Twin.close (h : Twin left right) : Matched left.close right.close := by
  refine ⟨?_, ?_, h.flagged, h.files⟩
  · exact congrArg (fun out => (out.write [Line.lineFeed]).1) h.out
  · exact congrArg (fun out => (out.write [Line.lineFeed]).2) h.out

theorem Twin.answer (h : Twin left right) (line : Line) :
    Matched (left.answer line) (right.answer line) := by
  obtain ⟨result, after, after', dumped, dumped', twin⟩ := (h.dump line.text).parts
  rw [answer_eq, answer_eq, dumped, dumped']
  rcases result with fault | ⟨_ | _⟩
  · exact ⟨rfl, twin⟩
  · exact ⟨rfl, twin⟩
  · exact ⟨rfl, twin.note .lineFlagged⟩

/-- Twins hold the same conversation, and leave the same of its input. -/
theorem Twin.converse (h : Twin left right) (input : Input) :
    ∃ result after after' rest, left.converse input = (result, after, rest) ∧
      right.converse input = (result, after', rest) ∧ Twin after after' := by
  -- Not on the lines of the input, as what a conversation leaves of its input has to be the same
  -- too, and `converse_attend` says nothing about it where the conversation fails.
  induction input using Input.readAll_induction generalizing left right with
  | error input fault rest read =>
    obtain ⟨result, asked, asked', invited, invited', twin⟩ := h.invite.parts
    rw [converse_eq, converse_eq, invited, invited', read]
    cases result with
    | error fault => exact ⟨_, asked, asked', input, rfl, rfl, twin⟩
    | ok => exact ⟨_, asked, asked', rest, rfl, rfl, twin⟩
  | ended input rest read =>
    obtain ⟨result, asked, asked', invited, invited', twin⟩ := h.invite.parts
    rw [converse_eq, converse_eq, invited, invited', read]
    cases result with
    | error fault => exact ⟨_, asked, asked', input, rfl, rfl, twin⟩
    | ok =>
      obtain ⟨result, after, after', closed, closed', twin⟩ := twin.close.parts
      refine ⟨result, after, after', rest, ?_, ?_, twin⟩
      · simp only [closed, if_true]
      · simp only [closed', if_true]
  | line input line rest read nonempty ih =>
    obtain ⟨result, asked, asked', invited, invited', twin⟩ := h.invite.parts
    rw [converse_eq, converse_eq, invited, invited', read]
    cases result with
    | error fault => exact ⟨_, asked, asked', input, rfl, rfl, twin⟩
    | ok =>
      obtain ⟨result, after, after', answered, answered', twin⟩ := (twin.answer line).parts
      simp only [answered, answered', if_neg nonempty]
      cases result with
      | error fault => exact ⟨_, after, after', rest, rfl, rfl, twin⟩
      | ok => exact ih twin

/-- Twins dump the same lines of a conversation, with the same results. -/
theorem Twin.attempts (h : Twin left right) (lines : List Line) :
    left.attempts lines = right.attempts lines := by
  induction lines generalizing left right with
  | nil => rfl
  | cons line lines ih =>
    obtain ⟨result, asked, asked', invited, invited', twin⟩ := h.invite.parts
    rw [Session.attempts, Session.attempts, invited, invited']
    cases result with
    | error fault => rfl
    | ok =>
      obtain ⟨result, _, _, dumped, dumped', -⟩ := (twin.dump line.text).parts
      obtain ⟨answer, after, after', answered, answered', twin⟩ := (twin.answer line).parts
      dsimp only
      rw [dumped, dumped', answered, answered']
      cases answer with
      | error fault => rfl
      | ok => exact congrArg _ (ih twin)

/-- Whether a step changes the diagnostic sink. -/
def Step.isConfigureErr : Step → Bool
  | .configureErr _ => true
  | _ => false

theorem Step.exists_configureErr {step : Step} (h : step.isConfigureErr = true) :
    ∃ behaviour, step = .configureErr behaviour := by
  cases step with
  | configureErr behaviour => exact ⟨behaviour, rfl⟩
  | report | takeFlag | scan | dump | dumpFile | converse | configureOut | addFiles => cases h

/-- Twins do the same to their consoles. -/
theorem Twin.trace (h : Twin left right) (step : Step) : left.trace step = right.trace step := by
  cases step with
  | report diagnostic => rfl
  | takeFlag => exact congrArg (fun flag => [Console.Act.takeFlag flag]) h.flagged
  | scan source => rfl
  | dump source =>
    obtain ⟨result, _, _, dumped, dumped', -⟩ := (h.dump source).parts
    rw [Session.trace, Session.trace, dumped, dumped']
  | dumpFile path =>
    rw [Session.trace, Session.trace, h.files]
    cases right.files.read path with
    | error fault => rfl
    | ok data =>
      obtain ⟨result, _, _, dumped, dumped', -⟩ :=
        ((h.note (scriptNote path data)).dump (Utf8.lenient data)).parts
      dsimp only
      rw [dumped, dumped']
  | converse input =>
    rw [Session.trace, Session.trace, h.attempts]
  | configureOut behaviour => rfl
  | configureErr behaviour => rfl
  | addFiles nodes => rfl

/-- A step yields the same in twins and leaves them twins. -/
theorem Twin.step (h : Twin left right) (step : Step) :
    Matched (left.step step) (right.step step) := by
  cases step with
  | report diagnostic =>
    have raised := (Console.flagged_report left.console diagnostic).trans
      (Console.flagged_report right.console diagnostic).symm
    exact ⟨rfl, h.out, raised, h.files⟩
  | takeFlag => exact ⟨congrArg Yield.flag h.flagged, h.out, rfl, h.files⟩
  | scan source =>
    refine ⟨rfl, h.out, ?_, h.files⟩
    show (left.console.scan source).2.flagged = (right.console.scan source).2.flagged
    rw [Console.flagged_scan, Console.flagged_scan, h.flagged]
  | dump source =>
    obtain ⟨result, after, after', dumped, dumped', twin⟩ := (h.dump source).parts
    rw [Session.step, Session.step, dumped, dumped']
    exact ⟨rfl, twin⟩
  | dumpFile path =>
    obtain ⟨result, after, after', dumped, dumped', twin⟩ := (h.dumpFile path).parts
    rw [Session.step, Session.step, dumped, dumped']
    exact ⟨rfl, twin⟩
  | converse input =>
    obtain ⟨result, after, after', rest, conversed, conversed', twin⟩ := h.converse input
    rw [step_converse, step_converse, conversed, conversed']
    exact ⟨rfl, twin⟩
  | configureOut behaviour =>
    refine ⟨rfl, ?_, h.flagged, h.files⟩
    show { left.out with behaviour := behaviour } = { right.out with behaviour := behaviour }
    rw [h.out]
  | configureErr behaviour => exact ⟨rfl, h.out, h.flagged, h.files⟩
  | addFiles nodes => exact ⟨rfl, h.out, h.flagged, congrArg (FileTree.putAll · nodes) h.files⟩

/-- Changing the diagnostic sink of one session leaves twins. -/
theorem twin_configureErr (session : Session) (behaviour : Sink.Behaviour) :
    Twin (session.step (.configureErr behaviour)).2 session :=
  ⟨rfl, rfl, rfl⟩

/-! ## 2. What is seen -/

/-- What is seen of a step, but for the diagnostic stream. -/
@[ext] structure Sight where
  yield : Yield
  /-- The bytes that the step stored on the output. -/
  shown : List UInt8
  /-- Whether the flag is up after it. -/
  flagged : Bool
  /-- The events that the step noted, warnings apart. -/
  noted : List Event
  /-- What a conversation left of its input. -/
  unread : Input

/-- What is seen of a step of a session. -/
def sight (session : Session) (step : Step) : Sight where
  yield := (session.step step).1
  shown := (session.step step).2.out.stored.toList.drop session.out.stored.size
  flagged := (session.step step).2.console.flagged
  noted := ((session.step step).2.console.log.toList.drop session.console.log.size).filter
    fun entry => entry.level ≠ .warn
  unread :=
    match step with
    | .converse input => (session.converse input).2.2
    | _ => []

/-- What is seen of some steps, other than those that change the diagnostic sink. -/
def sights (session : Session) (steps : List Step) : List Sight :=
  session.observe Step.isConfigureErr sight steps

theorem noted_step (session : Session) (step : Step) :
    ((session.step step).2.console.log.toList.drop session.console.log.size).filter
        (fun entry => entry.level ≠ .warn) =
      ((session.trace step).filterMap Console.Act.event?).filter
        fun entry => entry.level ≠ .warn := by
  obtain ⟨entries, log, same⟩ := (performs_step session step).exists_log
  rw [log, ← same, ← Array.length_toList, List.drop_left]

/-- The same is seen of a step in twins. -/
theorem Twin.sight (h : Twin left right) (step : Step) : left.sight step = right.sight step := by
  have stepped := h.step step
  apply Sight.ext
  case yield => exact stepped.result
  case shown =>
    show List.drop _ (left.step step).2.out.stored.toList =
      List.drop _ (right.step step).2.out.stored.toList
    rw [stepped.twin.out, h.out]
  case flagged => exact stepped.twin.flagged
  case noted => exact (noted_step left step).trans (h.trace step ▸ (noted_step right step).symm)
  case unread =>
    cases step with
    | converse input =>
      obtain ⟨result, _, _, rest, conversed, conversed', -⟩ := h.converse input
      show (left.converse input).2.2 = (right.converse input).2.2
      rw [conversed, conversed']
    | report | takeFlag | scan | dump | dumpFile | configureOut | configureErr | addFiles => rfl

/-- Changes of the diagnostic sink can be told by nothing that is seen of twins. -/
theorem masks_twin : Masks Twin Step.isConfigureErr (fun _ => True) sight where
  skip twin changes := by
    obtain ⟨behaviour, rfl⟩ := Step.exists_configureErr changes
    exact (twin_configureErr _ behaviour).trans twin
  seen twin _ := twin.sight _
  keep twin _ _ := (twin.step _).twin

/-- Two sessions that differ in their diagnostic sinks, if they differ, and that do the same steps
but for changes of these sinks, which may come anywhere and be any: of every other step the same
result, the same bytes on the output, the same flag, the same events and the same rest of the input
are seen, and at the end the outputs, the flags and the files are the same. -/
theorem sights_eq_of_twin (h : Twin left right) {steps steps' : List Step}
    (same : steps.filter (!·.isConfigureErr) = steps'.filter (!·.isConfigureErr)) :
    left.sights steps = right.sights steps' ∧
      (left.play steps).2.out = (right.play steps').2.out ∧
      (left.play steps).2.console.flagged = (right.play steps').2.console.flagged ∧
      (left.play steps).2.files = (right.play steps').2.files := by
  obtain ⟨seen, plain, twin, twin'⟩ := masks_twin.observe_eq (Twin.refl right) h
    (fun _ _ => trivial) (fun _ _ => trivial) same
  have both := twin.trans twin'.symm
  exact ⟨seen, both.out, both.flagged, both.files⟩

/-- A diagnostic stream that never fails beside one that breaks within the first diagnostic, is
repaired after a conversation, and cannot be flushed then. The streams differ from the start. -/
theorem sights_eq_of_twin_broken :
    let left : Session := {}
    let right : Session := { console := { sink := { behaviour := { room := some 50 } } } }
    let input : Input := [.data [64, 43, 13], .fault (.system .interruptedCall), .data [10, 35]]
    let steps : List Step :=
      [.dump ['@', '!'], .converse input, .dumpFile [97], .scan ['?'], .takeFlag]
    let steps' : List Step :=
      [.dump ['@', '!'], .converse input, .configureErr { flushFault := some .shortWrite },
        .dumpFile [97], .scan ['?'], .configureErr Sink.full.behaviour, .takeFlag]
    (Twin left right ∧
      steps.filter (!·.isConfigureErr) = steps'.filter (!·.isConfigureErr)) ∧
    left.sights steps = right.sights steps' ∧
    (left.step (.dump ['@', '!'])).2.console.sink.stored ≠
      (right.step (.dump ['@', '!'])).2.console.sink.stored := by
  intro left right input steps steps'
  have twin : Twin left right := ⟨rfl, rfl, rfl⟩
  have same : steps.filter (!·.isConfigureErr) = steps'.filter (!·.isConfigureErr) := rfl
  exact ⟨⟨twin, same⟩, (sights_eq_of_twin twin same).1, by decide +kernel⟩

end TokenDump.Session
