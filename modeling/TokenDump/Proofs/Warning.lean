import TokenDump.Proofs.Flagging
import TokenDump.Proofs.Noninterference

/-!
# Warning

What becomes of the diagnostics where the room of their sink may end. The sink takes the rows of all
that is reported one after another, whoever reports it, and stores what fits of them all. A report
is followed by a warning exactly if the rows up to its own do not fit, so from the first warning on
every report is, and nothing more is stored.

Results:
1. `sink_step`, `sink_play`: the diagnostic sink after some steps.
2. `entries_reported`, `entries_unshown`: what stands next to a report and to a warning.
   `warned_iff`, `warned_behind`: which reports are followed by one.
3. `play_warns`: the sink and the warnings of a session.
-/

namespace TokenDump

/-! ## 1. What a session reports -/

namespace Session

open Console (Act)

variable {session : Session}

theorem isOrdinary_of_mem_trace {step : Step} (constant : step.isConfigureErr = false) {act : Act}
    (h : act ∈ session.trace step) : act.isOrdinary = true := by
  cases step with
  | report | takeFlag =>
    obtain rfl := List.mem_singleton.mp h
    rfl
  | scan source =>
    rcases Act.mem_ofSegments h with ⟨start, rfl⟩ | rfl
    · rfl
    · rfl
  | dump source => exact Act.isOrdinary_of_mem_ofAttempt h
  | dumpFile path =>
    rw [trace] at h
    cases read : session.files.read path with
    | error fault =>
      rw [read] at h
      cases h
    | ok data =>
      rw [read] at h
      rcases List.mem_cons.mp h with rfl | member
      · rfl
      · exact Act.isOrdinary_of_mem_ofAttempt member
  | converse input =>
    obtain ⟨attempt, -, member⟩ := List.mem_flatMap.mp h
    exact Act.isOrdinary_of_mem_ofLine member
  | configureErr behaviour => cases constant
  | configureOut | addFiles => cases h

theorem isOrdinary_of_mem_history {steps : List Step}
    (constant : ∀ step ∈ steps, step.isConfigureErr = false) {act : Act}
    (h : act ∈ session.history steps) : act.isOrdinary = true := by
  induction steps generalizing session with
  | nil => cases h
  | cons step steps ih =>
    obtain ⟨first, others⟩ := List.forall_mem_cons.mp constant
    rcases List.mem_append.mp h with member | member
    · exact isOrdinary_of_mem_trace first member
    · exact ih others member

/-- What some steps report, in order. -/
def reported (session : Session) : List Step → List Diagnostic
  | [] => []
  | step :: steps => session.reports step ++ (session.step step).2.reported steps

theorem filterMap_diagnostic?_history (session : Session) (steps : List Step) :
    (session.history steps).filterMap Act.diagnostic? = session.reported steps := by
  induction steps generalizing session with
  | nil => rfl
  | cons step steps ih =>
    rw [history, List.filterMap_append, filterMap_diagnostic?_trace, ih]
    rfl

/-- A step that does not change the diagnostic sink writes the rows of its reports to it. -/
theorem sink_step {step : Step} (constant : step.isConfigureErr = false) :
    (session.step step).2.console.sink =
      (session.console.sink.write ((session.reports step).flatMap Diagnostic.row)).2 := by
  rw [← filterMap_diagnostic?_trace]
  refine (performs_step session step).sink_eq ?_
  intro behaviour member
  cases isOrdinary_of_mem_trace constant member

theorem sink_play {steps : List Step} (constant : ∀ step ∈ steps, step.isConfigureErr = false) :
    (session.play steps).2.console.sink =
      (session.console.sink.write ((session.reported steps).flatMap Diagnostic.row)).2 := by
  rw [← filterMap_diagnostic?_history]
  refine (performs_play session steps).sink_eq ?_
  intro behaviour member
  cases isOrdinary_of_mem_history constant member

end Session

/-! ## 2. Reports and warnings in the log -/

theorem Diagnostic.length_row_pos (diagnostic : Diagnostic) : 0 < diagnostic.row.length := by
  have feed : 0 < (Utf8.encode ['\n']).length := by decide
  rw [row, Utf8.encode_append, List.length_append]
  omega

/-- Where the room ends within the rows up to some report, the later rows are of no matter. -/
theorem Event.take_rows {events before behind : List Event} {diagnostic : Diagnostic} {limit : Nat}
    (parts : events = before ++ .reported diagnostic :: behind)
    (beyond : limit < ((before.filterMap diagnostic? ++ [diagnostic]).flatMap
      Diagnostic.row).length) :
    ((events.filterMap diagnostic?).flatMap Diagnostic.row).take limit =
      ((before.filterMap diagnostic? ++ [diagnostic]).flatMap Diagnostic.row).take limit := by
  have all : events.filterMap diagnostic? =
      (before.filterMap diagnostic? ++ [diagnostic]) ++ behind.filterMap diagnostic? := by
    rw [parts, List.filterMap_append, List.append_assoc]
    rfl
  rw [all, List.flatMap_append, List.take_append_of_le_length (Nat.le_of_lt beyond)]

namespace Console

/-- Whether a write that comes behind others fits is decided by what has been offered in all. -/
theorem warnings_after {behaviour : Sink.Behaviour} {m n : Nat} (something : 0 < n) :
    warnings (behaviour.after m) n = warnings behaviour (m + n) := by
  rw [warnings, warnings, Sink.Behaviour.fits_after something]
  rfl

theorem reported_not_mem_warnings (behaviour : Sink.Behaviour) (count : Nat)
    (diagnostic : Diagnostic) : .reported diagnostic ∉ warnings behaviour count := by
  unfold warnings
  split <;> simp

namespace Act

variable {behaviour : Sink.Behaviour} {acts : List Act} {before after : List Event}

/-- The rows of all that some acts report. -/
def rows (acts : List Act) : List UInt8 :=
  (acts.filterMap diagnostic?).flatMap Diagnostic.row

theorem rows_cons_report (diagnostic : Diagnostic) (acts : List Act) :
    rows (report diagnostic :: acts) = diagnostic.row ++ rows acts := rfl

theorem rows_append (acts acts' : List Act) : rows (acts ++ acts') = rows acts ++ rows acts' := by
  simp [rows]

/-- The reports among the acts are the reports in the log. -/
theorem filterMap_diagnostic?_entries (ordinary : ∀ act ∈ acts, act.isOrdinary = true) :
    (entries behaviour acts).filterMap Event.diagnostic? = acts.filterMap diagnostic? := by
  induction acts generalizing behaviour with
  | nil => rfl
  | cons act acts ih =>
    obtain ⟨first, others⟩ := List.forall_mem_cons.mp ordinary
    cases act with
    | note event =>
      have untold : event.diagnostic? = none := by
        cases event <;> first | rfl | cases first
      rw [entries, List.filterMap_cons_none untold, ih others]
      rfl
    | report diagnostic =>
      have silent :
          (warnings behaviour diagnostic.row.length).filterMap Event.diagnostic? = [] := by
        unfold warnings
        split <;> rfl
      show diagnostic :: (_ ++ _ : List Event).filterMap Event.diagnostic? = _
      rw [List.filterMap_append, silent, ih others]
      rfl
    | takeFlag answer => exact ih others
    | configure behaviour => cases first

/-- Acts do not begin with a warning. -/
theorem head?_entries_ne (ordinary : ∀ act ∈ acts, act.isOrdinary = true) (cause : Fault) :
    (entries behaviour acts).head? ≠ some (.unshown cause) := by
  induction acts generalizing behaviour with
  | nil => simp [entries]
  | cons act acts ih =>
    obtain ⟨first, others⟩ := List.forall_mem_cons.mp ordinary
    cases act with
    | note event =>
      rintro begins
      cases begins
      cases first
    | report diagnostic => simp [entries]
    | takeFlag answer => exact ih others
    | configure behaviour => cases first

/-- A report is followed by a warning exactly if the rows up to its own do not fit. -/
theorem entries_reported (ordinary : ∀ act ∈ acts, act.isOrdinary = true) {diagnostic : Diagnostic}
    (parts : entries behaviour acts = before ++ .reported diagnostic :: after) :
    ∃ earlier later, acts = earlier ++ report diagnostic :: later ∧
      before = entries behaviour earlier ∧
      ∃ behaviour', after =
        warnings behaviour (rows (earlier ++ [report diagnostic])).length ++
          entries behaviour' later := by
  induction acts generalizing behaviour before with
  | nil => simp [entries] at parts
  | cons act acts ih =>
    obtain ⟨first, others⟩ := List.forall_mem_cons.mp ordinary
    cases act with
    | note event =>
      cases before with
      | nil =>
        cases parts
        cases first
      | cons noted before =>
        obtain ⟨rfl, behind⟩ := List.cons.inj parts
        obtain ⟨earlier, later, rfl, rfl, behaviour', rfl⟩ := ih others behind
        exact ⟨note event :: earlier, later, rfl, rfl, behaviour', rfl⟩
    | report told =>
      cases before with
      | nil =>
        cases parts
        refine ⟨[], acts, rfl, rfl, behaviour.after diagnostic.row.length, ?_⟩
        rw [List.nil_append, rows_cons_report, show rows [] = [] from rfl, List.append_nil]
      | cons reported before =>
        obtain ⟨rfl, behind⟩ := List.cons.inj parts
        obtain ⟨more, rfl, onward⟩ :=
          exists_of_append_eq behind (reported_not_mem_warnings _ _ _)
        obtain ⟨earlier, later, rfl, rfl, behaviour', rfl⟩ := ih others onward
        refine ⟨report told :: earlier, later, rfl, rfl, behaviour', ?_⟩
        have something : 0 < (rows (earlier ++ [report diagnostic])).length := by
          rw [rows_append, rows_cons_report, List.length_append, List.length_append]
          have row := diagnostic.length_row_pos
          omega
        rw [warnings_after something, List.cons_append, rows_cons_report, List.length_append]
    | takeFlag answer =>
      obtain ⟨earlier, later, rfl, rfl, behaviour', rfl⟩ := ih others parts
      exact ⟨takeFlag answer :: earlier, later, rfl, rfl, behaviour', rfl⟩
    | configure behaviour => cases first

/-- A warning stands right behind a report and tells why a write fails. -/
theorem entries_unshown (ordinary : ∀ act ∈ acts, act.isOrdinary = true) {cause : Fault}
    (parts : entries behaviour acts = before ++ .unshown cause :: after) :
    cause = behaviour.writeFault ∧
      ∃ front diagnostic, before = front ++ [.reported diagnostic] := by
  induction acts generalizing behaviour before with
  | nil => simp [entries] at parts
  | cons act acts ih =>
    obtain ⟨first, others⟩ := List.forall_mem_cons.mp ordinary
    cases act with
    | note event =>
      cases before with
      | nil =>
        cases parts
        cases first
      | cons noted before =>
        obtain ⟨same, front, diagnostic, rfl⟩ := ih others (List.cons.inj parts).2
        exact ⟨same, noted :: front, diagnostic, rfl⟩
    | report told =>
      cases before with
      | nil => cases parts
      | cons reported before =>
        obtain ⟨rfl, behind⟩ := List.cons.inj parts
        unfold warnings at behind
        split at behind
        · obtain ⟨same, front, diagnostic, rfl⟩ := ih others behind
          exact ⟨same, _ :: front, diagnostic, rfl⟩
        · cases before with
          | nil =>
            cases behind
            exact ⟨rfl, [], told, rfl⟩
          | cons warning before =>
            obtain ⟨same, front, diagnostic, rfl⟩ := ih others (List.cons.inj behind).2
            exact ⟨same, _ :: warning :: front, diagnostic, rfl⟩
    | takeFlag answer => exact ih others parts
    | configure behaviour => cases first

/-- A report is followed by a warning exactly if the rows of all reports up to it do not fit. -/
theorem warned_iff (ordinary : ∀ act ∈ acts, act.isOrdinary = true) {diagnostic : Diagnostic}
    (parts : entries behaviour acts = before ++ .reported diagnostic :: after) :
    after.head? = some (.unshown behaviour.writeFault) ↔
      behaviour.fits ((before.filterMap Event.diagnostic? ++ [diagnostic]).flatMap
        Diagnostic.row).length = false := by
  obtain ⟨earlier, later, rfl, rfl, behaviour', rfl⟩ := entries_reported ordinary parts
  obtain ⟨ordinary, others⟩ := List.forall_mem_append.mp ordinary
  have silent := @head?_entries_ne behaviour' later (List.forall_mem_cons.mp others).2
  have upTo : ((entries behaviour earlier).filterMap Event.diagnostic? ++ [diagnostic]).flatMap
      Diagnostic.row = rows (earlier ++ [report diagnostic]) := by
    rw [filterMap_diagnostic?_entries ordinary, rows, List.filterMap_append]
    rfl
  rw [upTo, warnings]
  cases behaviour.fits (rows (earlier ++ [report diagnostic])).length with
  | true => exact iff_of_false (silent _) Bool.noConfusion
  | false => exact iff_of_true rfl rfl

/-- Behind a report up to which the rows do not fit, every report is followed by a warning. -/
theorem warned_behind (ordinary : ∀ act ∈ acts, act.isOrdinary = true)
    {diagnostic other : Diagnostic} {between rest : List Event}
    (parts : entries behaviour acts =
      before ++ .reported diagnostic :: (between ++ .reported other :: rest))
    (excess : behaviour.fits ((before.filterMap Event.diagnostic? ++ [diagnostic]).flatMap
      Diagnostic.row).length = false) :
    rest.head? = some (.unshown behaviour.writeFault) := by
  rw [← List.cons_append, ← List.append_assoc] at parts
  have more : (before ++ .reported diagnostic :: between).filterMap Event.diagnostic? ++ [other] =
      (before.filterMap Event.diagnostic? ++ [diagnostic]) ++
        (between.filterMap Event.diagnostic? ++ [other]) := by
    simp [Event.diagnostic?]
  rw [warned_iff ordinary parts, more, List.flatMap_append, List.length_append, Bool.eq_false_iff]
  intro fits
  rw [(Sink.Behaviour.fits_add.mp fits).1] at excess
  cases excess

/-- Without an end of room there are no warnings. -/
theorem unshown_not_mem_entries (ordinary : ∀ act ∈ acts, act.isOrdinary = true)
    (endless : behaviour.room = none) (cause : Fault) :
    .unshown cause ∉ entries behaviour acts := by
  intro member
  obtain ⟨before, behind, parts⟩ := List.append_of_mem member
  obtain ⟨rfl, front, diagnostic, rfl⟩ := entries_unshown ordinary parts
  rw [List.append_assoc] at parts
  have excess := (warned_iff ordinary parts).mp rfl
  rw [Sink.Behaviour.fits, endless] at excess
  cases excess

end Act

end Console

/-! ## 3. The sink and the warnings of a session -/

namespace Session

open Console (Act)

/-- The diagnostic stream of a session that does not change its sink. All that is reported, in
order, makes the rows `rows`:

* without an end of room all rows are stored, and there is no warning;
* else as much of the rows is stored as there is room, and a report is followed at once by a warning
  with the fault of the sink exactly if the rows up to its own are longer than that;
* behind such a report nothing more is stored, and every later report is followed by a warning;
* there are no other warnings.

Flushes of the sink have no part in this. -/
theorem play_warns (session : Session) {steps : List Step}
    (constant : ∀ step ∈ steps, step.isConfigureErr = false) :
    let fault := session.console.sink.behaviour.writeFault
    let stored := session.console.sink.stored.toList
    let after := (session.play steps).2.console
    let rows := (session.reported steps).flatMap Diagnostic.row
    ∃ events, after.log.toList = session.console.log.toList ++ events ∧
      events.filterMap Event.diagnostic? = session.reported steps ∧
      (session.console.sink.behaviour.room = none →
        after.sink.stored.toList = stored ++ rows ∧ ∀ cause, .unshown cause ∉ events) ∧
      (∀ limit, session.console.sink.behaviour.room = some limit →
        after.sink.stored.toList = stored ++ rows.take limit ∧
        ∀ before diagnostic behind, events = before ++ .reported diagnostic :: behind →
          let upTo := (before.filterMap Event.diagnostic? ++ [diagnostic]).flatMap Diagnostic.row
          (behind.head? = some (.unshown fault) ↔ limit < upTo.length) ∧
          (limit < upTo.length → rows.take limit = upTo.take limit ∧
            ∀ between other rest, behind = between ++ .reported other :: rest →
              rest.head? = some (.unshown fault))) ∧
      (∀ before cause behind, events = before ++ .unshown cause :: behind →
        cause = fault ∧ ∃ front diagnostic, before = front ++ [.reported diagnostic]) ∧
      (Event.unshown fault).fields =
        [("message", .text "failed to write diagnostic"), ("err", .text fault.text)] := by
  intro fault stored after rows
  have ordinary : ∀ act ∈ session.history steps, act.isOrdinary = true :=
    fun act => isOrdinary_of_mem_history constant
  have log := (performs_play session steps).log_eq
  have sink : after.sink = (session.console.sink.write rows).2 := sink_play constant
  have told : (Act.entries session.console.sink.behaviour (session.history steps)).filterMap
      Event.diagnostic? = session.reported steps := by
    rw [Act.filterMap_diagnostic?_entries ordinary, filterMap_diagnostic?_history]
  refine ⟨_, log, told, ?_, ?_, ?_, rfl⟩
  · intro room
    refine ⟨?_, Act.unshown_not_mem_entries ordinary room⟩
    rw [sink, Sink.stored_write, Sink.Behaviour.accepted, room]
  · intro limit room
    have fits (count : Nat) :
        session.console.sink.behaviour.fits count = false ↔ limit < count := by
      rw [Sink.Behaviour.fits, room, decide_eq_false_iff_not, Nat.not_le]
    refine ⟨?_, ?_⟩
    · rw [sink, Sink.stored_write, Sink.Behaviour.accepted, room]
    intro before diagnostic behind parts upTo
    refine ⟨(Act.warned_iff ordinary parts).trans (fits _), ?_⟩
    intro beyond
    refine ⟨?_, ?_⟩
    · show ((session.reported steps).flatMap Diagnostic.row).take limit = _
      rw [← told]
      exact Event.take_rows parts beyond
    · rintro between other rest rfl
      exact Act.warned_behind ordinary parts ((fits _).mpr beyond)
  · intro before cause behind parts
    exact Act.entries_unshown ordinary parts

/-- The room ends within the second row, between a report of its own and those of a source whose
tokens cannot be shown either. -/
theorem play_warns_within_row :
    let broken : Fault := .plain .brokenPipe
    let session : Session := {
      out := .full
      console := { sink := { behaviour :=
        { room := some 100, writeFault := broken, flushFault := some .shortWrite } } } }
    let steps : List Step := [.report ⟨7, " at end", "Oops."⟩, .dump ['@', '+', '@'], .takeFlag]
    let reported : List Diagnostic :=
      [⟨7, " at end", "Oops."⟩, .strayCharacter, .strayCharacter]
    (∀ step ∈ steps, step.isConfigureErr = false) ∧
    (session.play steps).2.console.sink.stored.toList =
      (reported.flatMap Diagnostic.row).take 100 ∧
    ((reported.take 1).flatMap Diagnostic.row).length = 74 ∧
    ((reported.take 2).flatMap Diagnostic.row).length = 157 ∧
    ∃ events, (session.play steps).2.console.log.toList = events ∧
      events.filterMap Event.diagnostic? = reported ∧
      ∀ before diagnostic behind, events = before ++ .reported diagnostic :: behind →
        (behind.head? = some (.unshown broken) ↔
          100 < ((before.filterMap Event.diagnostic? ++ [diagnostic]).flatMap
            Diagnostic.row).length) := by
  intro broken session steps reported
  have constant : ∀ step ∈ steps, step.isConfigureErr = false := by decide
  obtain ⟨events, log, told, -, limited, -⟩ := play_warns session constant
  obtain ⟨stored, warned⟩ := limited 100 rfl
  refine ⟨constant, stored, by decide +kernel, by decide +kernel, events, log, told, ?_⟩
  intro before diagnostic behind parts
  exact (warned before diagnostic behind parts).1

end Session

end TokenDump
