import TokenDump.Proofs.Stopping

/-!
# Isolating

When the flag of one source is taken for that of another. Every source starts with the flag down if
all sources before it were shown. But a source whose tokens could not be delivered leaves the flag
as it is, so the diagnostics of that source are due until the next source is shown, however long
that takes, and that one answers for both.

Results:
1. `due_append_iff`, `due_append_ofSource_iff`: what is due after two parts of a history.
2. `Act.Reflects`, `reflects_flatMap_ofLine`: what is due after some acts, as what is overdue of the
   sources that were tried. `overdue_append_iff`: sources and more sources.
3. `reflects_trace`, `reflects_history`: the steps of a session. `not_failed_of_attempts_eq`: a
   conversation goes on only after lines that were shown.
4. `flag_after_failures`: the flag and every answer, by the sources that were tried before.
   `flag_leaks`: a source without a stray character that answers yes.
-/

namespace TokenDump

open Session (Attempt)

/-! ## 1. Two parts of a history -/

namespace Console.Act

variable {acts acts' : List Act}

/-- Something is due after both parts if it is after the second, or if it is after the first and the
flag was not taken in the second. -/
theorem due_append_iff : Due (acts ++ acts') ↔ Due acts' ∨ (Due acts ∧ Untaken acts') := by
  induction acts with
  | nil => exact (or_iff_left fun both => not_due_nil both.1).symm
  | cons act acts ih =>
    rw [List.cons_append, due_cons_iff, due_cons_iff, ih, untaken_append_iff]
    constructor
    · rintro ((due | due) | ⟨reports, kept, kept'⟩)
      · exact .inl due
      · exact .inr ⟨.inl due.1, due.2⟩
      · exact .inr ⟨.inr ⟨reports, kept⟩, kept'⟩
    · rintro (due | ⟨due | ⟨reports, kept⟩, kept'⟩)
      · exact .inl (.inl due)
      · exact .inl (.inr ⟨due, kept'⟩)
      · exact .inr ⟨reports, kept, kept'⟩

theorem not_due_append_takeFlag (acts : List Act) (answer : Bool) :
    ¬ Due (acts ++ [takeFlag answer]) := by
  rw [due_append_iff, due_cons_iff]
  rintro ((due | ⟨reports, -⟩) | ⟨-, kept⟩)
  · exact not_due_nil due
  · cases reports
  · exact kept answer List.mem_cons_self

/-- Where the flag is not taken, whatever is reported is due. -/
theorem due_iff_of_untaken (kept : Untaken acts) : Due acts ↔ acts.filterMap diagnostic? ≠ [] := by
  induction acts with
  | nil => exact iff_of_false not_due_nil (not_not_intro rfl)
  | cons act acts ih =>
    have later := (untaken_cons_iff.mp kept).2
    rw [due_cons_iff, ih later, and_iff_left later, List.filterMap_cons]
    cases act.diagnostic? <;> simp

theorem untaken_ofSource (source : List Char) : Untaken (ofSource source) := by
  intro answer member
  rcases mem_ofSegments member with ⟨start, same⟩ | same
  · cases same
  · cases same

theorem due_ofSource_iff {source : List Char} :
    Due (ofSource source) ↔ ∃ c ∈ source, c ∉ Symbol.alphabet := by
  rw [due_iff_of_untaken (untaken_ofSource source), filterMap_diagnostic?_ofSource, ne_eq,
    List.replicate_eq_nil_iff, ← ne_eq, ← Nat.pos_iff_ne_zero, List.countP_pos_iff]
  simp only [decide_eq_true_eq]

theorem due_append_ofSource_iff {source : List Char} :
    Due (acts ++ ofSource source) ↔ (∃ c ∈ source, c ∉ Symbol.alphabet) ∨ Due acts := by
  rw [due_append_iff, due_ofSource_iff, and_iff_left (untaken_ofSource source)]

end Console.Act

/-! ## 2. Sources that were tried -/

namespace Session.Attempt

/-- A character of the source is outside the alphabet. -/
def Stray (attempt : Attempt) : Prop :=
  ∃ c ∈ attempt.source, c ∉ Symbol.alphabet

/-- The tokens of the source could not be delivered. -/
def Failed (attempt : Attempt) : Prop :=
  ∃ fault, attempt.result = .error fault

/-- A source had a stray character, and its tokens could not be delivered, nor those of any source
behind it. -/
def Overdue (attempts : List Attempt) : Prop :=
  ∃ before attempt later, attempts = before ++ attempt :: later ∧ attempt.Stray ∧ attempt.Failed ∧
    ∀ other ∈ later, other.Failed

variable {attempt : Attempt} {attempts attempts' : List Attempt}

theorem not_overdue_nil : ¬ Overdue [] := by
  rintro ⟨before, attempt, later, parts, -⟩
  simp at parts

theorem overdue_cons_iff :
    Overdue (attempt :: attempts) ↔
      Overdue attempts ∨ (attempt.Stray ∧ attempt.Failed ∧ ∀ other ∈ attempts, other.Failed) := by
  constructor
  · rintro ⟨before, tried, later, parts, stray, failed⟩
    cases before with
    | nil =>
      obtain ⟨rfl, rfl⟩ := List.cons.inj parts
      exact .inr ⟨stray, failed⟩
    | cons _ before =>
      obtain ⟨rfl, rfl⟩ := List.cons.inj parts
      exact .inl ⟨before, tried, later, rfl, stray, failed⟩
  · rintro (⟨before, tried, later, rfl, stray, failed⟩ | ⟨stray, failed⟩)
    · exact ⟨attempt :: before, tried, later, rfl, stray, failed⟩
    · exact ⟨[], attempt, attempts, rfl, stray, failed⟩

theorem Overdue.exists_failed (h : Overdue attempts) : ∃ attempt ∈ attempts, attempt.Failed := by
  obtain ⟨before, attempt, later, rfl, -, failed, -⟩ := h
  exact ⟨attempt, List.mem_append_right _ List.mem_cons_self, failed⟩

/-- Nothing is overdue right behind a source that was shown. -/
theorem Overdue.failed_of_getLast? (h : Overdue attempts)
    (last : attempts.getLast? = some attempt) : attempt.Failed := by
  obtain ⟨before, tried, later, rfl, -, failed, failures⟩ := h
  have member : attempt ∈ tried :: later := by
    rw [List.getLast?_append, List.getLast?_cons, Option.some_or, ← List.getLast?_cons] at last
    exact List.mem_of_getLast? last
  rcases List.mem_cons.mp member with rfl | behind
  · exact failed
  · exact failures attempt behind

end Session.Attempt

namespace Console.Act

open Session.Attempt (Overdue)

theorem untaken_ofAttempt_iff {attempt : Attempt} :
    Untaken (ofAttempt attempt) ↔ attempt.Failed := by
  obtain ⟨source, fault | answer⟩ := attempt
  · refine iff_of_true ?_ ⟨fault, rfl⟩
    rw [ofAttempt, untaken_append_iff, untaken_note_cons]
    exact ⟨untaken_ofSource source, untaken_nil⟩
  · refine iff_of_false ?_ ?_
    · intro kept
      exact kept answer (List.mem_append_right _ (List.mem_cons_of_mem _ List.mem_cons_self))
    · rintro ⟨fault, failed⟩
      cases failed

/-- What a source leaves due is its own diagnostics, unless it was shown. -/
theorem due_ofAttempt_iff {attempt : Attempt} :
    Due (ofAttempt attempt) ↔ attempt.Stray ∧ attempt.Failed := by
  obtain ⟨source, fault | answer⟩ := attempt
  · have failed : Attempt.Failed ⟨source, .error fault⟩ := ⟨fault, rfl⟩
    rw [ofAttempt, due_append_note_append, List.append_nil, due_ofSource_iff, and_iff_left failed]
    exact Iff.rfl
  · refine iff_of_false ?_ ?_
    · rw [ofAttempt, due_append_note_append]
      exact not_due_append_takeFlag _ answer
    · rintro ⟨-, fault, failed⟩
      cases failed

/-- That a line was flagged is an event like any other. -/
theorem due_ofLine_iff {attempt : Attempt} :
    Due (ofLine attempt) ↔ attempt.Stray ∧ attempt.Failed := by
  rw [← due_ofAttempt_iff]
  obtain ⟨source, fault | _ | _⟩ := attempt
  · rw [ofLine, List.append_nil]
  · rw [ofLine, List.append_nil]
  · rw [ofLine, due_append_note_append, List.append_nil]

theorem untaken_ofLine_iff {attempt : Attempt} : Untaken (ofLine attempt) ↔ attempt.Failed := by
  rw [← untaken_ofAttempt_iff, ofLine, untaken_append_iff]
  refine and_iff_left ?_
  split
  · exact untaken_note_cons.mpr untaken_nil
  · exact untaken_nil

/-- What some acts leave due is what is overdue of the sources that were tried by them. -/
structure Reflects (acts : List Act) (attempts : List Attempt) : Prop where
  due : Due acts ↔ Overdue attempts
  untaken : Untaken acts ↔ ∀ attempt ∈ attempts, attempt.Failed

theorem reflects_nil : Reflects [] [] where
  due := iff_of_false not_due_nil Session.Attempt.not_overdue_nil
  untaken := iff_of_true untaken_nil (List.forall_mem_nil _)

theorem reflects_flatMap_ofLine (attempts : List Attempt) :
    Reflects (attempts.flatMap ofLine) attempts := by
  induction attempts with
  | nil => exact reflects_nil
  | cons attempt attempts ih =>
    refine ⟨?_, ?_⟩
    · rw [List.flatMap_cons, due_append_iff, ih.due, ih.untaken, due_ofLine_iff,
        Session.Attempt.overdue_cons_iff, and_assoc]
    · rw [List.flatMap_cons, untaken_append_iff, untaken_ofLine_iff, ih.untaken,
        List.forall_mem_cons]

end Console.Act

open Console (Act)

/-- What is overdue after sources and more sources. -/
theorem Session.Attempt.overdue_append_iff {attempts attempts' : List Attempt} :
    Overdue (attempts ++ attempts') ↔
      Overdue attempts' ∨ (Overdue attempts ∧ ∀ attempt ∈ attempts', attempt.Failed) := by
  have left := Act.reflects_flatMap_ofLine attempts
  have right := Act.reflects_flatMap_ofLine attempts'
  rw [← (Act.reflects_flatMap_ofLine (attempts ++ attempts')).due, List.flatMap_append,
    Act.due_append_iff, left.due, right.due, right.untaken]

namespace Console.Act

variable {acts acts' : List Act}

theorem Reflects.append {attempts attempts' : List Attempt} (h : Reflects acts attempts)
    (h' : Reflects acts' attempts') : Reflects (acts ++ acts') (attempts ++ attempts') where
  due := by rw [due_append_iff, Session.Attempt.overdue_append_iff, h.due, h'.due, h'.untaken]
  untaken := by rw [untaken_append_iff, List.forall_mem_append, h.untaken, h'.untaken]

theorem reflects_ofAttempt (attempt : Attempt) : Reflects (ofAttempt attempt) [attempt] where
  due := by
    rw [due_ofAttempt_iff, Session.Attempt.overdue_cons_iff,
      or_iff_right Session.Attempt.not_overdue_nil]
    simp
  untaken := by rw [untaken_ofAttempt_iff, List.forall_mem_singleton]

/-- An event makes no difference. -/
theorem Reflects.note {attempts : List Attempt} (h : Reflects acts attempts) (event : Event) :
    Reflects (note event :: acts) attempts where
  due := (@due_append_note_append [] acts event).trans h.due
  untaken := untaken_note_cons.trans h.untaken

end Console.Act

/-! ## 3. The sources of a session -/

namespace Session

open Attempt (Overdue)

theorem not_failed_of_answer {asked answered : Session} {line : Line}
    (answer : asked.answer line = (.ok (), answered)) :
    ¬ Attempt.Failed ⟨line.text, (asked.dump line.text).1⟩ := by
  rintro ⟨fault, failed⟩
  rw [answer_eq] at answer
  generalize asked.dump line.text = done at answer failed
  obtain ⟨result, after⟩ := done
  cases failed
  cases answer

/-- A conversation goes on to a line only if all lines before it were shown. -/
theorem not_failed_of_attempts_eq {session : Session} {lines : List Line}
    {before later : List Attempt} {attempt : Attempt}
    (parts : session.attempts lines = before ++ attempt :: later) :
    ∀ earlier ∈ before, ¬ earlier.Failed := by
  induction lines generalizing session before with
  | nil =>
    rw [attempts] at parts
    simp at parts
  | cons line lines ih =>
    rw [attempts] at parts
    generalize session.invite = invited at parts
    rcases invited with ⟨fault | ⟨⟩, asked⟩
    · simp at parts
    · dsimp only at parts
      cases before with
      | nil => exact List.forall_mem_nil _
      | cons first before =>
        obtain ⟨rfl, behind⟩ := List.cons.inj parts
        rcases answer : asked.answer line with ⟨fault | ⟨⟩, answered⟩
        · rw [answer] at behind
          simp at behind
        · rw [answer] at behind
          exact List.forall_mem_cons.mpr ⟨not_failed_of_answer answer, ih behind⟩

/-- Whether a step is a source, a script, a conversation or a change of what is around the session.
What is done to the console otherwise is done within one of these. -/
def Step.isRequest : Step → Bool
  | .dump _ | .dumpFile _ | .converse _ | .configureOut _ | .configureErr _ | .addFiles _ => true
  | .report _ | .takeFlag | .scan _ => false

/-- The sources that a step tries to show. -/
def tries (session : Session) : Step → List Attempt
  | .dump source => [⟨source, (session.dump source).1⟩]
  | .dumpFile path =>
    match session.files.read path with
    | .error _ => []
    | .ok data =>
      let noted := session.note (scriptNote path data)
      [⟨Utf8.lenient data, (noted.dump (Utf8.lenient data)).1⟩]
  | .converse input => session.attempts input.readAll.lines
  | .report _ | .takeFlag | .scan _ | .configureOut _ | .configureErr _ | .addFiles _ => []

/-- The sources that some steps try to show. -/
def tried (session : Session) : List Step → List Attempt
  | [] => []
  | step :: steps => session.tries step ++ (session.step step).2.tried steps

theorem reflects_trace (session : Session) {step : Step} (requested : step.isRequest = true) :
    Act.Reflects (session.trace step) (session.tries step) := by
  cases step with
  | dump source => exact Act.reflects_ofAttempt _
  | dumpFile path =>
    rw [trace, tries]
    cases session.files.read path with
    | error fault => exact Act.reflects_nil
    | ok data => exact (Act.reflects_ofAttempt _).note _
  | converse input => exact Act.reflects_flatMap_ofLine _
  | configureErr behaviour =>
    refine ⟨iff_of_false ?_ Attempt.not_overdue_nil, iff_of_true ?_ (List.forall_mem_nil _)⟩
    · rw [trace, Act.due_cons_iff]
      rintro (due | ⟨reports, -⟩)
      · exact Act.not_due_nil due
      · cases reports
    · rw [trace, Act.untaken_cons_iff]
      exact ⟨fun answer => Act.noConfusion, Act.untaken_nil⟩
  | configureOut | addFiles => exact Act.reflects_nil
  | report | takeFlag | scan => cases requested

theorem reflects_history {session : Session} {steps : List Step}
    (requested : ∀ step ∈ steps, step.isRequest = true) :
    Act.Reflects (session.history steps) (session.tried steps) := by
  induction steps generalizing session with
  | nil => exact Act.reflects_nil
  | cons step steps ih =>
    obtain ⟨first, others⟩ := List.forall_mem_cons.mp requested
    exact (reflects_trace session first).append (ih others)

/-! ## 4. The flag and what it answers -/

/-- The flag of a session that began as a new one, after any sources, scripts, conversations and
changes of its sinks and files. A source is overdue if it had a stray character and its tokens could
not be delivered, nor those of any source since:

* the flag is up exactly if a source is overdue;
* none is, unless the last source could not be delivered;
* a source that is shown answers yes exactly if it has a stray character or an earlier source is
  overdue, and so does a script;
* a conversation tries the lines of its input in order, and its events are those of these lines; a
  line is noted exactly if it answers yes, and that is if it has a stray character, or if it is the
  first one and an earlier source is overdue. -/
theorem flag_after_failures (out err : Sink) (files : FileTree) {steps : List Step}
    (requested : ∀ step ∈ steps, step.isRequest = true) :
    let created := fresh out err files
    let past := created.tried steps
    let now := (created.play steps).2
    (now.console.flagged = true ↔ Overdue past) ∧
    (∀ attempt, past.getLast? = some attempt → ¬ attempt.Failed → ¬ Overdue past) ∧
    (∀ source answer, (now.dump source).1 = .ok answer →
      (answer = true ↔ (∃ c ∈ source, c ∉ Symbol.alphabet) ∨ Overdue past)) ∧
    (∀ path data answer, now.files.read path = .ok data → (now.dumpFile path).1 = .ok answer →
      (answer = true ↔ (∃ c ∈ Utf8.lenient data, c ∉ Symbol.alphabet) ∨ Overdue past)) ∧
    ∀ input : Input,
      let attempts := now.attempts input.readAll.lines
      attempts.map Attempt.source <+: input.texts ∧
      (now.converse input).2.1.console.log.toList = now.console.log.toList ++
        Act.entries now.console.sink.behaviour (attempts.flatMap Act.ofLine) ∧
      ∀ before attempt later, attempts = before ++ attempt :: later →
        (.note .lineFlagged ∈ Act.ofLine attempt ↔ attempt.result = .ok true) ∧
        ∀ answer, attempt.result = .ok answer →
          (answer = true ↔ attempt.Stray ∨ (before = [] ∧ Overdue past)) := by
  intro created past now
  have down : created.console.flagged = false := rfl
  have played : created.console.Performs (created.history steps) now.console :=
    performs_play created steps
  have reflects : Act.Reflects (created.history steps) past := reflects_history requested
  refine ⟨?_, ?_, ?_, ?_, ?_⟩
  · exact (played.flagged_iff_due down).trans reflects.due
  · intro attempt last shown overdue
    exact shown (overdue.failed_of_getLast? last)
  · intro source answer answered
    rw [dump_answer_iff_due down played answered, Act.due_append_ofSource_iff, reflects.due]
  · intro path data answer readable answered
    rw [dumpFile_answer_iff_due down played readable answered, Act.due_append_ofSource_iff,
      reflects.due]
  · intro input attempts
    refine ⟨?_, (performs_converse now input).log_eq, ?_⟩
    · rw [sources_attempts]
      exact List.take_prefix _ _
    · intro before attempt later parts
      refine ⟨Act.lineFlagged_mem_ofLine_iff, ?_⟩
      intro answer answered
      obtain ⟨source, result⟩ := attempt
      cases answered
      -- The lines before were all shown, so if there are any, nothing is overdue.
      have shown := not_failed_of_attempts_eq parts
      have upTo := reflects.append (Act.reflects_flatMap_ofLine before)
      rw [line_answer_iff_due down played parts, Act.due_append_ofSource_iff, upTo.due]
      refine or_congr_right ?_
      cases before with
      | nil => rw [List.append_nil, and_iff_right rfl]
      | cons first before =>
        refine iff_of_false ?_ fun both => List.cons_ne_nil _ _ both.1
        intro overdue
        rcases Attempt.overdue_append_iff.mp overdue with late | ⟨-, failures⟩
        · obtain ⟨earlier, member, failed⟩ := late.exists_failed
          exact shown earlier member failed
        · exact shown first List.mem_cons_self (failures first List.mem_cons_self)

/-- Two sources cannot be shown, and only the first one has a stray character; in between the
diagnostic stream changes. Then there is room, and the next source answers yes, whatever it is. -/
theorem flag_after_failures_twice :
    let files := FileTree.fresh.put [97] (.file [64])
    let created := fresh .full {} files
    let steps : List Step := [.dumpFile [97], .configureErr Sink.full.behaviour, .dump ['+'],
      .configureOut {}]
    let now := (created.play steps).2
    (∀ step ∈ steps, step.isRequest = true) ∧
    Overdue (created.tried steps) ∧
    (∀ source answer, (now.dump source).1 = .ok answer → answer = true) ∧
    (now.dump ['+']).1 = .ok true ∧
    ¬ Overdue (created.tried (steps ++ [.dump ['+']])) := by
  intro files created steps now
  have requested : ∀ step ∈ steps, step.isRequest = true := by decide
  obtain ⟨flagged, -, answers, -⟩ := flag_after_failures .full {} files requested
  have overdue : Overdue (created.tried steps) := flagged.mp rfl
  have requested' : ∀ step ∈ steps ++ [.dump ['+']], step.isRequest = true := by decide
  obtain ⟨-, settled, -⟩ := flag_after_failures .full {} files requested'
  refine ⟨requested, overdue, ?_, rfl, ?_⟩
  · intro source answer answered
    exact (answers source answer answered).mpr (.inr overdue)
  · refine settled ⟨['+'], .ok true⟩ rfl ?_
    rintro ⟨fault, failed⟩
    cases failed

/-- Nothing is shown of the first source, which has a stray character. Then there is room, and a
source without one answers yes, and so does a line. -/
theorem flag_leaks :
    let created := fresh { behaviour := { room := some 0 } } {} .fresh
    let steps : List Step := [.dump ['@'], .configureOut {}]
    let now := (created.play steps).2
    (∀ step ∈ steps, step.isRequest = true) ∧
    ¬ (∃ c ∈ ['+'], c ∉ Symbol.alphabet) ∧
    (now.dump ['+']).1 = .ok true ∧
    (now.converse [.data [43, 10]]).1 = .ok () ∧
    .lineFlagged ∈ (now.converse [.data [43, 10]]).2.1.console.log.toList := by
  intro created steps now
  have read : Input.readAll [.data [43, 10]] = ⟨[[43, 10]], .ok (), []⟩ := by
    rw [Input.readAll_of_line rfl (by decide), Input.readAll_of_nil rfl]
    rfl
  obtain ⟨left, conversed, -⟩ := converse_attend now [.data [43, 10]]
  rw [read] at conversed
  refine ⟨by decide, ?_, rfl, ?_, ?_⟩
  · rintro ⟨c, member, stray⟩
    obtain rfl := List.mem_singleton.mp member
    exact stray (by decide)
  · rw [conversed]
    rfl
  · rw [conversed]
    dsimp only
    decide +kernel

end Session

end TokenDump
