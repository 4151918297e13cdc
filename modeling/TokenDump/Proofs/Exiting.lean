import TokenDump.CommandLine
import TokenDump.Proofs.Truncating

/-!
# Exiting

How the program ends when each of its streams either takes everything or has no space at all
(`Device`). A diagnostic that cannot be shown does no harm, but the message that ends the program
does: it aborts if the device for that message is full (`Outcome.EndsOn`). Which message this is
depends on what fails first. A script that cannot be read fails before anything is shown, a script
on a full output once all its diagnostics are told, and a conversation at its first invitation.

Results:
1. `explain_endsOn`, `giveUp_endsOn`: the message that ends the program.
2. `unreadable_endsOn`, `script_endsOn`, `script_code?`: a script.
3. `uninvited_endsOn`, `conversation_endsOn`, `conversation_code?`: a conversation.
4. `run_exit_status`: the program.
-/

namespace TokenDump.CommandLine

/-! ## 1. The message that ends the program -/

/-- What a standard stream is connected to. -/
inductive Device where
  /-- It takes everything. -/
  | whole
  /-- It has no space left. -/
  | full
deriving DecidableEq, Repr

/-- A device to which nothing has been written yet. -/
def Device.sink : Device → Sink
  | whole => {}
  | full => .full

theorem Device.stored_sink (device : Device) : device.sink.stored = #[] := by
  cases device <;> rfl

theorem Device.takes_whole (count : Nat) : whole.sink.Takes count :=
  Sink.Reliable.takes ⟨rfl, rfl⟩ count

theorem Device.write_whole (bytes : List UInt8) :
    whole.sink.write bytes = (.ok (), { whole.sink with stored := bytes.toArray }) := by
  simp [sink, Sink.write, Sink.Behaviour.fits, Sink.Behaviour.accepted, Sink.Behaviour.after]

/-- A full device stays as it is. -/
theorem Device.write_full_snd (bytes : List UInt8) :
    (full.sink.write bytes).2 = full.sink := by
  simp [sink, Sink.full, Sink.write, Sink.Behaviour.accepted, Sink.Behaviour.after]

theorem Device.fits_full {bytes : List UInt8} (something : bytes ≠ []) :
    full.sink.behaviour.fits bytes.length = false :=
  decide_eq_false (Nat.not_le_of_lt (List.length_pos_iff.mpr something))

theorem Device.write_full {bytes : List UInt8} (something : bytes ≠ []) :
    full.sink.write bytes = (.error (.system .noSpaceLeft), full.sink) := by
  refine Prod.ext ?_ (write_full_snd bytes)
  rw [Sink.write_fst, fits_full something]
  rfl

/-- The number of the code that the program exits with; none if it aborts. -/
def Outcome.code? : Outcome → Option Nat
  | exited code _ => some code.number
  | aborted => none

/-- The program exits with this code, and has shown and told these bytes. -/
def Outcome.Ends (code : Nat) (shown told : List UInt8) : Outcome → Prop
  | exited status session =>
    status.number = code ∧ session.out.stored.toList = shown ∧
      session.console.sink.stored.toList = told
  | aborted => False

/-- The program exits with this code, having shown and told these bytes, unless the device is full,
and then it aborts. -/
structure Outcome.EndsOn (outcome : Outcome) (device : Device) (code : Nat)
    (shown told : List UInt8) : Prop where
  aborted : outcome = .aborted ↔ device = .full
  ends : device = .whole → outcome.Ends code shown told

theorem row_ne_nil (text : String) : row text ≠ [] := by
  rw [row, Utf8.encode_append]
  exact List.append_ne_nil_of_right_ne_nil _ (by decide)

theorem Outcome.endsOn_full {outcome : Outcome} (aborted : outcome = .aborted) (code : Nat)
    (shown told : List UInt8) : outcome.EndsOn .full code shown told := by
  refine ⟨iff_of_true aborted rfl, ?_⟩
  rintro ⟨⟩

theorem Outcome.endsOn_whole {outcome : Outcome} {code : Nat} {shown told : List UInt8}
    (ends : outcome.Ends code shown told) : outcome.EndsOn .whole code shown told := by
  refine ⟨iff_of_false ?_ Device.noConfusion, fun _ => ends⟩
  rintro rfl
  exact ends

/-- The program shows its usage. -/
theorem explain_endsOn {out : Device} {session : Session} (opened : session.out = out.sink) :
    (explain session).EndsOn out 64 (row usage) session.console.sink.stored.toList := by
  rw [explain, Session.print_eq, opened]
  cases out with
  | full =>
    rw [Device.write_full (row_ne_nil usage)]
    exact Outcome.endsOn_full rfl 64 _ _
  | whole =>
    rw [Device.write_whole]
    exact Outcome.endsOn_whole ⟨rfl, rfl, rfl⟩

/-- Nothing but the output changes when the usage is shown. -/
theorem eq_of_explain {session after : Session} {code : ExitCode}
    (exited : explain session = .exited code after) :
    after = { session with out := after.out } := by
  rw [explain, Session.print_eq] at exited
  generalize (session.out.write (row usage)).1 = result at exited
  rcases result with fault | ⟨⟩
  · cases exited
  · cases exited
    rfl

theorem message_unreadable (text : List Char) (cause : Fault) :
    (Failure.unreadable (Utf8.encode text) cause).message =
      "Could not read file '" ++ String.ofList text ++ "': " ++ cause.text := by
  unfold Failure.message
  simp only [Utf8.lenient_encode]

theorem message_full :
    (Failure.stream (.system .noSpaceLeft)).message = "No space left on device (os error 28)" := by
  decide +kernel

/-- The program gives up with a message behind what it has told before. -/
theorem giveUp_endsOn {err : Device} {session : Session} (failure : Failure) (told : List UInt8)
    (sink : session.console.sink = (err.sink.write told).2) :
    (giveUp session failure).EndsOn err 74 session.out.stored.toList
      (told ++ row failure.message) := by
  rw [giveUp, sink]
  cases err with
  | full =>
    rw [Device.write_full_snd, Device.write_full (row_ne_nil _)]
    exact Outcome.endsOn_full rfl 74 _ _
  | whole =>
    have written : (Device.whole.sink.write told).2.write (row failure.message) =
        (.ok (), (Device.whole.sink.write (told ++ row failure.message)).2) :=
      Prod.ext rfl (Sink.write_append _ told _)
    rw [written, Device.write_whole]
    exact Outcome.endsOn_whole ⟨rfl, rfl, rfl⟩

/-- The same where nothing has been told before. -/
theorem giveUp_endsOn_silent {err : Device} {session : Session} (failure : Failure)
    (sink : session.console.sink = err.sink) :
    (giveUp session failure).EndsOn err 74 session.out.stored.toList (row failure.message) := by
  have ends := giveUp_endsOn failure [] (sink.trans (Sink.write_nil _).symm)
  rwa [List.nil_append] at ends

/-! ## 2. A script -/

section Script

variable {out err : Device} {files : FileTree} {path : Path}

theorem unreadable_endsOn {cause : Fault} (unreadable : files.read path = .error cause) :
    (afterScript ((Session.fresh out.sink err.sink files).dumpFile path)).EndsOn err 74 []
      (row (Failure.unreadable path cause).message) := by
  let start := Session.fresh out.sink err.sink files
  have failed : start.dumpFile path = (.error (.unreadable path cause), start) := by
    rw [Session.dumpFile, show start.files.read path = .error cause from unreadable]
    rfl
  have nothing : start.out.stored.toList = [] := congrArg Array.toList out.stored_sink
  rw [failed, ← nothing]
  exact giveUp_endsOn_silent _ rfl

/-- A full output is found out only once the script has been scanned to its end. -/
theorem script_endsOn {data : List UInt8} (readable : files.read path = .ok data) :
    (afterScript ((Session.fresh Device.full.sink err.sink files).dumpFile path)).EndsOn err 74 []
      (Diagnostic.rows ((Utf8.lenient data).countP (· ∉ Symbol.alphabet)) ++
        row "No space left on device (os error 28)") := by
  let start := Session.fresh Device.full.sink err.sink files
  let noted := start.note (Session.scriptNote path data)
  let dumped := noted.dump (Utf8.lenient data)
  have failed : dumped.1 = .error (.system .noSpaceLeft) :=
    (Session.shows_dump rfl (Utf8.lenient data)).result_of_overflow
      (Device.fits_full (Session.shown_ne_nil _))
  have nothing : dumped.2.out.stored.toList = [] := by
    rw [Session.out_dump]
    exact congrArg (·.stored.toList) (Device.write_full_snd _)
  -- By then the diagnostics have been told, if they could be.
  have ends := giveUp_endsOn (.stream (.system .noSpaceLeft)) _
    (Session.sink_dump noted (Utf8.lenient data))
  rw [nothing, message_full, Segment.strays, ← List.countP_eq_length_filter] at ends
  rw [Session.dumpFile_eq readable]
  show (afterScript (dumped.1.mapError .stream, dumped.2)).EndsOn err 74 [] _
  rw [failed]
  exact ends

/-- The diagnostics of a script that is shown may be lost without changing the code. -/
theorem script_code? (err : Sink) {data : List UInt8} (readable : files.read path = .ok data) :
    let outcome := afterScript ((Session.fresh Device.whole.sink err files).dumpFile path)
    ((∃ c ∈ Utf8.lenient data, c ∉ Symbol.alphabet) → outcome.code? = some 65) ∧
      ((∀ c ∈ Utf8.lenient data, c ∈ Symbol.alphabet) → outcome.code? = some 0) := by
  intro outcome
  let start := Session.fresh Device.whole.sink err files
  obtain ⟨answer, -, -⟩ :=
    @Session.dumpFile_of_takes start path data readable (Device.takes_whole _)
  have coded : outcome.code? =
      some (ExitCode.ofFlag (!(Segment.strays (Utf8.lenient data)).isEmpty)).number := by
    show (afterScript (start.dumpFile path)).code? = _
    generalize start.dumpFile path = done at answer ⊢
    obtain ⟨result, after⟩ := done
    cases answer
    rfl
  rw [coded]
  refine ⟨?_, ?_⟩
  · rintro ⟨c, member, outside⟩
    have stray : Segment.strays (Utf8.lenient data) ≠ [] := fun none =>
      outside (Segment.strays_eq_nil_iff.mp none c member)
    rw [List.isEmpty_eq_false_iff.mpr stray]
    rfl
  · intro within
    rw [Segment.strays_eq_nil_iff.mpr within]
    rfl

end Script

/-! ## 3. A conversation -/

section Conversation

variable {err : Device} {files : FileTree}

/-- How the program ends after a conversation, whatever is left of the input. -/
theorem run_nil (session : Session) (input : Input) :
    run session [] input =
      afterConversation ((session.converse input).1, (session.converse input).2.1) := rfl

/-- A full output ends a conversation at its first invitation. -/
theorem uninvited_endsOn (input : Input) :
    (run (Session.fresh Device.full.sink err.sink files) [] input).EndsOn err 74 []
      (row "No space left on device (os error 28)") := by
  let start := Session.fresh Device.full.sink err.sink files
  -- Nothing is read, and nothing has been told yet.
  have asked : start.invite = (.error (.system .noSpaceLeft), start) := by
    show start.present Session.prompt = _
    rw [Session.present_eq, Sink.deliver_eq_write rfl]
    show ((Device.full.sink.write _).1, { start with out := (Device.full.sink.write _).2 }) = _
    rw [Device.write_full (by decide)]
    rfl
  rw [run_nil, Session.converse_eq, asked, ← message_full]
  exact giveUp_endsOn_silent _ rfl

/-- What a conversation yields on an output that takes everything depends on its input only. -/
theorem converse_fst_whole (err : Sink) (input : Input) :
    ((Session.fresh Device.whole.sink err files).converse input).1 = input.readAll.ending := by
  obtain ⟨left, conversed, -⟩ :=
    Session.converse_attend (Session.fresh Device.whole.sink err files) input
  rw [conversed]
  exact (Session.shows_attend rfl _ _).result_of_takes (Device.takes_whole _)

theorem conversation_code? (err : Sink) {input : Input} (read : input.readAll.ending = .ok ()) :
    (run (Session.fresh Device.whole.sink err files) [] input).code? = some 0 := by
  rw [run_nil, converse_fst_whole, read]
  rfl

/-- The fault of an input is told behind the diagnostics of the lines before it. -/
theorem conversation_endsOn {input : Input} {fault : Fault}
    (unread : input.readAll.ending = .error fault) :
    ∃ shown told, (run (Session.fresh Device.whole.sink err.sink files) [] input).EndsOn err 74
      shown (told ++ row (Failure.stream fault).message) := by
  have sink := Session.sink_converse (Session.fresh Device.whole.sink err.sink files) input
  rw [run_nil, converse_fst_whole, unread]
  exact ⟨_, _, giveUp_endsOn _ _ sink⟩

end Conversation

/-! ## 4. The program -/

/-- Texts as arguments give a command. -/
theorem ofArguments?_texts (texts : List (List Char)) :
    Command.ofArguments? (texts.map Utf8.encode) = some
      (match texts with
      | [] => .converse
      | [text] => .dumpFile (Utf8.encode text)
      | _ => .explain) := by
  have valid : (texts.map Utf8.encode).all Utf8.isValid = true := by
    simp [Utf8.isValid, Utf8.decode_encode]
  unfold Command.ofArguments?
  rw [if_pos valid]
  rcases texts with _ | ⟨text, _ | ⟨other, rest⟩⟩ <;> rfl

theorem run_singleton (session : Session) (text : List Char) (input : Input) :
    run session [Utf8.encode text] input =
      afterScript (session.dumpFile (Utf8.encode text)) := by
  have command : Command.ofArguments? [Utf8.encode text] = some (.dumpFile (Utf8.encode text)) :=
    ofArguments?_texts [text]
  rw [run, command]
  rfl

theorem run_of_several {texts : List (List Char)} (several : 2 ≤ texts.length) (session : Session)
    (input : Input) : run session (texts.map Utf8.encode) input = explain session := by
  rw [run, ofArguments?_texts]
  rcases texts with _ | ⟨first, _ | ⟨second, others⟩⟩
  · cases several
  · exact absurd several (by decide : ¬ 2 ≤ 1)
  · rfl

/-- The exit status, for texts as arguments and with each of the streams connected to a device:

* with several arguments the usage is shown, nothing is read, and the code is 64, but the program
  aborts if the output is full;
* a script that cannot be read is told and gives code 74, and so does a full output, behind the
  diagnostics of the script: the program aborts if the last message cannot be told;
* else a script gives code 65 if any of its characters is outside the alphabet, and code 0 if none
  is, whether or not its diagnostics can be told;
* without arguments the code is 0 if the lines of the input are read up to its end and the output
  takes everything, and else 74: the program aborts if the last message cannot be told. -/
theorem run_exit_status (out err : Device) (files : FileTree) (texts : List (List Char))
    (input : Input) :
    let start := Session.fresh out.sink err.sink files
    let outcome := run start (texts.map Utf8.encode) input
    (2 ≤ texts.length →
      outcome.EndsOn out 64 (row "Usage: corgy [script]") [] ∧
      (∀ code after, outcome = .exited code after → after = { start with out := after.out }) ∧
      ∀ other, outcome = run start (texts.map Utf8.encode) other) ∧
    (∀ text, texts = [text] →
      (∀ cause, files.read (Utf8.encode text) = .error cause →
        outcome.EndsOn err 74 []
          (row ("Could not read file '" ++ String.ofList text ++ "': " ++ cause.text))) ∧
      (∀ data, files.read (Utf8.encode text) = .ok data →
        (out = .full →
          outcome.EndsOn err 74 []
            (Diagnostic.rows ((Utf8.lenient data).countP (· ∉ Symbol.alphabet)) ++
              row "No space left on device (os error 28)")) ∧
        (out = .whole →
          ((∃ c ∈ Utf8.lenient data, c ∉ Symbol.alphabet) → outcome.code? = some 65) ∧
          ((∀ c ∈ Utf8.lenient data, c ∈ Symbol.alphabet) → outcome.code? = some 0)))) ∧
    (texts = [] →
      (out = .full → outcome.EndsOn err 74 [] (row "No space left on device (os error 28)")) ∧
      (∀ fault, out = .whole → input.readAll.ending = .error fault →
        ∃ shown told, outcome.EndsOn err 74 shown (told ++ row fault.text)) ∧
      (out = .whole → input.readAll.ending = .ok () → outcome.code? = some 0)) := by
  intro start outcome
  refine ⟨?_, ?_, ?_⟩
  · intro several
    have explained : outcome = explain start := run_of_several several start input
    have silent : start.console.sink.stored.toList = [] := congrArg Array.toList err.stored_sink
    rw [explained, ← silent]
    refine ⟨explain_endsOn rfl, fun _ _ => eq_of_explain, ?_⟩
    intro other
    exact (run_of_several several start other).symm
  · rintro text rfl
    have shown : outcome = afterScript (start.dumpFile (Utf8.encode text)) :=
      run_singleton start text input
    rw [shown]
    refine ⟨?_, ?_⟩
    · intro cause unreadable
      rw [← message_unreadable]
      exact unreadable_endsOn unreadable
    · intro data readable
      refine ⟨?_, ?_⟩
      · rintro rfl
        exact script_endsOn readable
      · rintro rfl
        exact script_code? err.sink readable
  · rintro rfl
    refine ⟨?_, ?_, ?_⟩
    · rintro rfl
      exact uninvited_endsOn input
    · rintro fault rfl unread
      exact conversation_endsOn unread
    · rintro rfl read
      exact conversation_code? err.sink read

end TokenDump.CommandLine
