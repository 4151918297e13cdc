import TokenDump.Proofs.Truncating
import TokenDump.Proofs.Warning

/-!
# Deferring

A source is shown only once all that is wrong with it has been reported. So the output has no part
in what a dump reports; it decides what the dump yields, and so whether the flag is taken. Where no
lines are typed in, what is told on the diagnostic stream is the same whatever becomes of the
output. In a conversation it is not, since an invitation that fails ends it.

Results:
1. `dump_fst_eq`, `flagged_dump_eq`: what a dump yields, and the flag after it.
2. `Accord.step`, `masks_accord`: sessions whose outputs differ tell the same.
3. `dump_deferred`: a dump beside a scan, and sessions on different outputs.
-/

namespace TokenDump.Session

/-! ## 1. A dump on any output -/

theorem flag_eq_any (source : List Char) :
    (!(Segment.strays source).isEmpty) = source.any (· ∉ Symbol.alphabet) := by
  rw [Bool.eq_iff_iff]
  simp [Segment.strays]

/-- What a dump yields on any output: the fault of the write, or else that of the flush, or else the
flag. -/
theorem dump_fst_eq (session : Session) (source : List Char) :
    (session.dump source).1 =
      if session.out.behaviour.fits (Token.shown source).length then
        match session.out.behaviour.flushFault with
        | some fault => .error fault
        | none => .ok (session.console.flagged || source.any (· ∉ Symbol.alphabet))
      else .error session.out.behaviour.writeFault := by
  rw [dump_fst, Sink.deliver_fst, flag_eq_any, Sink.flush]
  cases session.out.behaviour.fits (Token.shown source).length with
  | false => rfl
  | true => cases session.out.behaviour.flushFault <;> rfl

/-- A dump that fails leaves the flag as the scan does, and one that does not lowers it. -/
theorem flagged_dump_eq (session : Session) (source : List Char) :
    (session.dump source).2.console.flagged =
      match (session.dump source).1 with
      | .error _ => session.console.flagged || source.any (· ∉ Symbol.alphabet)
      | .ok _ => false := by
  rw [flagged_dump, dump_fst, flag_eq_any]
  cases (session.out.deliver (Token.shown source)).1 <;> rfl

/-! ## 2. Sessions on different outputs -/

/-- Whether a step is a conversation. -/
def Step.isConverse : Step → Bool
  | .converse _ => true
  | _ => false

theorem Step.exists_configureOut {step : Step} (h : step.isConfigureOut = true) :
    ∃ behaviour, step = .configureOut behaviour := by
  cases step with
  | configureOut behaviour => exact ⟨behaviour, rfl⟩
  | report | takeFlag | scan | dump | dumpFile | converse | configureErr | addFiles => cases h

/-- The sessions tell of diagnostics on sinks that are the same, and find the same files. -/
structure Accord (left right : Session) : Prop where
  sink : left.console.sink = right.console.sink
  files : left.files = right.files

variable {left middle right : Session}

theorem Accord.refl (session : Session) : Accord session session :=
  ⟨rfl, rfl⟩

theorem Accord.trans (h : Accord left middle) (h' : Accord middle right) : Accord left right :=
  ⟨h.sink.trans h'.sink, h.files.trans h'.files⟩

/-- What is reported without a conversation depends on the files alone. -/
theorem Accord.reports (h : Accord left right) {step : Step} (silent : step.isConverse = false) :
    left.reports step = right.reports step := by
  cases step with
  | dumpFile path => rw [Session.reports, Session.reports, h.files]
  | converse input => cases silent
  | report | takeFlag | scan | dump | configureOut | configureErr | addFiles => rfl

theorem Accord.step (h : Accord left right) {step : Step} (silent : step.isConverse = false) :
    Accord (left.step step).2 (right.step step).2 := by
  refine ⟨?_, by rw [files_step, files_step, h.files]⟩
  cases constant : step.isConfigureErr with
  | false => rw [sink_step constant, sink_step constant, h.sink, h.reports silent]
  | true =>
    obtain ⟨behaviour, rfl⟩ := Step.exists_configureErr constant
    show { left.console.sink with behaviour } = { right.console.sink with behaviour }
    rw [h.sink]

/-- Changing the output of one session leaves them in accord. -/
theorem accord_configureOut (session : Session) (behaviour : Sink.Behaviour) :
    Accord (session.step (.configureOut behaviour)).2 session :=
  ⟨rfl, rfl⟩

/-- What a step stores on the diagnostic stream. -/
def told (session : Session) (step : Step) : List UInt8 :=
  (session.step step).2.console.sink.stored.toList.drop session.console.sink.stored.size

/-- What each of some steps stores on the diagnostic stream, but for those that change the
output. -/
def tellings (session : Session) (steps : List Step) : List (List UInt8) :=
  session.observe Step.isConfigureOut told steps

theorem Accord.told (h : Accord left right) {step : Step} (silent : step.isConverse = false) :
    left.told step = right.told step := by
  rw [Session.told, Session.told, (h.step silent).sink, h.sink]

/-- Changes of the output cannot be told on the diagnostic stream, unless there are conversations. -/
theorem masks_accord :
    Masks Accord Step.isConfigureOut (fun step => step.isConverse = false) told where
  skip accord changes := by
    obtain ⟨behaviour, rfl⟩ := Step.exists_configureOut changes
    exact (accord_configureOut _ behaviour).trans accord
  seen accord silent := accord.told silent
  keep accord _ silent := accord.step silent

/-- Steps without conversations stay so with other changes of the output. -/
theorem silent_of_same {steps steps' : List Step} (silent : ∀ step ∈ steps, step.isConverse = false)
    (same : steps.filter (!·.isConfigureOut) = steps'.filter (!·.isConfigureOut)) :
    ∀ step ∈ steps', step.isConverse = false := by
  intro step member
  cases hidden : step.isConfigureOut with
  | true =>
    obtain ⟨behaviour, rfl⟩ := Step.exists_configureOut hidden
    rfl
  | false =>
    have kept : step ∈ steps.filter (!·.isConfigureOut) := by
      rw [same]
      exact List.mem_filter.mpr ⟨member, by simp [hidden]⟩
    exact silent step (List.mem_filter.mp kept).1

/-! ## 3. Diagnostics before output -/

/-- A dump reports what a scan does, whatever its output does:

* it leaves the diagnostic sink as a scan by the same console does, and the log too, but for the
  number of tokens behind it;
* it shows as much of the rows of the tokens as there is room on the output;
* it fails as the write does if these do not fit, else as the flush does if that fails, and else it
  answers the flag: whether it was up before, or a character is outside the alphabet;
* if it fails the flag is what the scan leaves, and else it is down.

So sessions that begin with the same diagnostic sink and the same files and do the same steps
without conversations, but for changes of their outputs, which may come anywhere and be any, store
the same on the diagnostic stream at each step. -/
theorem dump_deferred (session : Session) (source : List Char) :
    let scanned := (session.console.scan source).2
    let shown := Token.listing (session.console.scan source).1
    let flag := session.console.flagged || source.any (· ∉ Symbol.alphabet)
    let stored := session.out.stored.toList
    let dumped := session.dump source
    (dumped.2.console.sink = scanned.sink ∧ scanned.flagged = flag ∧
      ∃ count, dumped.2.console.log.toList = scanned.log.toList ++ [.scanned count]) ∧
    (session.out.behaviour.room = none → dumped.2.out.stored.toList = stored ++ shown) ∧
    (∀ room, session.out.behaviour.room = some room →
      dumped.2.out.stored.toList = stored ++ shown.take (min room shown.length) ∧
      (room < shown.length → dumped.1 = .error session.out.behaviour.writeFault)) ∧
    ((∀ room, session.out.behaviour.room = some room → shown.length ≤ room) →
      (∀ fault, session.out.behaviour.flushFault = some fault → dumped.1 = .error fault) ∧
      (session.out.behaviour.flushFault = none → dumped.1 = .ok flag)) ∧
    (∀ fault, dumped.1 = .error fault → dumped.2.console.flagged = flag) ∧
    (∀ answer, dumped.1 = .ok answer → dumped.2.console.flagged = false) ∧
    ∀ (other : Session) (steps steps' : List Step),
      other.console.sink = session.console.sink → other.files = session.files →
      (∀ step ∈ steps, step.isConverse = false) →
      steps.filter (!·.isConfigureOut) = steps'.filter (!·.isConfigureOut) →
      session.tellings steps = other.tellings steps' ∧
        (session.play steps).2.console.sink = (other.play steps').2.console.sink := by
  intro scanned shown flag stored dumped
  have yields : dumped.1 = _ := dump_fst_eq session source
  have flagged : dumped.2.console.flagged = _ := flagged_dump_eq session source
  have out : dumped.2.out.stored.toList = stored ++ session.out.behaviour.accepted shown := by
    rw [← Sink.stored_write]
    exact congrArg (·.stored.toList) (out_dump session source)
  refine ⟨⟨?_, ?_, ?_⟩, ?_, ?_, ?_, ?_, ?_, ?_⟩
  · exact (sink_dump session source).trans (Console.sink_scan session.console source).symm
  · exact (Console.flagged_scan session.console source).trans (congrArg _ (flag_eq_any source))
  · exact ⟨_, toList_log_dump session source⟩
  · intro room
    rw [out, Sink.Behaviour.accepted, room]
  · intro room limited
    refine ⟨?_, ?_⟩
    · rw [out, Sink.Behaviour.accepted, limited, ← List.take_eq_take_min]
    · intro beyond
      rw [yields, if_neg]
      exact fun fits => Nat.not_le_of_lt beyond (Sink.Behaviour.fits_iff.mp fits room limited)
  · intro enough
    have fits : session.out.behaviour.fits (Token.shown source).length = true :=
      Sink.Behaviour.fits_iff.mpr enough
    rw [yields, if_pos fits]
    refine ⟨?_, ?_⟩
    · intro fault flush
      rw [flush]
    · intro flush
      rw [flush]
  · intro fault failed
    rw [flagged, failed]
  · intro answer answered
    rw [flagged, answered]
  · intro other steps steps' sink files silent same
    obtain ⟨told, plain, left, right⟩ := masks_accord.observe_eq (Accord.refl other)
      ⟨sink.symm, files.symm⟩ silent (silent_of_same silent same) same
    exact ⟨told, left.sink.trans right.sink.symm⟩

/-- An output whose room ends within the row of the only symbol, beside one that cannot be flushed
at first; later the room of either changes. A script and the flag come in between. -/
theorem dump_deferred_narrow :
    let files := FileTree.fresh.put [97] (.file [35, 0xFF])
    let narrow : Session := { out := { behaviour := { room := some 4 } }, files }
    let broken : Fault := .plain .brokenPipe
    let stuck : Session := { out := { behaviour := { flushFault := some broken } }, files }
    let steps : List Step := [.dump ['@', '+'], .configureOut {}, .dumpFile [97], .takeFlag,
      .scan ['?']]
    let steps' : List Step := [.dump ['@', '+'], .dumpFile [97], .takeFlag,
      .configureOut Sink.full.behaviour, .scan ['?']]
    (narrow.out.behaviour.room = some 4 ∧ stuck.out.behaviour.flushFault = some broken ∧
      (∀ step ∈ steps, step.isConverse = false) ∧
      steps.filter (!·.isConfigureOut) = steps'.filter (!·.isConfigureOut)) ∧
    (narrow.dump ['@', '+']).1 = .error .shortWrite ∧
    (narrow.dump ['@', '+']).2.out.stored.toList = [80, 76, 85, 83] ∧
    (narrow.dump ['@', '+']).2.console.flagged = true ∧
    (narrow.dump ['@', '+']).2.console.sink = (narrow.console.scan ['@', '+']).2.sink ∧
    (stuck.dump ['@', '+']).1 = .error broken ∧
    narrow.tellings steps = stuck.tellings steps' := by
  intro files narrow broken stuck steps steps'
  have silent : ∀ step ∈ steps, step.isConverse = false := by decide
  have same : steps.filter (!·.isConfigureOut) = steps'.filter (!·.isConfigureOut) := rfl
  obtain ⟨⟨sink, -⟩, -, limited, -, failed, -, tell⟩ := dump_deferred narrow ['@', '+']
  obtain ⟨shown, fails⟩ := limited 4 rfl
  have result := fails (by decide +kernel)
  obtain ⟨-, -, -, enough, -⟩ := dump_deferred stuck ['@', '+']
  refine ⟨⟨rfl, rfl, silent, same⟩, result, ?_, ?_, sink, ?_, ?_⟩
  · rw [shown]
    decide +kernel
  · rw [failed _ result]
    rfl
  · exact (enough (by simp [stuck])).1 broken rfl
  · exact (tell stuck steps steps' rfl rfl silent same).1

end TokenDump.Session
