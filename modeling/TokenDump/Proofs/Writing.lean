import TokenDump.Sink

/-!
# Writing

Writing piece by piece leaves a sink as writing all of it at once does (`write_append`), also when
the room ends within a piece. A sink takes so many bytes if writing them and flushing succeeds
(`Sink.Takes`); a sink that never fails takes any number (`Sink.Reliable`).
-/

namespace TokenDump.Sink

/-! ## Pieces -/

theorem Behaviour.accepted_append (behaviour : Behaviour) (left right : List UInt8) :
    behaviour.accepted (left ++ right) =
      behaviour.accepted left ++ (behaviour.after left.length).accepted right := by
  unfold accepted after
  cases behaviour.room with
  | none => rfl
  | some room => simp [List.take_append]

theorem Behaviour.after_after (behaviour : Behaviour) (m n : Nat) :
    (behaviour.after m).after n = behaviour.after (m + n) := by
  unfold after
  cases behaviour.room with
  | none => rfl
  | some room => simp [Nat.sub_sub]

@[simp] theorem Behaviour.flushFault_after (behaviour : Behaviour) (count : Nat) :
    (behaviour.after count).flushFault = behaviour.flushFault := rfl

/-- Two writes leave a sink as one write of both parts does. -/
theorem write_append (sink : Sink) (left right : List UInt8) :
    ((sink.write left).2.write right).2 = (sink.write (left ++ right)).2 := by
  obtain ⟨stored, behaviour⟩ := sink
  have pieces : stored ++ behaviour.accepted left ++
      (behaviour.after left.length).accepted right =
        stored ++ behaviour.accepted (left ++ right) := by
    apply Array.toList_inj.mp
    simp [Behaviour.accepted_append]
  simp only [write, Behaviour.after_after, List.length_append, pieces]

/-- Once something did not fit, nothing more is stored. -/
theorem write_append_of_not_fits {sink : Sink} {left : List UInt8} (right : List UInt8)
    (excess : sink.behaviour.fits left.length = false) :
    (sink.write (left ++ right)).2 = (sink.write left).2 := by
  obtain ⟨stored, ⟨room, writeFault, flushFault⟩⟩ := sink
  cases room with
  | none => cases excess
  | some room =>
    have short : room ≤ left.length := Nat.le_of_not_le (of_decide_eq_false excess)
    have spent : room - (left.length + right.length) = room - left.length := by omega
    simp [write, Behaviour.accepted, Behaviour.after, List.take_append_of_le_length short, spent]

@[simp] theorem write_nil (sink : Sink) : (sink.write []).2 = sink := by
  obtain ⟨stored, ⟨room, writeFault, flushFault⟩⟩ := sink
  cases room <;> simp [write, Behaviour.accepted, Behaviour.after]

theorem write_fst (sink : Sink) (bytes : List UInt8) :
    (sink.write bytes).1 =
      if sink.behaviour.fits bytes.length then .ok () else .error sink.behaviour.writeFault := rfl

/-- Where flushes succeed, delivering is writing. -/
theorem deliver_eq_write {sink : Sink} (flush : sink.behaviour.flushFault = none)
    (bytes : List UInt8) : sink.deliver bytes = sink.write bytes := by
  have flushed : (sink.write bytes).2.flush = .ok () := by
    simp [Sink.flush, flush]
  unfold Sink.deliver
  generalize sink.write bytes = written at flushed ⊢
  rcases written with ⟨fault | ⟨⟩, after⟩
  · rfl
  · exact Prod.ext flushed rfl

/-- Where flushes fail, so does delivering, as the write does or else as the flush. -/
theorem deliver_of_flushFault {sink : Sink} {fault : Fault}
    (flush : sink.behaviour.flushFault = some fault) (bytes : List UInt8) :
    sink.deliver bytes =
      (.error (if sink.behaviour.fits bytes.length then fault else sink.behaviour.writeFault),
        (sink.write bytes).2) := by
  have flushed : (sink.write bytes).2.flush = .error fault := by
    simp [Sink.flush, flush]
  have written := write_fst sink bytes
  unfold Sink.deliver
  generalize sink.write bytes = done at flushed written ⊢
  obtain ⟨result, after⟩ := done
  cases fits : sink.behaviour.fits bytes.length with
  | false =>
    rw [fits] at written
    cases written
    rfl
  | true =>
    rw [fits] at written
    cases written
    exact Prod.ext flushed rfl

/-- Delivering fails as the write does, and else as the flush. -/
theorem deliver_fst (sink : Sink) (bytes : List UInt8) :
    (sink.deliver bytes).1 =
      if sink.behaviour.fits bytes.length then sink.flush else .error sink.behaviour.writeFault := by
  cases flush : sink.behaviour.flushFault with
  | none => rw [deliver_eq_write flush, write_fst, Sink.flush, flush]
  | some fault =>
    rw [deliver_of_flushFault flush, Sink.flush, flush]
    split <;> rfl

/-! ## Sinks that take what they are given -/

/-- So many bytes can be written, and flushed, without a failure. -/
structure Takes (sink : Sink) (count : Nat) : Prop where
  fits : sink.behaviour.fits count = true
  flush : sink.behaviour.flushFault = none

/-- Neither a write nor a flush ever fails. -/
structure Reliable (sink : Sink) : Prop where
  room : sink.behaviour.room = none
  flush : sink.behaviour.flushFault = none

theorem Behaviour.fits_iff {behaviour : Behaviour} {count : Nat} :
    behaviour.fits count = true ↔ ∀ room, behaviour.room = some room → count ≤ room := by
  unfold fits
  cases behaviour.room with
  | none => simp
  | some room => simp

theorem Behaviour.fits_add {behaviour : Behaviour} {m n : Nat} :
    behaviour.fits (m + n) = true ↔
      behaviour.fits m = true ∧ (behaviour.after m).fits n = true := by
  unfold fits after
  cases behaviour.room with
  | none => simp
  | some room =>
    simp only [decide_eq_true_eq, Option.map_some]
    omega

/-- What does not fit behind something does not fit once that is written. -/
theorem Behaviour.fits_after_of_excess {behaviour : Behaviour} {m n : Nat}
    (excess : behaviour.fits (m + n) = false) (something : 0 < n) :
    (behaviour.after m).fits n = false := by
  unfold fits after at *
  cases h : behaviour.room with
  | none =>
    rw [h] at excess
    cases excess
  | some room =>
    simp only [h, Option.map_some, decide_eq_false_iff_not, Nat.not_le] at excess ⊢
    omega

/-- Something fits behind something else exactly if both fit together. -/
theorem Behaviour.fits_after {behaviour : Behaviour} {m n : Nat} (something : 0 < n) :
    (behaviour.after m).fits n = behaviour.fits (m + n) := by
  cases both : behaviour.fits (m + n) with
  | true => exact (fits_add.mp both).2
  | false => exact fits_after_of_excess both something

theorem Reliable.takes {sink : Sink} (h : sink.Reliable) (count : Nat) : sink.Takes count :=
  ⟨by simp [Behaviour.fits, h.room], h.flush⟩

/-- A sink that takes several bytes takes some of them first and the others afterwards. -/
theorem takes_add_iff {sink : Sink} {bytes : List UInt8} {n : Nat} :
    sink.Takes (bytes.length + n) ↔
      sink.Takes bytes.length ∧ (sink.write bytes).2.Takes n := by
  constructor
  · rintro ⟨fits, flush⟩
    obtain ⟨first, second⟩ := Behaviour.fits_add.mp fits
    exact ⟨⟨first, flush⟩, ⟨second, flush⟩⟩
  · rintro ⟨⟨first, flush⟩, ⟨second, _⟩⟩
    exact ⟨Behaviour.fits_add.mpr ⟨first, second⟩, flush⟩

theorem Takes.mono {sink : Sink} {m n : Nat} (h : sink.Takes n) (le : m ≤ n) : sink.Takes m := by
  obtain ⟨k, rfl⟩ := Nat.le.dest le
  exact ⟨(Behaviour.fits_add.mp h.fits).1, h.flush⟩

theorem Takes.write_fst {sink : Sink} {bytes : List UInt8} (h : sink.Takes bytes.length) :
    (sink.write bytes).1 = .ok () :=
  (write_eq_ok_iff sink bytes).mpr h.fits

theorem Takes.stored {sink : Sink} {bytes : List UInt8} (h : sink.Takes bytes.length) :
    (sink.write bytes).2.stored.toList = sink.stored.toList ++ bytes := by
  rw [stored_write]
  have fits := h.fits
  unfold Behaviour.fits at fits
  unfold Behaviour.accepted
  cases room : sink.behaviour.room with
  | none => rfl
  | some count =>
    simp only [room, decide_eq_true_eq] at fits
    simp [List.take_of_length_le fits]

theorem Takes.deliver {sink : Sink} {bytes : List UInt8} (h : sink.Takes bytes.length) :
    sink.deliver bytes = (.ok (), (sink.write bytes).2) :=
  (deliver_eq_write h.flush bytes).trans (Prod.ext h.write_fst rfl)

end TokenDump.Sink
