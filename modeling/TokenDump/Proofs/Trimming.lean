import TokenDump.Proofs.Stopping

/-!
# Trimming

What is left of a line without its ending. A line feed ends a line, and a carriage return right
before it belongs to it; any other carriage return is a character of the line, and stray. But the
carriage return is dropped for itself, so the last one of a line without a line feed is lost: such a
line is the last one of an input, or one that a mark has cut.

Results:
1. `hasBody_iff`: what a line has before its ending, as its content and what is lost.
2. `HasBody.text_of_kept`, `HasBody.text_of_lost`: the text of a line beside that of its body.
3. `converse_trims`: the contents of all lines, and what a conversation scans of them.
   `converse_drops_return`: a line of which a conversation scans less than a script does.
-/

namespace TokenDump

/-! ## 1. Lines and their endings -/

namespace Line

/-- The bytes of a line before its ending, which is a line feed with the carriage return right
before it, if there is one. A line without a line feed has no ending. -/
inductive HasBody : Line → List UInt8 → Prop
  | returned (body : List UInt8) : HasBody (body ++ [carriageReturn, lineFeed]) body
  | fed {body : List UInt8} (unreturned : body.getLast? ≠ some carriageReturn) :
      HasBody (body ++ [lineFeed]) body
  | bare {body : List UInt8} (unfed : body.getLast? ≠ some lineFeed) : HasBody body body

/-- What is dropped of a line though it is not part of its ending. -/
def lost (line : Line) : List UInt8 :=
  if line.getLast? = some carriageReturn then [carriageReturn] else []

variable {line : Line} {body : List UInt8}

theorem dropFinal_of_ne {final : UInt8} {bytes : List UInt8} (other : bytes.getLast? ≠ some final) :
    dropFinal final bytes = bytes :=
  if_neg other

theorem content_append_returned (body : List UInt8) :
    content (body ++ [carriageReturn, lineFeed]) = body := by
  rw [content, List.append_cons, dropFinal_append_singleton, if_pos rfl,
    dropFinal_append_singleton, if_pos rfl]

theorem content_append_fed (unreturned : body.getLast? ≠ some carriageReturn) :
    content (body ++ [lineFeed]) = body := by
  rw [content, dropFinal_append_singleton, if_pos rfl, dropFinal_of_ne unreturned]

theorem content_append_return (body : List UInt8) : content (body ++ [carriageReturn]) = body := by
  have unfed : (body ++ [carriageReturn]).getLast? ≠ some lineFeed := by
    rw [List.getLast?_concat]
    decide
  rw [content, dropFinal_of_ne unfed, dropFinal_append_singleton, if_pos rfl]

theorem content_of_bare (unfed : body.getLast? ≠ some lineFeed)
    (unreturned : body.getLast? ≠ some carriageReturn) : content body = body := by
  rw [content, dropFinal_of_ne unfed, dropFinal_of_ne unreturned]

theorem lost_append_lineFeed (body : List UInt8) : lost (body ++ [lineFeed]) = [] := by
  rw [lost, List.getLast?_concat]
  rfl

theorem HasBody.eq (h : line.HasBody body) : body = line.content ++ line.lost := by
  cases h with
  | returned =>
    rw [content_append_returned, List.append_cons, lost_append_lineFeed, List.append_nil]
  | fed unreturned => rw [content_append_fed unreturned, lost_append_lineFeed, List.append_nil]
  | bare unfed =>
    by_cases last : line.getLast? = some carriageReturn
    · obtain ⟨front, rfl⟩ := List.getLast?_eq_some_iff.mp last
      rw [content_append_return, lost, if_pos last]
    · rw [content_of_bare unfed last, lost, if_neg last, List.append_nil]

theorem exists_hasBody (line : Line) : ∃ body, line.HasBody body := by
  by_cases fed : line.getLast? = some lineFeed
  · obtain ⟨front, rfl⟩ := List.getLast?_eq_some_iff.mp fed
    by_cases returned : front.getLast? = some carriageReturn
    · obtain ⟨body, rfl⟩ := List.getLast?_eq_some_iff.mp returned
      refine ⟨body, ?_⟩
      rw [List.append_assoc, List.singleton_append]
      exact .returned body
    · exact ⟨front, .fed returned⟩
  · exact ⟨line, .bare fed⟩

/-- A line has one body, which is its content and what is lost. -/
theorem hasBody_iff : line.HasBody body ↔ body = line.content ++ line.lost := by
  constructor
  · exact HasBody.eq
  · rintro rfl
    obtain ⟨body, has⟩ := exists_hasBody line
    rw [← has.eq]
    exact has

end Line

/-! ## 2. What is not scanned -/

theorem Diagnostic.ofSource_append (left right : List Char) :
    ofSource (left ++ right) = ofSource left ++ ofSource right := by
  rw [ofSource, List.countP_append, ← List.replicate_append_replicate]
  rfl

namespace Line

variable {line : Line} {body : List UInt8}

/-- If the last byte of a line is no carriage return, all of its body is scanned. -/
theorem HasBody.text_of_kept (h : line.HasBody body) (kept : line.getLast? ≠ some carriageReturn) :
    line.content = body ∧ line.text = Utf8.lenient body := by
  have whole : line.content = body := by
    rw [h.eq, lost, if_neg kept, List.append_nil]
  exact ⟨whole, congrArg Utf8.lenient whole⟩

/-- Else the last character of the body is not, and would have been reported. -/
theorem HasBody.text_of_lost (h : line.HasBody body) (last : line.getLast? = some carriageReturn) :
    line.content ++ [carriageReturn] = body ∧ line.text ++ ['\r'] = Utf8.lenient body ∧
      Diagnostic.ofSource line.text ++ [.strayCharacter] =
        Diagnostic.ofSource (Utf8.lenient body) := by
  have whole : line.content ++ [carriageReturn] = body := by
    rw [h.eq, lost, if_pos last]
  have decoded : line.text ++ ['\r'] = Utf8.lenient body := by
    have ascii : carriageReturn.toNat < 0x80 := by decide
    rw [← whole, Utf8.lenient_append_ascii ascii]
    rfl
  refine ⟨whole, decoded, ?_⟩
  rw [← decoded, Diagnostic.ofSource_append]
  rfl

/-- Bytes that end in no line feed keep all of themselves exactly if they end in no carriage return
either. -/
theorem content_eq_self_iff (unfed : body.getLast? ≠ some lineFeed) :
    content body = body ↔ body.getLast? ≠ some carriageReturn := by
  constructor
  · intro same last
    obtain ⟨front, rfl⟩ := List.getLast?_eq_some_iff.mp last
    rw [content_append_return, List.self_eq_append_right] at same
    cases same
  · exact content_of_bare unfed

end Line

/-! ## 3. Conversations -/

namespace Session

open Console (Act)
open Line (lineFeed carriageReturn)

/-- The content of a line is its body, if this is ended by a line feed, or if its last byte is no
carriage return; otherwise the carriage return is not part of the content.

A conversation scans the texts of the lines that it reads, in turn, and does nothing else to the
console than reporting what is wrong with them and what answering them does. Each of these lines has
one body. If the last byte of the line is no carriage return, its text is that of the whole body;
otherwise it lacks the last character, which is stray and not reported. -/
theorem converse_trims (session : Session) (input : Input) :
    (∀ body, Line.content (body ++ [carriageReturn, lineFeed]) = body) ∧
    (∀ body : List UInt8, body.getLast? ≠ some carriageReturn →
      Line.content (body ++ [lineFeed]) = body) ∧
    (∀ body : List UInt8, body.getLast? ≠ some lineFeed →
      (Line.content body = body ↔ body.getLast? ≠ some carriageReturn)) ∧
    (∀ body, Line.content (body ++ [carriageReturn]) = body) ∧
    let read := input.readAll.lines.take (session.invitations input.readAll.lines)
    (∃ attempts : List Attempt, attempts.map Attempt.source = read.map Line.text ∧
      session.console.Performs (attempts.flatMap Act.ofLine) (session.converse input).2.1.console) ∧
    ∀ line ∈ read, ∃ body, (∀ other, line.HasBody other ↔ other = body) ∧
      (line.getLast? ≠ some carriageReturn →
        line.content = body ∧ line.text = Utf8.lenient body) ∧
      (line.getLast? = some carriageReturn → line.content ++ [carriageReturn] = body ∧
        line.text ++ ['\r'] = Utf8.lenient body ∧
        Diagnostic.ofSource line.text ++ [.strayCharacter] =
          Diagnostic.ofSource (Utf8.lenient body)) := by
  refine ⟨Line.content_append_returned, fun _ => Line.content_append_fed,
    fun _ => Line.content_eq_self_iff, Line.content_append_return, ?_⟩
  intro read
  refine ⟨⟨_, ?_, performs_converse session input⟩, ?_⟩
  · rw [sources_attempts, List.map_take]
  · intro line _
    obtain ⟨body, has⟩ := Line.exists_hasBody line
    refine ⟨body, ?_, has.text_of_kept, has.text_of_lost⟩
    intro other
    rw [Line.hasBody_iff, ← has.eq]

/-- The last line of an input ends in a carriage return without a line feed. It is not reported,
though a script of the same bytes reports it. -/
theorem converse_drops_return :
    let bytes : List UInt8 := [43, 13]
    let session : Session := { files := FileTree.fresh.put [97] (.file bytes) }
    bytes.getLast? ≠ some lineFeed ∧ Line.content bytes = [43] ∧
    (session.converse [.data bytes]).1 = .ok () ∧
    (session.converse [.data bytes]).2.1.console.sink.stored.toList = [] ∧
    (session.dumpFile [97]).2.console.sink.stored.toList = Diagnostic.strayCharacter.row := by
  intro bytes session
  have read : Input.readAll [.data bytes] = ⟨[bytes], .ok (), []⟩ := by
    rw [Input.readAll_of_line rfl (by decide), Input.readAll_of_nil rfl]
    rfl
  obtain ⟨left, conversed, -⟩ := converse_attend session [.data bytes]
  rw [read] at conversed
  refine ⟨by decide, rfl, ?_, ?_, rfl⟩
  · rw [conversed]
    rfl
  · rw [conversed]
    rfl

end Session

end TokenDump
