import TokenDump.Proofs.Scanning

/-!
# Joining

What becomes of two texts that are joined. The second text can change no more than the last segment
of the first: if that is a symbol which a `=` extends, and the second text begins with a `=`, then
the two become one symbol (`Meet`). Everywhere else the texts are cut apart. A last `=` is free to be
extended only if no symbol before it has taken it, which is why the cut of the first text decides,
and not its last character.

Results:
1. `cut_append_last`, `cut_append`, `cut_append_equal`: the cut of two joined texts.
2. `scan_append`: the tokens and the diagnostics of two joined texts.
-/

namespace TokenDump

/-! ## 1. The cut of two joined texts -/

namespace Segment

/-- The first text ends with a symbol that the second one extends by the `=` it begins with. -/
def Meet (left right : List Char) : Prop :=
  ∃ symbol, (cut left).getLast? = some (.symbol symbol) ∧ symbol.isExtensible ∧
    right.head? = some '='

/-- What follows a text can change no segment of it but the last. -/
theorem cut_append_last {before : List Segment} {last : Segment} {left : List Char}
    (parts : cut left = before ++ [last]) (right : List Char) :
    cut (left ++ right) = before ++ cut (last.chars ++ right) := by
  have whole : IsCut (before ++ [last]) left := isCut_iff.mpr parts.symm
  clear parts
  induction before generalizing left with
  | nil =>
    rw [← whole.lossless]
    simp
  | cons segment before ih =>
    obtain ⟨tail, rfl, fit, rest⟩ := isCut_cons_iff.mp whole
    -- The segment is not the last one, so the next character stays what it is.
    have nonempty : tail ≠ [] := by
      rw [← rest.lossless]
      simp [chars_ne_nil]
    have fit' : segment.Fits (tail ++ right) := by
      obtain ⟨c, tail, rfl⟩ := List.exists_cons_of_ne_nil nonempty
      obtain ⟨proper, next⟩ := fits_iff.mp fit
      exact fits_iff.mpr ⟨proper, next⟩
    rw [List.append_assoc, cut_chars_append fit', ih rest]
    rfl

theorem proper_of_mem_cut {segment : Segment} {text : List Char} (h : segment ∈ cut text) :
    segment.Proper := by
  obtain ⟨before, after, parts⟩ := List.append_of_mem h
  exact (fits_iff.mp ((isCut_cut text).fits before segment after parts)).1

/-- Texts that do not meet are cut apart. -/
theorem cut_append {left right : List Char} (apart : ¬ Meet left right) :
    cut (left ++ right) = cut left ++ cut right := by
  cases last : (cut left).getLast? with
  | none =>
    have none : cut left = [] := List.getLast?_eq_none_iff.mp last
    have empty : left = [] := by rw [← flatMap_chars_cut left, none]; rfl
    rw [empty]
    rfl
  | some segment =>
    obtain ⟨before, parts⟩ := List.getLast?_eq_some_iff.mp last
    have fit : segment.Fits right := by
      refine fits_iff.mpr ⟨proper_of_mem_cut (List.mem_of_getLast? last), ?_⟩
      intro extensible next
      cases segment with
      | symbol s => exact apart ⟨s, last, extensible, next⟩
      | stray c => cases extensible
    rw [cut_append_last parts, cut_chars_append fit, parts, List.append_assoc]
    rfl

/-- Texts that meet share a symbol. -/
theorem cut_append_equal {before : List Segment} {symbol longer : Symbol} {left : List Char}
    (parts : cut left = before ++ [.symbol symbol]) (extended : symbol.withEqual? = some longer)
    (rest : List Char) :
    cut (left ++ '=' :: rest) = before ++ .symbol longer :: cut rest := by
  have spelled : symbol.chars ++ '=' :: rest = longer.chars ++ rest := by
    rw [Symbol.chars_of_withEqual? extended, List.append_assoc]
    rfl
  have fit : Fits (.symbol longer) rest := by
    refine fits_iff.mpr ⟨trivial, ?_⟩
    intro extensible
    exact absurd extensible (Symbol.not_isExtensible_of_withEqual? extended)
  rw [cut_append_last parts]
  show before ++ cut (symbol.chars ++ '=' :: rest) = _
  rw [spelled]
  exact congrArg (before ++ ·) (cut_chars_append fit)

end Segment

/-! ## 2. The scan of two joined texts -/

namespace Token

theorem symbolsOf_append {left right : List Char} (apart : ¬ Segment.Meet left right) :
    symbolsOf (left ++ right) = symbolsOf left ++ symbolsOf right := by
  unfold symbolsOf
  rw [Segment.cut_append apart, List.filterMap_append]

/-- The last token of the first text becomes longer, and the others stay as they are. -/
theorem symbolsOf_append_equal {symbol longer : Symbol} {left : List Char}
    (last : (Segment.cut left).getLast? = some (.symbol symbol))
    (extended : symbol.withEqual? = some longer) (rest : List Char) :
    ∃ earlier, symbolsOf left = earlier ++ [ofSymbol symbol Segment.line] ∧
      symbolsOf (left ++ '=' :: rest) =
        earlier ++ ofSymbol longer Segment.line :: symbolsOf rest := by
  obtain ⟨before, parts⟩ := List.getLast?_eq_some_iff.mp last
  refine ⟨before.filterMap Segment.token?, ?_, ?_⟩
  · rw [symbolsOf, parts, List.filterMap_append]
    rfl
  · rw [symbolsOf, Segment.cut_append_equal parts extended, List.filterMap_append]
    rfl

theorem symbolsOf_append_iff {left right : List Char} :
    symbolsOf (left ++ right) = symbolsOf left ++ symbolsOf right ↔
      ¬ Segment.Meet left right := by
  refine ⟨?_, symbolsOf_append⟩
  rintro same ⟨symbol, last, extensible, next⟩
  obtain ⟨longer, extended⟩ := Symbol.isExtensible_iff.mp extensible
  obtain ⟨rest, rfl⟩ := List.head?_eq_some_iff.mp next
  obtain ⟨earlier, before, joined⟩ := symbolsOf_append_equal last extended rest
  rw [joined, before, List.append_assoc] at same
  have tokens := (List.cons.inj (List.append_cancel_left same)).1
  have kinds : longer = symbol := Kind.symbol.inj (congrArg Token.kind tokens)
  rw [kinds] at extended
  exact Symbol.not_isExtensible_of_withEqual? extended extensible

end Token

namespace Console

/-- The tokens and the diagnostics of two texts that are joined:

* if the last segment of the first text is a `!`, `=`, `<` or `>` and the second text begins with
  a `=`, then that symbol becomes the one that is longer by a `=`, all before it stays, and the
  tokens of the second text without its first character follow;
* in every other case, and in no other one, the tokens of both follow one another;
* always the diagnostics are those of the first text and then those of the second. -/
theorem scan_append (console : Console) (left right : List Char) :
    (∀ text, (console.scan text).1 = Token.symbolsOf text ++ [⟨.endOfText, "", 1⟩]) ∧
    (∀ symbol longer rest, (Segment.cut left).getLast? = some (.symbol symbol) →
      symbol.withEqual? = some longer → right = '=' :: rest →
      ∃ earlier, Token.symbolsOf left = earlier ++ [⟨.symbol symbol, symbol.lexeme, 1⟩] ∧
        Token.symbolsOf (left ++ right) =
          earlier ++ ⟨.symbol longer, symbol.lexeme ++ "=", 1⟩ :: Token.symbolsOf rest) ∧
    (Token.symbolsOf (left ++ right) = Token.symbolsOf left ++ Token.symbolsOf right ↔
      ¬ Segment.Meet left right) ∧
    console.diagnosed (left ++ right) = console.diagnosed left ++ console.diagnosed right := by
  refine ⟨fun _ => rfl, ?_, Token.symbolsOf_append_iff, ?_⟩
  · rintro symbol longer rest last extended rfl
    rw [← Symbol.lexeme_of_withEqual? extended]
    exact Token.symbolsOf_append_equal last extended rest
  · rw [diagnosed_eq, diagnosed_eq, diagnosed_eq, Segment.strays_append, List.length_append,
      List.replicate_append_replicate]

/-- The `=` of `!=` is taken, so a `=` behind it stays apart; the last one of `!==` is free. -/
theorem scan_append_parity :
    ¬ Segment.Meet ['!', '='] ['=', '+'] ∧
    Token.symbolsOf ['!', '=', '=', '+'] =
      Token.symbolsOf ['!', '='] ++ Token.symbolsOf ['=', '+'] ∧
    (Segment.cut ['!', '=', '=']).getLast? = some (.symbol .equal) ∧
    ∃ earlier, Token.symbolsOf ['!', '=', '='] =
        earlier ++ [⟨.symbol .equal, Symbol.equal.lexeme, 1⟩] ∧
      Token.symbolsOf ['!', '=', '=', '=', '+'] =
        earlier ++ ⟨.symbol .equalEqual, Symbol.equal.lexeme ++ "=", 1⟩ ::
          Token.symbolsOf ['+'] := by
  have apart : ¬ Segment.Meet ['!', '='] ['=', '+'] := by
    rintro ⟨symbol, last, extensible, -⟩
    cases last
    cases extensible
  obtain ⟨-, -, alike, -⟩ := scan_append {} ['!', '='] ['=', '+']
  obtain ⟨-, meet, -, -⟩ := scan_append {} ['!', '=', '='] ['=', '+']
  exact ⟨apart, alike.mpr apart, rfl, meet .equal .equalEqual ['+'] rfl rfl rfl⟩

end Console

end TokenDump
