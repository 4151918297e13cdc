import Mathlib.Data.List.Nodup
import TokenDump.Proofs.Agreement
import TokenDump.Proofs.Truncating

/-!
# Rereading

What was shown of sources can be read back. No name of a kind has a blank, so the first blank of a
text stands behind the name, and what is between it and the word `null` is the lexeme, whatever the
lexeme may be. Nothing is escaped in a row, but no line ends within the lexeme of a scanned token,
so the lines of a listing are its rows. The closing mark comes last of what is shown of a source,
and only there, so sources that are shown one after another stay apart.

Results:
1. `text_eq_iff`, `row_eq_iff`: what a token can be told by.
2. `ofBytes_flatMap`: rows one after another. `ofBytes_listing`, `listing_eq_iff`: tokens that can
   be told by their rows.
3. `flatMap_ofText_eq_iff`: the tokens of several sources.
4. `stores_eq_iff`: what sessions show of several sources.
-/

namespace TokenDump

/-! ## 1. The text of a token -/

namespace Token

theorem Kind.mem_all (kind : Kind) : kind ∈ all := by
  cases kind with
  | symbol symbol => exact List.mem_append_left _ (List.mem_map_of_mem symbol.mem_all)
  | endOfText => exact List.mem_append_right _ (List.mem_singleton_self _)

theorem Kind.eq_of_name_eq {kind other : Kind} (same : kind.name = other.name) : kind = other := by
  have distinct : (all.map name).Nodup := by decide +kernel
  exact List.inj_on_of_nodup_map distinct kind.mem_all other.mem_all same

/-- A name keeps to its row, and ends before the first blank there. -/
theorem Kind.name_unbroken (kind : Kind) :
    ' ' ∉ kind.name.toList ∧ '\n' ∉ kind.name.toList := by
  have every : ∀ kind ∈ all, ' ' ∉ kind.name.toList ∧ '\n' ∉ kind.name.toList := by
    decide +kernel
  exact every kind kind.mem_all

theorem toList_text (token : Token) :
    token.text.toList =
      token.kind.name.toList ++ ' ' :: (token.lexeme.toList ++ " null".toList) := by
  simp [text, String.toList_append]

/-- A text tells the kind and the lexeme of its token, even if there are blanks in the lexeme. -/
theorem text_eq_iff {token other : Token} :
    token.text = other.text ↔ token.kind = other.kind ∧ token.lexeme = other.lexeme := by
  constructor
  · intro same
    have chars := congrArg String.toList same
    rw [toList_text, toList_text] at chars
    obtain ⟨names, lexemes⟩ := eq_of_append_cons_eq chars token.kind.name_unbroken.1
      other.kind.name_unbroken.1
    exact ⟨Kind.eq_of_name_eq (String.toList_inj.mp names),
      String.toList_inj.mp (List.append_cancel_right lexemes)⟩
  · rintro ⟨kinds, lexemes⟩
    rw [text, text, kinds, lexemes]

theorem row_eq_iff {token other : Token} : token.row = other.row ↔ token.text = other.text := by
  constructor
  · intro same
    have chars := congrArg Utf8.lenient same
    rw [row, row, Utf8.lenient_encode, Utf8.lenient_encode] at chars
    exact String.toList_inj.mp (List.append_cancel_right chars)
  · intro same
    rw [row, row, same]

end Token

/-! ## 2. Rows one after another -/

theorem Utf8.lineFeed_not_mem_encode {text : List Char} (uncut : '\n' ∉ text) :
    Line.lineFeed ∉ encode text := by
  intro member
  obtain ⟨front, rest, parts⟩ := List.append_of_mem member
  -- What the line feed is decoded to is a character of the text.
  have ascii : Line.lineFeed.toNat < 0x80 := by decide
  have decoded := lenient_append_ascii ascii front rest
  rw [← parts, lenient_encode] at decoded
  exact uncut (decoded ▸ List.mem_append_right _ List.mem_cons_self)

namespace Line

/-- The bytes are a whole line, and its line feed is the only one. -/
def IsRow (bytes : List UInt8) : Prop :=
  ∃ front, lineFeed ∉ front ∧ bytes = front ++ [lineFeed]

variable {α : Type} {row : α → Line} {items : List α}

/-- Rows one after another are the lines of all their bytes. -/
theorem ofBytes_flatMap (whole : ∀ item ∈ items, IsRow (row item)) :
    ofBytes (items.flatMap row) = items.map row := by
  induction items with
  | nil => rfl
  | cons item items ih =>
    obtain ⟨⟨front, uncut, shape⟩, others⟩ := List.forall_mem_cons.mp whole
    rw [List.flatMap_cons, List.map_cons, shape, List.append_assoc, List.singleton_append,
      ofBytes_of_cut uncut, ih others]

theorem count_lineFeed_flatMap (whole : ∀ item ∈ items, IsRow (row item)) :
    (items.flatMap row).count lineFeed = items.length := by
  induction items with
  | nil => rfl
  | cons item items ih =>
    obtain ⟨⟨front, uncut, shape⟩, others⟩ := List.forall_mem_cons.mp whole
    rw [List.flatMap_cons, shape, List.count_append, List.count_append, ih others,
      List.count_eq_zero_of_not_mem uncut, List.count_singleton_self, List.length_cons,
      Nat.zero_add, Nat.add_comm]

end Line

namespace Token

/-- A token of a scan, as far as its row cannot tell: it is on the only line of a text, and no line
ends within its lexeme. -/
structure Legible (token : Token) : Prop where
  line : token.line = Segment.line
  uncut : '\n' ∉ token.lexeme.toList

variable {token : Token} {tokens others : List Token}

theorem legible_of_mem_symbolsOf {source : List Char} (h : token ∈ symbolsOf source) :
    token.Legible := by
  obtain ⟨symbol, rfl⟩ := exists_eq_ofSymbol h
  refine ⟨rfl, ?_⟩
  show '\n' ∉ symbol.lexeme.toList
  rw [Symbol.lexeme_toList]
  exact fun member => Line.lineFeed_stray (Symbol.mem_alphabet_of_mem_chars member)

theorem legible_of_mem_ofText {source : List Char} (h : token ∈ ofText source) :
    token.Legible := by
  rw [ofText_eq, List.mem_append, List.mem_singleton] at h
  rcases h with scanned | rfl
  · exact legible_of_mem_symbolsOf scanned
  · exact ⟨rfl, List.not_mem_nil⟩

theorem Legible.lineFeed_not_mem (h : token.Legible) :
    Line.lineFeed ∉ Utf8.encode token.text.toList := by
  refine Utf8.lineFeed_not_mem_encode ?_
  rw [toList_text]
  simp [token.kind.name_unbroken.2, h.uncut]

theorem row_eq_append (token : Token) :
    token.row = Utf8.encode token.text.toList ++ [Line.lineFeed] :=
  Utf8.encode_append _ _

theorem Legible.eq_of_row_eq {other : Token} (h : token.Legible) (h' : other.Legible)
    (same : token.row = other.row) : token = other := by
  obtain ⟨kinds, lexemes⟩ := text_eq_iff.mp (row_eq_iff.mp same)
  have lines : token.line = other.line := h.line.trans h'.line.symm
  cases token
  cases other
  congr

theorem Legible.isRow (h : token.Legible) : Line.IsRow token.row :=
  ⟨_, h.lineFeed_not_mem, token.row_eq_append⟩

/-- The lines of what is shown are the rows of the tokens. -/
theorem ofBytes_listing (legible : ∀ token ∈ tokens, token.Legible) :
    Line.ofBytes (listing tokens) = tokens.map row :=
  Line.ofBytes_flatMap fun token member => (legible token member).isRow

theorem count_lineFeed_listing (legible : ∀ token ∈ tokens, token.Legible) :
    (listing tokens).count Line.lineFeed = tokens.length :=
  Line.count_lineFeed_flatMap fun token member => (legible token member).isRow

theorem eq_of_map_row_eq (legible : ∀ token ∈ tokens, token.Legible)
    (legible' : ∀ token ∈ others, token.Legible) (same : tokens.map row = others.map row) :
    tokens = others := by
  induction tokens generalizing others with
  | nil => exact (List.map_eq_nil_iff.mp same.symm).symm
  | cons token tokens ih =>
    cases others with
    | nil => cases same
    | cons other others =>
      obtain ⟨first, rest⟩ := List.forall_mem_cons.mp legible
      obtain ⟨first', rest'⟩ := List.forall_mem_cons.mp legible'
      obtain ⟨rows, later⟩ := List.cons.inj same
      rw [first.eq_of_row_eq first' rows, ih rest rest' later]

theorem listing_eq_iff (legible : ∀ token ∈ tokens, token.Legible)
    (legible' : ∀ token ∈ others, token.Legible) :
    listing tokens = listing others ↔ tokens = others := by
  constructor
  · intro same
    refine eq_of_map_row_eq legible legible' ?_
    rw [← ofBytes_listing legible, same, ofBytes_listing legible']
  · rintro rfl
    rfl

/-! ## 3. Sources one after another -/

theorem endOfText_not_mem_symbolsOf (source : List Char) :
    .endOfText Segment.line ∉ symbolsOf source :=
  fun member => kind_ne_of_mem_symbolsOf member rfl

/-- The closing marks tell where the tokens of a source end. -/
theorem flatMap_ofText_eq_iff {sources sources' : List (List Char)} :
    sources.flatMap ofText = sources'.flatMap ofText ↔
      sources.map ofText = sources'.map ofText := by
  constructor
  · intro same
    induction sources generalizing sources' with
    | nil =>
      cases sources' with
      | nil => rfl
      | cons source' sources' => simp [ofText_eq] at same
    | cons source sources ih =>
      cases sources' with
      | nil => simp [ofText_eq] at same
      | cons source' sources' =>
        simp only [List.flatMap_cons, ofText_eq, List.append_assoc, List.singleton_append] at same
        obtain ⟨first, later⟩ := eq_of_append_cons_eq same (endOfText_not_mem_symbolsOf source)
          (endOfText_not_mem_symbolsOf source')
        rw [List.map_cons, List.map_cons, ofText_eq, ofText_eq, first, ih later]
  · intro same
    rw [List.flatMap_def, List.flatMap_def, same]

end Token

/-! ## 4. What sessions show of sources -/

namespace Session

variable {session : Session}

theorem display_dumps (files : FileTree) (sources : List (List Char)) :
    display files (sources.map .dump) = Token.listing (sources.flatMap Token.ofText) := by
  induction sources with
  | nil => rfl
  | cons source sources ih =>
    rw [List.map_cons, display, List.flatMap_cons, Token.listing_append, ← ih]
    rfl

theorem dumps_constant (sources : List (List Char)) :
    ∀ step ∈ sources.map Step.dump, step.isConfigureOut = false := by
  intro step member
  obtain ⟨source, -, rfl⟩ := List.mem_map.mp member
  rfl

theorem unlimited_of_reliable (healthy : session.out.Reliable) : session.unlimited = session := by
  obtain ⟨⟨stored, room, writeFault, flushFault⟩, console, files⟩ := session
  cases healthy.room
  rfl

/-- An output that never fails shows all the tokens of the sources. -/
theorem stores_dumps (healthy : session.out.Reliable) (sources : List (List Char)) :
    session.stores (sources.map .dump) = Token.listing (sources.flatMap Token.ofText) := by
  rw [← unlimited_of_reliable healthy, stores_unlimited healthy.flush (dumps_constant sources),
    display_dumps]

theorem reliable_play_dumps (healthy : session.out.Reliable) (sources : List (List Char)) :
    (session.play (sources.map .dump)).2.out.Reliable := by
  rw [out_play healthy.flush (dumps_constant sources)]
  refine ⟨?_, healthy.flush⟩
  show session.out.behaviour.room.map _ = none
  rw [healthy.room]
  rfl

theorem legible_of_mem_flatMap {sources : List (List Char)} :
    ∀ token ∈ sources.flatMap Token.ofText, token.Legible := by
  intro token member
  obtain ⟨source, -, scanned⟩ := List.mem_flatMap.mp member
  exact Token.legible_of_mem_ofText scanned

/-- What is shown of sources, on outputs that never fail, can be read back:

* the text of a token tells its kind and its lexeme, which may be any;
* sessions that dump some sources store the same bytes exactly if there are as many sources for
  both, and the tokens of each source are those of the other in its place;
* of each source as many line feeds are stored as it has tokens, the lines are the rows of its
  tokens, and the row of the closing mark is the last one and no other. -/
theorem stores_eq_iff {session other : Session} (healthy : session.out.Reliable)
    (healthy' : other.out.Reliable) :
    (∀ token token' : Token, token.text = token'.text ↔
      token.kind = token'.kind ∧ token.lexeme = token'.lexeme) ∧
    (∀ sources sources' : List (List Char),
      session.stores (sources.map .dump) = other.stores (sources'.map .dump) ↔
        sources.map (fun source => (session.scan source).1) =
          sources'.map fun source => (other.scan source).1) ∧
    ∀ (earlier : List (List Char)) (source : List Char),
      let before := (session.play (earlier.map .dump)).2
      let shown := before.stores [.dump source]
      let tokens := (before.scan source).1
      shown.count Line.lineFeed = tokens.length ∧
      Line.ofBytes shown = tokens.map Token.row ∧
      ∃ rows, Line.ofBytes shown = rows ++ [Utf8.encode "EOF  null\n".toList] ∧
        Utf8.encode "EOF  null\n".toList ∉ rows := by
  refine ⟨fun _ _ => Token.text_eq_iff, ?_, ?_⟩
  · intro sources sources'
    rw [stores_dumps healthy, stores_dumps healthy',
      Token.listing_eq_iff legible_of_mem_flatMap legible_of_mem_flatMap]
    exact Token.flatMap_ofText_eq_iff
  · intro earlier source before shown tokens
    have stored : shown = Token.listing (Token.ofText source) := by
      have whole := stores_dumps (reliable_play_dumps healthy earlier) [source]
      rwa [List.flatMap_singleton] at whole
    have legible : ∀ token ∈ Token.ofText source, token.Legible :=
      fun _ => Token.legible_of_mem_ofText
    have lines : Line.ofBytes shown = tokens.map Token.row := by
      rw [stored]
      exact Token.ofBytes_listing legible
    have mark : (Token.endOfText Segment.line).row = Utf8.encode "EOF  null\n".toList := by
      decide +kernel
    refine ⟨?_, lines, (Token.symbolsOf source).map Token.row, ?_, ?_⟩
    · rw [stored]
      exact Token.count_lineFeed_listing legible
    · rw [lines, ← mark]
      show (Token.ofText source).map Token.row = _
      rw [Token.ofText_eq, List.map_append]
      rfl
    · intro member
      obtain ⟨token, scanned, same⟩ := List.mem_map.mp member
      rw [← mark, Token.row_eq_iff, Token.text_eq_iff] at same
      exact Token.kind_ne_of_mem_symbolsOf scanned same.1

/-- A symbol that is parted over two sources, and a stray character that only one session is given.
Lexemes hold blanks, line feeds and the word `null`. -/
theorem stores_eq_iff_parted :
    let session : Session := {}
    let other : Session :=
      { out := { stored := #[62, 32] }, console := { sink := .full, flagged := true } }
    let before := (session.play [.dump ['!']]).2
    (session.out.Reliable ∧ other.out.Reliable) ∧
    (⟨.symbol .bang, " null", 1⟩ : Token).text ≠ (⟨.symbol .bang, "", 1⟩ : Token).text ∧
    (⟨.endOfText, "\n", 1⟩ : Token).text = (⟨.endOfText, "\n", 2⟩ : Token).text ∧
    session.stores [.dump ['!'], .dump ['=']] ≠ other.stores [.dump ['!', '=']] ∧
    session.stores [.dump ['!', '@'], .dump ['=']] = other.stores [.dump ['!'], .dump ['=']] ∧
    (before.stores [.dump ['(', '\n', ')']]).count Line.lineFeed = 3 := by
  intro session other before
  have healthy : session.out.Reliable := ⟨rfl, rfl⟩
  have healthy' : other.out.Reliable := ⟨rfl, rfl⟩
  obtain ⟨texts, stores, shown⟩ := stores_eq_iff healthy healthy'
  refine ⟨⟨healthy, healthy'⟩, ?_, ?_, ?_, ?_, ?_⟩
  · rw [ne_eq, texts]
    decide +kernel
  · exact (texts _ _).mpr ⟨rfl, rfl⟩
  · intro same
    exact absurd (congrArg List.length ((stores [['!'], ['=']] [['!', '=']]).mp same)) (by simp)
  · exact (stores [['!', '@'], ['=']] [['!'], ['=']]).mpr (by decide +kernel)
  · exact (shown [['!']] ['(', '\n', ')']).1

end Session

end TokenDump
