import TokenDump.Segment

/-!
# Longest match

What `Segment.cut` promises, said without `Segment.cut`. A cut of a text is a list of segments that
loses nothing of it, where each symbol is the longest one that the text has at its place and where
stray characters are outside the alphabet. A text has exactly one cut.

A stray character is a border that no symbol reaches across, so a text may be cut on both sides of
it apart, and it does not matter which stray characters stand between two symbols, nor how many.

Results:
1. `isCut_iff`: `Segment.cut` finds the one cut of every text.
2. `filterMap_token?_eq`: the tokens of segments, written out. `filterMap_stray?_cut`: the stray
   segments are the characters outside the alphabet, in order.
3. `cut_append_stray`: cutting goes apart at a stray character.
4. `ofText_condense`: condensing the runs of stray characters changes no token.
-/

namespace TokenDump

/-! ## The alphabet -/

namespace Symbol

/-- The characters that symbols are spelled with. -/
def alphabet : List Char :=
  ['(', ')', '{', '}', ',', '.', '-', '+', ';', '*', '!', '=', '<', '>']

/-- Of all symbols that the text begins with, this one has the longest spelling. -/
def Longest (symbol : Symbol) (text : List Char) : Prop :=
  symbol.chars <+: text ∧
    ∀ other ∈ all, other.chars <+: text → other.chars.length ≤ symbol.chars.length

/-- Whether a symbol would be another one with a `=` behind it. -/
def isExtensible (symbol : Symbol) : Bool :=
  symbol = bang ∨ symbol = equal ∨ symbol = less ∨ symbol = greater

/-- The symbol that a symbol is together with a `=` behind it, if they are one. -/
def withEqual? : Symbol → Option Symbol
  | bang => some bangEqual
  | equal => some equalEqual
  | greater => some greaterEqual
  | less => some lessEqual
  | _ => none

theorem mem_alphabet_of_mem_chars {c : Char} {symbol : Symbol} (h : c ∈ symbol.chars) :
    c ∈ alphabet := by
  have all : symbol.chars.all (alphabet.contains ·) = true := by
    cases symbol <;> decide
  exact List.contains_iff_mem.mp (List.all_eq_true.mp all c h)

/-- A character spells a symbol by itself exactly if it is in the alphabet. -/
theorem ofChar?_eq_none_iff {c : Char} : ofChar? c = none ↔ c ∉ alphabet := by
  constructor
  · intro h hc
    revert h
    simp only [alphabet, List.mem_cons, List.not_mem_nil, or_false] at hc
    rcases hc with rfl | rfl | rfl | rfl | rfl | rfl | rfl | rfl | rfl | rfl | rfl | rfl | rfl | rfl
      <;> decide
  · intro hc
    cases h : ofChar? c with
    | none => rfl
    | some symbol =>
      have spelled := ofChar?_eq_some_iff.mp h
      exact absurd (mem_alphabet_of_mem_chars (by rw [spelled]; simp)) hc

/-- A spelling has one character or two. -/
theorem chars_eq (symbol : Symbol) :
    (∃ c, symbol.chars = [c]) ∨ ∃ c d, symbol.chars = [c, d] := by
  cases symbol <;> first | exact .inl ⟨_, rfl⟩ | exact .inr ⟨_, _, rfl⟩

theorem length_chars_le (symbol : Symbol) : symbol.chars.length ≤ 2 := by
  cases symbol <;> decide

/-- Two characters that spell a symbol are both in the alphabet. -/
theorem ofPair?_eq_none {c d : Char} (h : c ∉ alphabet ∨ d ∉ alphabet) : ofPair? c d = none := by
  cases found : ofPair? c d with
  | none => rfl
  | some symbol =>
    have spelled := ofPair?_eq_some_iff.mp found
    rcases h with h | h
    · exact absurd (mem_alphabet_of_mem_chars (by rw [spelled]; simp)) h
    · exact absurd (mem_alphabet_of_mem_chars (by rw [spelled]; simp)) h

theorem longest_pair {symbol : Symbol} {c d : Char} (spelled : symbol.chars = [c, d])
    (rest : List Char) : symbol.Longest (c :: d :: rest) := by
  refine ⟨⟨rest, by simp [spelled]⟩, ?_⟩
  intro other _ _
  rw [spelled]
  exact other.length_chars_le

/-- A symbol of one character is the longest exactly if its character does not spell a symbol
together with the next one. -/
theorem longest_single_iff {symbol : Symbol} {c : Char} (spelled : symbol.chars = [c])
    (rest : List Char) :
    symbol.Longest (c :: rest) ↔ ∀ d tail, rest = d :: tail → ofPair? c d = none := by
  constructor
  · rintro ⟨_, longest⟩ d tail rfl
    cases found : ofPair? c d with
    | none => rfl
    | some other =>
      have pair := ofPair?_eq_some_iff.mp found
      have shorter := longest other other.mem_all ⟨tail, by simp [pair]⟩
      simp [pair, spelled] at shorter
  · intro h
    refine ⟨⟨rest, by simp [spelled]⟩, ?_⟩
    rintro other - ⟨tail, begins⟩
    rcases other.chars_eq with ⟨x, one⟩ | ⟨x, y, two⟩
    · simp [one, spelled]
    · rw [two] at begins
      simp only [List.cons_append, List.nil_append, List.cons.injEq] at begins
      obtain ⟨rfl, rfl⟩ := begins
      have none := h y tail rfl
      rw [ofPair?_eq_some_iff.mpr two] at none
      cases none

theorem chars_of_withEqual? {symbol longer : Symbol} (found : symbol.withEqual? = some longer) :
    longer.chars = symbol.chars ++ ['='] := by
  unfold withEqual? at found
  split at found <;> cases found <;> rfl

theorem isExtensible_iff {symbol : Symbol} :
    symbol.isExtensible ↔ ∃ longer, symbol.withEqual? = some longer := by
  cases symbol <;> simp [isExtensible, withEqual?]

theorem lexeme_of_withEqual? {symbol longer : Symbol} (found : symbol.withEqual? = some longer) :
    longer.lexeme = symbol.lexeme ++ "=" := by
  rw [lexeme, chars_of_withEqual? found, String.ofList_append]
  rfl

theorem not_isExtensible_of_withEqual? {symbol longer : Symbol}
    (found : symbol.withEqual? = some longer) : ¬ longer.isExtensible := by
  unfold withEqual? at found
  split at found <;> cases found <;> decide

theorem isExtensible_of_pair {symbol longer : Symbol} {c d : Char} (spelled : symbol.chars = [c])
    (pair : longer.chars = [c, d]) : symbol.isExtensible ∧ d = '=' := by
  cases longer <;> cases pair <;> cases symbol <;> cases spelled <;> exact ⟨rfl, rfl⟩

theorem ofPair?_eq_none_iff {symbol : Symbol} {c d : Char} (spelled : symbol.chars = [c]) :
    ofPair? c d = none ↔ (symbol.isExtensible → d ≠ '=') := by
  constructor
  · rintro none extensible rfl
    obtain ⟨longer, found⟩ := isExtensible_iff.mp extensible
    have pair : longer.chars = [c, '='] := by rw [chars_of_withEqual? found, spelled]; rfl
    rw [ofPair?_eq_some_iff.mpr pair] at none
    cases none
  · intro h
    cases found : ofPair? c d with
    | none => rfl
    | some longer =>
      obtain ⟨extensible, next⟩ := isExtensible_of_pair spelled (ofPair?_eq_some_iff.mp found)
      exact absurd next (h extensible)

/-- Whether a symbol is the longest one is decided by the next character behind it. -/
theorem longest_chars_append_iff {symbol : Symbol} {rest : List Char} :
    symbol.Longest (symbol.chars ++ rest) ↔ (symbol.isExtensible → rest.head? ≠ some '=') := by
  rcases symbol.chars_eq with ⟨c, spelled⟩ | ⟨c, d, spelled⟩
  · rw [spelled, List.singleton_append, longest_single_iff spelled]
    cases rest with
    | nil => simp
    | cons d tail => simp [ofPair?_eq_none_iff spelled]
  · rw [spelled]
    refine iff_of_true (longest_pair spelled rest) ?_
    intro extensible
    obtain ⟨longer, found⟩ := isExtensible_iff.mp extensible
    have short := longer.length_chars_le
    rw [chars_of_withEqual? found, spelled] at short
    exact absurd short (by simp)

/-- A symbol that a `=` would extend is not the longest one before a `=`. -/
theorem not_longest_of_isExtensible {symbol : Symbol} (h : symbol.isExtensible)
    (rest : List Char) : ¬ symbol.Longest (symbol.chars ++ '=' :: rest) :=
  fun longest => longest_chars_append_iff.mp longest h rfl

end Symbol

/-! ## 1. The one cut of a text -/

namespace Segment

/-- Whether a segment may stand before the rest of a text. -/
def Fits : Segment → List Char → Prop
  | symbol s, rest => s.Longest (s.chars ++ rest)
  | stray c, _ => c ∉ Symbol.alphabet

/-- Some segments are a text, and each fits before those that follow it. -/
structure IsCut (segments : List Segment) (text : List Char) : Prop where
  lossless : segments.flatMap chars = text
  fits : ∀ before segment after, segments = before ++ segment :: after →
    segment.Fits (after.flatMap chars)

/-- Whether a segment is one that a text can have: no character of the alphabet is stray. -/
def Proper : Segment → Prop
  | symbol _ => True
  | stray c => c ∉ Symbol.alphabet

instance (segment : Segment) : Decidable segment.Proper :=
  match segment with
  | symbol _ => inferInstanceAs (Decidable True)
  | stray c => inferInstanceAs (Decidable (c ∉ Symbol.alphabet))

/-- Whether a segment is a symbol that a `=` would extend. -/
def isExtensible : Segment → Bool
  | symbol s => s.isExtensible
  | stray _ => false

/-- Of what stands behind a segment only the next character matters. -/
theorem fits_iff {segment : Segment} {rest : List Char} :
    segment.Fits rest ↔ segment.Proper ∧ (segment.isExtensible → rest.head? ≠ some '=') := by
  cases segment with
  | symbol s => exact Symbol.longest_chars_append_iff.trans (and_iff_right trivial).symm
  | stray c => exact (and_iff_left Bool.noConfusion).symm

theorem chars_ne_nil (segment : Segment) : segment.chars ≠ [] := by
  cases segment with
  | symbol s => cases s <;> exact List.cons_ne_nil _ _
  | stray c => exact List.cons_ne_nil _ _

theorem isCut_nil : IsCut [] [] := by
  refine ⟨rfl, ?_⟩
  intro before segment after h
  simp at h

theorem isCut_cons_iff {segment : Segment} {rest : List Segment} {text : List Char} :
    IsCut (segment :: rest) text ↔
      ∃ tail, text = segment.chars ++ tail ∧ segment.Fits tail ∧ IsCut rest tail := by
  constructor
  · rintro ⟨lossless, fits⟩
    refine ⟨rest.flatMap chars, by rw [← lossless]; simp, fits [] segment rest rfl, rfl, ?_⟩
    rintro before other after rfl
    exact fits (segment :: before) other after rfl
  · rintro ⟨tail, rfl, fit, lossless, fits⟩
    refine ⟨by simp [lossless], ?_⟩
    intro before other after h
    cases before with
    | nil =>
      simp only [List.nil_append, List.cons.injEq] at h
      obtain ⟨rfl, rfl⟩ := h
      rw [lossless]
      exact fit
    | cons _ before =>
      simp only [List.cons_append, List.cons.injEq] at h
      obtain ⟨-, rfl⟩ := h
      exact fits before other after rfl

theorem ofChar_eq_stray {c : Char} (h : c ∉ Symbol.alphabet) : ofChar c = stray c := by
  simp [ofChar, Symbol.ofChar?_eq_none_iff.mpr h]

theorem ofChar_eq_symbol {c : Char} {s : Symbol} (spelled : s.chars = [c]) :
    ofChar c = symbol s := by
  simp [ofChar, Symbol.ofChar?_eq_some_iff.mpr spelled]

/-- A segment of one character fits where that character begins no symbol of two. -/
theorem fits_ofChar {c : Char} {rest : List Char}
    (h : ∀ d tail, rest = d :: tail → Symbol.ofPair? c d = none) : (ofChar c).Fits rest := by
  cases found : Symbol.ofChar? c with
  | none =>
    have outside := Symbol.ofChar?_eq_none_iff.mp found
    rw [ofChar_eq_stray outside]
    exact outside
  | some s =>
    have spelled := Symbol.ofChar?_eq_some_iff.mp found
    rw [ofChar_eq_symbol spelled]
    show s.Longest (s.chars ++ rest)
    rw [spelled]
    exact (Symbol.longest_single_iff spelled rest).mpr h

theorem isCut_cut (text : List Char) : IsCut (cut text) text := by
  fun_induction cut text with
  | case1 => exact isCut_nil
  | case2 c =>
    refine isCut_cons_iff.mpr ⟨[], by simp, fits_ofChar ?_, isCut_nil⟩
    rintro d tail ⟨⟩
  | case3 c d rest s found ih =>
    have spelled := Symbol.ofPair?_eq_some_iff.mp found
    refine isCut_cons_iff.mpr ⟨rest, by simp [chars, spelled], ?_, ih⟩
    show s.Longest (s.chars ++ rest)
    rw [spelled]
    exact Symbol.longest_pair spelled rest
  | case4 c d rest found ih =>
    refine isCut_cons_iff.mpr ⟨d :: rest, by simp, fits_ofChar ?_, ih⟩
    rintro d' tail h
    cases h
    exact found

theorem cut_cons_of_ofPair?_eq_none {c : Char} {rest : List Char}
    (h : ∀ d tail, rest = d :: tail → Symbol.ofPair? c d = none) :
    cut (c :: rest) = ofChar c :: cut rest := by
  cases rest with
  | nil => rfl
  | cons d tail => simp [cut, h d tail rfl]

/-- A segment that fits is the one that `cut` takes first. -/
theorem cut_chars_append {segment : Segment} {rest : List Char} (fit : segment.Fits rest) :
    cut (segment.chars ++ rest) = segment :: cut rest := by
  cases segment with
  | stray c =>
    have fit : c ∉ Symbol.alphabet := fit
    show cut (c :: rest) = stray c :: cut rest
    rw [← ofChar_eq_stray fit]
    exact cut_cons_of_ofPair?_eq_none fun _ _ _ => Symbol.ofPair?_eq_none (.inl fit)
  | symbol s =>
    have fit : s.Longest (s.chars ++ rest) := fit
    show cut (s.chars ++ rest) = symbol s :: cut rest
    rcases s.chars_eq with ⟨c, spelled⟩ | ⟨c, d, spelled⟩
    · rw [spelled] at fit ⊢
      rw [← ofChar_eq_symbol spelled]
      exact cut_cons_of_ofPair?_eq_none ((Symbol.longest_single_iff spelled rest).mp fit)
    · rw [spelled]
      simp [cut, Symbol.ofPair?_eq_some_iff.mpr spelled]

/-- Every text has exactly one cut, and `cut` finds it. -/
theorem isCut_iff {segments : List Segment} {text : List Char} :
    IsCut segments text ↔ segments = cut text := by
  constructor
  · intro h
    induction segments generalizing text with
    | nil => rw [← h.lossless]; rfl
    | cons segment rest ih =>
      obtain ⟨tail, rfl, fit, restCut⟩ := isCut_cons_iff.mp h
      rw [cut_chars_append fit, ih restCut]
  · rintro rfl
    exact isCut_cut text

/-! ## 2. Symbols and stray characters -/

/-- The symbol that a segment is, if it is one. -/
def symbol? : Segment → Option Symbol
  | symbol s => some s
  | stray _ => none

/-- A symbol among some segments has a token with its kind and its spelling, and nothing else
has. -/
theorem filterMap_token?_eq (segments : List Segment) :
    segments.filterMap token? =
      (segments.filterMap symbol?).map fun symbol => ⟨.symbol symbol, .ofList symbol.chars, 1⟩ := by
  rw [List.map_filterMap]
  refine congrArg (List.filterMap · segments) (funext ?_)
  intro segment
  cases segment with
  | symbol s => rfl
  | stray c => rfl

/-- The stray character that a segment is, if it is one. -/
def stray? : Segment → Option Char
  | symbol _ => none
  | stray c => some c

/-- The stray characters of a text are those outside the alphabet. -/
def strays (text : List Char) : List Char :=
  text.filter (· ∉ Symbol.alphabet)

@[simp] theorem strays_append (left right : List Char) :
    strays (left ++ right) = strays left ++ strays right := by
  simp [strays]

theorem strays_eq_nil_iff {text : List Char} :
    strays text = [] ↔ ∀ c ∈ text, c ∈ Symbol.alphabet := by
  simp [strays, List.filter_eq_nil_iff]

theorem strays_chars {segment : Segment} {rest : List Char} (fit : segment.Fits rest) :
    strays segment.chars = segment.stray?.toList := by
  cases segment with
  | stray c =>
    have fit : c ∉ Symbol.alphabet := fit
    simp [strays, chars, stray?, fit]
  | symbol s =>
    exact strays_eq_nil_iff.mpr fun _ => Symbol.mem_alphabet_of_mem_chars

theorem filterMap_stray?_of_isCut {segments : List Segment} {text : List Char}
    (h : IsCut segments text) : segments.filterMap stray? = strays text := by
  induction segments generalizing text with
  | nil => rw [← h.lossless]; rfl
  | cons segment rest ih =>
    obtain ⟨tail, rfl, fit, restCut⟩ := isCut_cons_iff.mp h
    rw [strays_append, strays_chars fit, ← ih restCut]
    cases segment <;> rfl

/-- The stray segments of a text are the characters outside the alphabet, in order. -/
theorem filterMap_stray?_cut (text : List Char) :
    (cut text).filterMap stray? = strays text :=
  filterMap_stray?_of_isCut (isCut_cut text)

/-! ## 3. Cutting apart at a stray character -/

theorem cut_stray_cons {c : Char} (h : c ∉ Symbol.alphabet) (rest : List Char) :
    cut (c :: rest) = stray c :: cut rest :=
  @cut_chars_append (stray c) _ h

/-- No symbol reaches across a stray character. -/
theorem cut_append_stray {c : Char} (h : c ∉ Symbol.alphabet) (left right : List Char) :
    cut (left ++ c :: right) = cut left ++ stray c :: cut right := by
  fun_induction cut left with
  | case1 => exact cut_stray_cons h right
  | case2 x =>
    have apart := Symbol.ofPair?_eq_none (c := x) (.inr h)
    simp [cut, apart, cut_stray_cons h]
  | case3 x y rest s found ih => simp [cut, found, ih]
  | case4 x y rest found ih =>
    rw [List.cons_append] at ih
    simp [cut, found, ih]

end Segment

/-! ## 4. Tokens and runs of stray characters -/

/-- A text with a single blank for every run of stray characters. -/
def Segment.condense : List Char → List Char
  | [] => []
  | c :: rest =>
    if c ∈ Symbol.alphabet then c :: condense rest
    else if (condense rest).head? = some ' ' then condense rest
    else ' ' :: condense rest

namespace Segment

theorem blank_not_mem_alphabet : ' ' ∉ Symbol.alphabet := by
  decide

theorem condense_cons_of_mem {c : Char} (h : c ∈ Symbol.alphabet) (rest : List Char) :
    condense (c :: rest) = c :: condense rest := by
  simp [condense, h]

/-- Which stray character it is makes no difference. -/
theorem condense_cons_congr {c d : Char} (hc : c ∉ Symbol.alphabet) (hd : d ∉ Symbol.alphabet)
    {left right : List Char} (h : condense left = condense right) :
    condense (c :: left) = condense (d :: right) := by
  simp [condense, hc, hd, h]

/-- A stray character begins a run, also where the run goes on. -/
theorem head?_condense_stray {c : Char} (h : c ∉ Symbol.alphabet) (rest : List Char) :
    (condense (c :: rest)).head? = some ' ' := by
  simp only [condense, if_neg h]
  split
  · assumption
  · rfl

/-- Two stray characters in a row are as good as one. -/
theorem condense_stray_stray {c d : Char} (hc : c ∉ Symbol.alphabet) (hd : d ∉ Symbol.alphabet)
    (rest : List Char) : condense (c :: d :: rest) = condense (d :: rest) := by
  rw [condense, if_neg hc, if_pos (head?_condense_stray hd rest)]

theorem strays_condense_eq_nil_iff (text : List Char) :
    strays (condense text) = [] ↔ strays text = [] := by
  induction text with
  | nil => rfl
  | cons c rest ih =>
    by_cases h : c ∈ Symbol.alphabet
    · rw [condense_cons_of_mem h]
      simpa [strays, h] using ih
    · have blank : ' ' ∈ condense (c :: rest) :=
        List.mem_of_mem_head? (head?_condense_stray h rest)
      constructor
      · intro none
        exact absurd (strays_eq_nil_iff.mp none ' ' blank) blank_not_mem_alphabet
      · intro none
        exact absurd (strays_eq_nil_iff.mp none c List.mem_cons_self) h

end Segment

namespace Token

/-- The tokens of a text. -/
def ofText (text : List Char) : List Token :=
  Segment.tokens (Segment.cut text)

/-- The tokens of a text without the closing mark. -/
def symbolsOf (text : List Char) : List Token :=
  (Segment.cut text).filterMap Segment.token?

theorem ofText_eq (text : List Char) : ofText text = symbolsOf text ++ [.endOfText Segment.line] :=
  rfl

/-- Every token but the closing mark is the token of a symbol. -/
theorem exists_eq_ofSymbol {token : Token} {segments : List Segment}
    (h : token ∈ segments.filterMap Segment.token?) :
    ∃ symbol, token = ofSymbol symbol Segment.line := by
  obtain ⟨segment, _, found⟩ := List.mem_filterMap.mp h
  cases segment with
  | symbol s => exact ⟨s, (Option.some.inj found).symm⟩
  | stray c => cases found

theorem symbolsOf_append_stray {c : Char} (h : c ∉ Symbol.alphabet) (left right : List Char) :
    symbolsOf (left ++ c :: right) = symbolsOf left ++ symbolsOf right := by
  unfold symbolsOf
  rw [Segment.cut_append_stray h, List.filterMap_append]
  rfl

theorem symbolsOf_stray_cons {c : Char} (h : c ∉ Symbol.alphabet) (rest : List Char) :
    symbolsOf (c :: rest) = symbolsOf rest :=
  symbolsOf_append_stray h [] rest

/-- The induction is on the text; the characters before it that are already passed stay in front,
since a symbol may begin there. -/
theorem symbolsOf_append_condense (front text : List Char) :
    symbolsOf (front ++ Segment.condense text) = symbolsOf (front ++ text) := by
  induction text generalizing front with
  | nil => rfl
  | cons c rest ih =>
    by_cases h : c ∈ Symbol.alphabet
    · rw [Segment.condense_cons_of_mem h]
      simpa using ih (front ++ [c])
    · have alone : symbolsOf (Segment.condense rest) = symbolsOf rest := ih []
      rw [symbolsOf_append_stray h, ← alone]
      rw [Segment.condense, if_neg h]
      have blank := Segment.blank_not_mem_alphabet
      split
      · next already =>
        obtain ⟨tail, run⟩ := List.head?_eq_some_iff.mp already
        rw [run, symbolsOf_append_stray blank, symbolsOf_stray_cons blank]
      · exact symbolsOf_append_stray blank front _

/-- Condensing the runs of stray characters changes no token. -/
theorem ofText_condense (text : List Char) : ofText (Segment.condense text) = ofText text := by
  rw [ofText_eq, ofText_eq]
  have same := symbolsOf_append_condense [] text
  simp only [List.nil_append] at same
  rw [same]

/-- Texts that are condensed alike have the same tokens. -/
theorem ofText_congr {left right : List Char}
    (h : Segment.condense left = Segment.condense right) : ofText left = ofText right := by
  rw [← ofText_condense left, h, ofText_condense]

end Token

end TokenDump
