import Mathlib.Data.List.Chain
import TokenDump.Proofs.Scanning

/-!
# Spelling

Segments that are written one after another, without anything between them, are read back as they
are exactly if no symbol that a `=` extends stands right before one that begins with a `=`
(`Apart`). This is what it means for them to be the cut of what they spell. Stray characters leave no
token, but neighbours that are not apart cannot hide behind that: at the first place where the cut
is another one, it has another symbol.

Results:
1. `isCut_spell_iff`: segments are the cut of what they spell exactly if neighbours are apart.
2. `eq_of_kinds_eq`: the kinds of the symbols tell the whole cut of a given text.
3. `scan_spell`: scanning undoes spelling exactly if neighbours are apart.
-/

namespace TokenDump

/-! ## 1. Neighbours -/

namespace Segment

/-- The text that some segments are, one after another. -/
def spell (segments : List Segment) : List Char :=
  segments.flatMap chars

theorem spell_cons (segment : Segment) (rest : List Segment) :
    spell (segment :: rest) = segment.chars ++ spell rest := rfl

/-- The second segment may be written right behind the first one. -/
def Apart (first second : Segment) : Prop :=
  first.isExtensible → second ≠ .symbol .equal ∧ second ≠ .symbol .equalEqual

instance (first second : Segment) : Decidable (first.Apart second) :=
  inferInstanceAs (Decidable (_ → _))

/-- The first character of a segment tells whether it is stray. -/
theorem stray?_eq_of_head? {segment : Segment} {c : Char} (proper : segment.Proper)
    (first : segment.chars.head? = some c) :
    segment.stray? = if c ∈ Symbol.alphabet then none else some c := by
  cases segment with
  | symbol s => exact (if_pos (Symbol.mem_alphabet_of_mem_chars (List.mem_of_head? first))).symm
  | stray d =>
    cases first
    exact (if_neg proper).symm

theorem head?_chars_eq_equal_iff {segment : Segment} (proper : segment.Proper) :
    segment.chars.head? = some '=' ↔ segment = .symbol .equal ∨ segment = .symbol .equalEqual := by
  constructor
  · intro first
    have none := stray?_eq_of_head? proper first
    cases segment with
    | symbol s => cases s <;> cases first <;> simp
    | stray c => cases none
  · rintro (rfl | rfl) <;> rfl

theorem head?_chars_append (segment : Segment) (rest : List Char) :
    (segment.chars ++ rest).head? = segment.chars.head? := by
  obtain ⟨c, tail, chars⟩ := List.exists_cons_of_ne_nil segment.chars_ne_nil
  rw [chars]
  rfl

theorem fits_spell_cons_iff {first second : Segment} (proper : first.Proper)
    (proper' : second.Proper) (rest : List Segment) :
    first.Fits (spell (second :: rest)) ↔ first.Apart second := by
  rw [fits_iff, and_iff_right proper, spell_cons, head?_chars_append, ne_eq,
    head?_chars_eq_equal_iff proper', not_or]
  rfl

theorem isCut_spell_cons_iff {segment : Segment} {rest : List Segment} :
    IsCut (segment :: rest) (spell (segment :: rest)) ↔
      segment.Fits (spell rest) ∧ IsCut rest (spell rest) := by
  rw [isCut_cons_iff, spell_cons]
  constructor
  · rintro ⟨tail, whole, fit, restCut⟩
    rw [List.append_cancel_left whole]
    exact ⟨fit, restCut⟩
  · rintro ⟨fit, restCut⟩
    exact ⟨spell rest, rfl, fit, restCut⟩

/-- Segments are the cut of what they spell exactly if neighbours are apart. -/
theorem isCut_spell_iff {segments : List Segment}
    (proper : ∀ segment ∈ segments, segment.Proper) :
    IsCut segments (spell segments) ↔ segments.IsChain Apart := by
  induction segments with
  | nil => exact iff_of_true isCut_nil .nil
  | cons first rest ih =>
    obtain ⟨properFirst, properRest⟩ := List.forall_mem_cons.mp proper
    rw [isCut_spell_cons_iff, ih properRest]
    cases rest with
    | nil =>
      have fit : first.Fits (spell []) := fits_iff.mpr ⟨properFirst, fun _ => by simp [spell]⟩
      exact iff_of_true ⟨fit, .nil⟩ (.singleton first)
    | cons second rest =>
      rw [List.isChain_cons_cons,
        fits_spell_cons_iff properFirst (List.forall_mem_cons.mp properRest).1]

/-! ## 2. What the kinds tell -/

/-- The kinds of the symbols among some segments. -/
def kinds (segments : List Segment) : List Token.Kind :=
  (segments.filterMap symbol?).map .symbol

theorem kinds_symbol_cons (symbol : Symbol) (rest : List Segment) :
    kinds (.symbol symbol :: rest) = .symbol symbol :: kinds rest := rfl

/-- Of what begins with the same character, the first segments are the same if the kinds are. -/
theorem eq_of_head?_of_kinds_eq {segment other : Segment} {rest others : List Segment}
    (proper : segment.Proper) (proper' : other.Proper)
    (first : other.chars.head? = segment.chars.head?)
    (same : kinds (other :: others) = kinds (segment :: rest)) :
    other = segment ∧ kinds others = kinds rest := by
  obtain ⟨c, tail, chars⟩ := List.exists_cons_of_ne_nil segment.chars_ne_nil
  have begins : segment.chars.head? = some c := by rw [chars]; rfl
  have stray : other.stray? = segment.stray? :=
    (stray?_eq_of_head? proper' (first.trans begins)).trans
      (stray?_eq_of_head? proper begins).symm
  cases segment with
  | symbol s =>
    cases other with
    | symbol t =>
      rw [kinds_symbol_cons, kinds_symbol_cons] at same
      obtain ⟨kind, same⟩ := List.cons.inj same
      exact ⟨congrArg symbol (Token.Kind.symbol.inj kind), same⟩
    | stray d => cases stray
  | stray c =>
    cases other with
    | symbol t => cases stray
    | stray d => exact ⟨congrArg Segment.stray (Option.some.inj stray), same⟩

/-- A cut of the text that some segments spell is these segments, if the kinds of both are the
same. -/
theorem eq_of_kinds_eq {segments others : List Segment}
    (proper : ∀ segment ∈ segments, segment.Proper) (cut : IsCut others (spell segments))
    (same : kinds others = kinds segments) : others = segments := by
  induction segments generalizing others with
  | nil =>
    cases others with
    | nil => rfl
    | cons other others =>
      have empty : other.chars ++ spell others = [] := cut.lossless
      exact absurd (List.append_eq_nil_iff.mp empty).1 other.chars_ne_nil
  | cons segment rest ih =>
    obtain ⟨properFirst, properRest⟩ := List.forall_mem_cons.mp proper
    cases others with
    | nil =>
      have empty : segment.chars ++ spell rest = [] := cut.lossless.symm
      exact absurd (List.append_eq_nil_iff.mp empty).1 segment.chars_ne_nil
    | cons other others =>
      obtain ⟨tail, whole, fit, restCut⟩ := isCut_cons_iff.mp cut
      rw [spell_cons] at whole
      have first : other.chars.head? = segment.chars.head? := by
        rw [← head?_chars_append other tail, ← whole, head?_chars_append]
      obtain ⟨rfl, later⟩ := eq_of_head?_of_kinds_eq properFirst (fits_iff.mp fit).1 first same
      rw [← List.append_cancel_left whole] at restCut
      rw [ih properRest restCut later]

end Segment

/-! ## 3. Scanning what was spelled -/

namespace Console

open Segment (spell kinds Apart)

/-- Scanning undoes spelling. Of segments whose stray characters are outside the alphabet, whatever
the order and the number:

* if neighbours are apart, a scan of what they spell answers a token for each symbol, of its kind and
  with its spelling, and the closing mark, and notes as many diagnostics as there are stray
  characters among them;
* if some are not, the kinds that the scan answers are not those of the symbols. -/
theorem scan_spell (console : Console) {segments : List Segment}
    (proper : ∀ segment ∈ segments, segment.Proper) :
    (segments.IsChain Apart →
      (console.scan (spell segments)).1 =
        (segments.filterMap Segment.symbol?).map
          (fun symbol => (⟨.symbol symbol, .ofList symbol.chars, 1⟩ : Token)) ++
          [⟨.endOfText, "", 1⟩] ∧
      console.diagnosed (spell segments) =
        List.replicate (segments.countP (·.stray?.isSome)) .strayCharacter) ∧
    (¬ segments.IsChain Apart →
      (console.scan (spell segments)).1.map (·.kind) ≠
        (segments.filterMap Segment.symbol?).map .symbol ++ [.endOfText]) := by
  rw [← Segment.isCut_spell_iff proper]
  refine ⟨?_, ?_⟩
  · intro cut
    have same : segments = Segment.cut (spell segments) := Segment.isCut_iff.mp cut
    refine ⟨?_, ?_⟩
    · rw [scan_fst_eq, ← same]
    · rw [diagnosed_eq, ← Segment.filterMap_stray?_cut, ← same,
        List.length_filterMap_eq_countP]
  · intro uncut listed
    rw [scan_fst_eq, List.map_append, List.map_map] at listed
    have same : kinds (Segment.cut (spell segments)) = kinds segments :=
      List.append_cancel_right listed
    refine uncut (Segment.isCut_iff.mpr ?_)
    exact (Segment.eq_of_kinds_eq proper (Segment.isCut_cut _) same).symm

/-- A stray character keeps `!` and `==` apart; right behind one another they are `!=` and `=`. -/
theorem scan_spell_bang_equalEqual :
    let apart : List Segment := [.symbol .lessEqual, .symbol .bang, .stray 'é', .symbol .equalEqual]
    let close : List Segment := [.symbol .lessEqual, .symbol .bang, .symbol .equalEqual]
    ((∀ segment ∈ apart, segment.Proper) ∧ apart.IsChain Apart) ∧
    ((∀ segment ∈ close, segment.Proper) ∧ ¬ close.IsChain Apart) ∧
    (scan {} (spell apart)).1 = [⟨.symbol .lessEqual, "<=", 1⟩, ⟨.symbol .bang, "!", 1⟩,
      ⟨.symbol .equalEqual, "==", 1⟩, ⟨.endOfText, "", 1⟩] ∧
    (diagnosed {} (spell apart)).length = 1 ∧
    (scan {} (spell close)).1.map (·.kind) ≠
      [.symbol .lessEqual, .symbol .bang, .symbol .equalEqual, .endOfText] := by
  intro apart close
  have proper : ∀ segment ∈ apart, segment.Proper := by decide
  have proper' : ∀ segment ∈ close, segment.Proper := by decide
  have chain : apart.IsChain Apart := by decide
  have broken : ¬ close.IsChain Apart := by decide
  obtain ⟨tokens, diagnostics⟩ := (scan_spell {} proper).1 chain
  refine ⟨⟨proper, chain⟩, ⟨proper', broken⟩, ?_, ?_, (scan_spell {} proper').2 broken⟩
  · rw [tokens]
    decide +kernel
  · rw [diagnostics, List.length_replicate]
    rfl

end Console

end TokenDump
