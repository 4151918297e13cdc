import TokenDump.Proofs.LongestMatch

/-!
# Decoding

What lenient decoding does to the bytes of a text. Malformed runs end before the next ASCII byte, so
an ASCII byte is always read as the character that it is, and the bytes on both sides of it are
decoded apart. Whatever the other bytes are, they become stray characters: at least one for every
run of them, and so the symbols can be read off the bytes.

Results:
1. `lenient_append_ascii`: decoding goes apart at an ASCII byte.
2. `condense_lenient`: up to the length of runs of stray characters, the text of some bytes is the
   bytes themselves with a blank for each byte that is not in the alphabet.
3. `lenient_encode`: decoding undoes encoding.
-/

namespace TokenDump

/-! ## The state of the decoder -/

namespace Utf8

/-- The rest of a character that has been begun lies beyond ASCII, and so does the character. -/
structure Pending.Proper (pending : Pending) : Prop where
  low : 0x80 ≤ pending.low
  high : pending.high ≤ 0xBF
  value : (if pending.later = 0 then 0x80 else 2) ≤ pending.value * 64 + (pending.low - 0x80)

theorem Pending.proper_ofLead? {lead : Nat} {pending : Pending} (h : ofLead? lead = some pending) :
    pending.Proper := by
  unfold ofLead? at h
  repeat' split at h
  all_goals cases h
  all_goals constructor <;> simp <;> omega

/-- The next byte of a proper beginning leaves a proper beginning, if not the whole character. -/
theorem Pending.Proper.next {later low high value : Nat}
    (h : (⟨later + 1, low, high, value⟩ : Pending).Proper) {byte : Nat}
    (within : low ≤ byte ∧ byte ≤ high) :
    (⟨later, 0x80, 0xBF, value * 64 + byte % 64⟩ : Pending).Proper := by
  obtain ⟨hlow, hhigh, hvalue⟩ := h
  simp only [Nat.add_eq_zero_iff, Nat.succ_ne_self, and_false, ↓reduceIte] at hlow hhigh hvalue
  constructor
  · exact Nat.le_refl _
  · exact Nat.le_refl _
  · show (if later = 0 then 0x80 else 2) ≤ (value * 64 + byte % 64) * 64 + (0x80 - 0x80)
    split <;> omega

/-- The last byte of a proper beginning completes a character beyond ASCII. -/
theorem Pending.Proper.complete {low high value : Nat}
    (h : (⟨0, low, high, value⟩ : Pending).Proper) {byte : Nat}
    (within : low ≤ byte ∧ byte ≤ high) :
    0x80 ≤ value * 64 + byte % 64 := by
  obtain ⟨hlow, hhigh, hvalue⟩ := h
  simp only [↓reduceIte] at hlow hhigh hvalue
  omega

/-! ### One byte at a time -/

theorem decodeFrom_ascii {byte : UInt8} (h : byte.toNat < 0x80) (rest : List UInt8) :
    decodeFrom none (byte :: rest) = some (Char.ofNat byte.toNat) :: decodeFrom none rest := by
  simp [decodeFrom, step, first, h]

theorem decodeFrom_lead {byte : UInt8} {pending : Pending} (beyond : ¬ byte.toNat < 0x80)
    (lead : Pending.ofLead? byte.toNat = some pending) (rest : List UInt8) :
    decodeFrom none (byte :: rest) = decodeFrom (some pending) rest := by
  simp [decodeFrom, step, first, beyond, lead]

theorem decodeFrom_noLead {byte : UInt8} (beyond : ¬ byte.toNat < 0x80)
    (noLead : Pending.ofLead? byte.toNat = none) (rest : List UInt8) :
    decodeFrom none (byte :: rest) = none :: decodeFrom none rest := by
  simp [decodeFrom, step, first, beyond, noLead]

theorem decodeFrom_complete {low high value : Nat} {byte : UInt8}
    (within : low ≤ byte.toNat ∧ byte.toNat ≤ high) (rest : List UInt8) :
    decodeFrom (some ⟨0, low, high, value⟩) (byte :: rest) =
      some (Char.ofNat (value * 64 + byte.toNat % 64)) :: decodeFrom none rest := by
  simp [decodeFrom, step, within]

theorem decodeFrom_next {later low high value : Nat} {byte : UInt8}
    (within : low ≤ byte.toNat ∧ byte.toNat ≤ high) (rest : List UInt8) :
    decodeFrom (some ⟨later + 1, low, high, value⟩) (byte :: rest) =
      decodeFrom (some ⟨later, 0x80, 0xBF, value * 64 + byte.toNat % 64⟩) rest := by
  simp [decodeFrom, step, within]

/-- A byte that breaks a character off is read afresh behind the malformed run. -/
theorem decodeFrom_break {pending : Pending} {byte : UInt8}
    (without : ¬ (pending.low ≤ byte.toNat ∧ byte.toNat ≤ pending.high)) (rest : List UInt8) :
    decodeFrom (some pending) (byte :: rest) = none :: decodeFrom none (byte :: rest) := by
  simp [decodeFrom, step, without]

/-! ## 1. ASCII bytes -/

theorem Pending.proper_none : ∀ p : Pending, none = some p → p.Proper := by
  rintro p ⟨⟩

/-- Bytes before an ASCII byte are decoded as if nothing followed them, and those behind it as if
nothing came before. The induction is on the bytes before it, from any state in which they can be
read. -/
theorem decodeFrom_append_ascii {byte : UInt8} (ascii : byte.toNat < 0x80)
    (pending : Option Pending) (proper : ∀ p, pending = some p → p.Proper)
    (left right : List UInt8) :
    decodeFrom pending (left ++ byte :: right) =
      decodeFrom pending left ++ some (Char.ofNat byte.toNat) :: decodeFrom none right := by
  induction left generalizing pending with
  | nil =>
    cases pending with
    | none => exact decodeFrom_ascii ascii right
    | some p =>
      have low := (proper p rfl).low
      show decodeFrom (some p) (byte :: right) = _
      rw [decodeFrom_break (by omega), decodeFrom_ascii ascii]
      rfl
  | cons head left ih =>
    -- Whatever is pending, a byte that does not go on with it is read as if nothing were.
    have fresh : decodeFrom none (head :: left ++ byte :: right) =
        decodeFrom none (head :: left) ++
          some (Char.ofNat byte.toNat) :: decodeFrom none right := by
      rw [List.cons_append]
      by_cases small : head.toNat < 0x80
      · rw [decodeFrom_ascii small, decodeFrom_ascii small, ih none Pending.proper_none]
        rfl
      · cases lead : Pending.ofLead? head.toNat with
        | none =>
          rw [decodeFrom_noLead small lead, decodeFrom_noLead small lead,
            ih none Pending.proper_none]
          rfl
        | some q =>
          rw [decodeFrom_lead small lead, decodeFrom_lead small lead]
          refine ih (some q) ?_
          rintro _ ⟨⟩
          exact Pending.proper_ofLead? lead
    cases pending with
    | none => exact fresh
    | some p =>
      by_cases within : p.low ≤ head.toNat ∧ head.toNat ≤ p.high
      · obtain ⟨later, low, high, value⟩ := p
        rw [List.cons_append]
        cases later with
        | zero =>
          rw [decodeFrom_complete within, decodeFrom_complete within, ih none Pending.proper_none]
          rfl
        | succ later =>
          rw [decodeFrom_next within, decodeFrom_next within]
          refine ih _ ?_
          rintro _ ⟨⟩
          exact (proper _ rfl).next within
      · rw [decodeFrom_break within, List.cons_append, decodeFrom_break within, ← List.cons_append,
          fresh]
        rfl

/-- Decoding goes apart at an ASCII byte. -/
theorem lenient_append_ascii {byte : UInt8} (ascii : byte.toNat < 0x80) (left right : List UInt8) :
    lenient (left ++ byte :: right) =
      lenient left ++ Char.ofNat byte.toNat :: lenient right := by
  unfold lenient decode
  rw [decodeFrom_append_ascii ascii none Pending.proper_none]
  simp

end Utf8

/-! ## 2. Symbols in bytes -/

/-- The alphabet as bytes. -/
def Symbol.byteAlphabet : List UInt8 :=
  Utf8.encode alphabet

/-- Some bytes as a text, with a blank for each byte that is not in the alphabet. -/
def Utf8.blanked (bytes : List UInt8) : List Char :=
  bytes.map fun byte => if byte ∈ Symbol.byteAlphabet then Char.ofNat byte.toNat else ' '

namespace Utf8

/-- A number that is no character's stands for the first character. -/
theorem toNat_ofNat_eq_or (n : Nat) : (Char.ofNat n).toNat = n ∨ (Char.ofNat n).toNat = 0 := by
  by_cases valid : n.isValidChar
  · exact .inl (by rw [Char.ofNat, dif_pos valid]; rfl)
  · exact .inr (by rw [Char.ofNat, dif_neg valid]; rfl)

theorem toNat_of_mem_alphabet :
    ∀ c ∈ Symbol.alphabet, 0 < c.toNat ∧ c.toNat < 0x80 := by
  simp [Symbol.alphabet]

theorem ofNat_not_mem_alphabet {n : Nat} (h : 0x80 ≤ n) : Char.ofNat n ∉ Symbol.alphabet := by
  intro member
  have bounds := toNat_of_mem_alphabet _ member
  rcases toNat_ofNat_eq_or n with same | zero <;> omega

theorem replacement_not_mem_alphabet : replacement ∉ Symbol.alphabet := by
  decide

theorem byteAlphabet_eq :
    Symbol.byteAlphabet = Symbol.alphabet.map fun c => UInt8.ofNat c.toNat := by
  rfl

/-- A byte of the alphabet is the ASCII byte of a character of the alphabet. -/
theorem mem_byteAlphabet_iff {byte : UInt8} :
    byte ∈ Symbol.byteAlphabet ↔
      byte.toNat < 0x80 ∧ Char.ofNat byte.toNat ∈ Symbol.alphabet := by
  rw [byteAlphabet_eq, List.mem_map]
  constructor
  · rintro ⟨c, member, rfl⟩
    have bound := (toNat_of_mem_alphabet c member).2
    have same : (UInt8.ofNat c.toNat).toNat = c.toNat := by
      rw [UInt8.toNat_ofNat']
      omega
    rw [same, Char.ofNat_toNat]
    exact ⟨bound, member⟩
  · rintro ⟨ascii, member⟩
    have positive := (toNat_of_mem_alphabet _ member).1
    refine ⟨Char.ofNat byte.toNat, member, ?_⟩
    rcases toNat_ofNat_eq_or byte.toNat with same | zero
    · rw [same, UInt8.ofNat_toNat]
    · omega

theorem blanked_cons_beyond {byte : UInt8} (beyond : ¬ byte.toNat < 0x80) (rest : List UInt8) :
    blanked (byte :: rest) = ' ' :: blanked rest := by
  have outside : byte ∉ Symbol.byteAlphabet := fun member =>
    beyond (mem_byteAlphabet_iff.mp member).1
  simp [blanked, outside]

/-- An ASCII byte is the same symbol in both readings, or stray in both. -/
theorem condense_ascii {byte : UInt8} (ascii : byte.toNat < 0x80) {text : List Char}
    {rest : List UInt8} (h : Segment.condense text = Segment.condense (blanked rest)) :
    Segment.condense (Char.ofNat byte.toNat :: text) =
      Segment.condense (blanked (byte :: rest)) := by
  by_cases member : Char.ofNat byte.toNat ∈ Symbol.alphabet
  · have inside := mem_byteAlphabet_iff.mpr ⟨ascii, member⟩
    have same : blanked (byte :: rest) = Char.ofNat byte.toNat :: blanked rest := by
      simp [blanked, inside]
    rw [same, Segment.condense_cons_of_mem member, Segment.condense_cons_of_mem member, h]
  · have outside : byte ∉ Symbol.byteAlphabet := fun inside =>
      member (mem_byteAlphabet_iff.mp inside).2
    have blank : blanked (byte :: rest) = ' ' :: blanked rest := by
      simp [blanked, outside]
    rw [blank]
    exact Segment.condense_cons_congr member Segment.blank_not_mem_alphabet h

/-- The text of the remaining bytes, given what is pending before them. -/
def lenientFrom (pending : Option Pending) (bytes : List UInt8) : List Char :=
  (decodeFrom pending bytes).map fun piece => piece.getD replacement

/-- The bytes are read in the state between characters or within a character. Within a character
the bytes read so far are stray on both sides, though the decoder still owes its character. -/
theorem condense_lenientFrom (bytes : List UInt8) :
    Segment.condense (lenientFrom none bytes) = Segment.condense (blanked bytes) ∧
      ∀ pending : Pending, pending.Proper →
        Segment.condense (lenientFrom (some pending) bytes) =
          Segment.condense (' ' :: blanked bytes) := by
  have blank := Segment.blank_not_mem_alphabet
  induction bytes with
  | nil =>
    refine ⟨rfl, ?_⟩
    intro _ _
    exact Segment.condense_cons_congr replacement_not_mem_alphabet blank rfl
  | cons byte rest ih =>
    obtain ⟨between, within⟩ := ih
    have fresh : Segment.condense (lenientFrom none (byte :: rest)) =
        Segment.condense (blanked (byte :: rest)) := by
      unfold lenientFrom at between within ⊢
      by_cases ascii : byte.toNat < 0x80
      · rw [decodeFrom_ascii ascii]
        exact condense_ascii ascii between
      · rw [blanked_cons_beyond ascii]
        cases lead : Pending.ofLead? byte.toNat with
        | none =>
          rw [decodeFrom_noLead ascii lead]
          exact Segment.condense_cons_congr replacement_not_mem_alphabet blank between
        | some q =>
          rw [decodeFrom_lead ascii lead]
          exact within q (Pending.proper_ofLead? lead)
    refine ⟨fresh, ?_⟩
    intro pending proper
    unfold lenientFrom at between within fresh ⊢
    by_cases inside : pending.low ≤ byte.toNat ∧ byte.toNat ≤ pending.high
    · have low := proper.low
      -- The byte is no ASCII byte, so its blank goes on with the run before it.
      rw [blanked_cons_beyond (by omega), Segment.condense_stray_stray blank blank]
      obtain ⟨later, low, high, value⟩ := pending
      cases later with
      | zero =>
        rw [decodeFrom_complete inside]
        exact Segment.condense_cons_congr (ofNat_not_mem_alphabet (proper.complete inside)) blank
          between
      | succ later =>
        rw [decodeFrom_next inside]
        exact within _ (proper.next inside)
    · rw [decodeFrom_break inside]
      exact Segment.condense_cons_congr replacement_not_mem_alphabet blank fresh

/-- Whatever is malformed, and wherever, each run of bytes outside the alphabet is decoded to a run
of stray characters. -/
theorem condense_lenient (bytes : List UInt8) :
    Segment.condense (lenient bytes) = Segment.condense (blanked bytes) :=
  (condense_lenientFrom bytes).1

/-- Malformed bytes neither make a token nor take one away. -/
theorem ofText_lenient (bytes : List UInt8) :
    Token.ofText (lenient bytes) = Token.ofText (blanked bytes) :=
  Token.ofText_congr (condense_lenient bytes)

theorem strays_lenient_eq_nil_iff (bytes : List UInt8) :
    Segment.strays (lenient bytes) = [] ↔ ∀ byte ∈ bytes, byte ∈ Symbol.byteAlphabet := by
  rw [← Segment.strays_condense_eq_nil_iff, condense_lenient, Segment.strays_condense_eq_nil_iff,
    Segment.strays_eq_nil_iff]
  simp only [blanked, List.mem_map, forall_exists_index, and_imp]
  constructor
  · intro h byte member
    by_cases inside : byte ∈ Symbol.byteAlphabet
    · exact inside
    · have clean := h ' ' byte member (by simp [inside])
      exact absurd clean Segment.blank_not_mem_alphabet
  · rintro h _ byte member rfl
    have inside := h byte member
    simp only [inside, ↓reduceIte]
    exact (mem_byteAlphabet_iff.mp inside).2

/-! ## 3. Decoding undoes encoding -/

theorem Pending.ofLead?_two {n : Nat} (h : 2 ≤ n ∧ n < 32) :
    ofLead? (n + 0xC0) = some ⟨0, 0x80, 0xBF, n⟩ := by
  simp [ofLead?]
  omega

/-- Of three bytes, the second one is bounded where the first is the least, which would allow an
overlong form, and where surrogates would begin. -/
theorem Pending.exists_ofLead?_three {n : Nat} (h : n < 16) :
    ∃ low high, ofLead? (n + 0xE0) = some ⟨1, low, high, n⟩ ∧
      ∀ m < 64, (n = 0 → 32 ≤ m) → (n = 13 → m < 32) → low ≤ m + 0x80 ∧ m + 0x80 ≤ high := by
  by_cases least : n = 0
  · subst least
    exact ⟨0xA0, 0xBF, rfl, fun m _ _ _ => by omega⟩
  · by_cases surrogate : n = 13
    · subst surrogate
      exact ⟨0x80, 0x9F, rfl, fun m _ _ _ => by omega⟩
    · refine ⟨0x80, 0xBF, ?_, fun m _ _ _ => by omega⟩
      rw [ofLead?, if_neg (by omega), if_neg (by omega), if_neg (by omega), if_pos (by omega),
        Nat.add_sub_cancel]

/-- Of four bytes, the second one is bounded where the first is the least, which would allow an
overlong form, and where it is the greatest. -/
theorem Pending.exists_ofLead?_four {n : Nat} (h : n < 5) :
    ∃ low high, ofLead? (n + 0xF0) = some ⟨2, low, high, n⟩ ∧
      ∀ m < 64, (n = 0 → 16 ≤ m) → (n = 4 → m < 16) → low ≤ m + 0x80 ∧ m + 0x80 ≤ high := by
  by_cases least : n = 0
  · subst least
    exact ⟨0x90, 0xBF, rfl, fun m _ _ _ => by omega⟩
  · by_cases greatest : n = 4
    · subst greatest
      exact ⟨0x80, 0x8F, rfl, fun m _ _ _ => by omega⟩
    · refine ⟨0x80, 0xBF, ?_, fun m _ _ _ => by omega⟩
      rw [ofLead?, if_neg (by omega), if_neg (by omega), if_neg (by omega), if_neg (by omega),
        if_neg (by omega), if_pos (by omega), Nat.add_sub_cancel]

theorem decodeFrom_tail {m value : Nat} (h : m < 64) (rest : List UInt8) :
    decodeFrom (some ⟨0, 0x80, 0xBF, value⟩) (UInt8.ofNat (m + 0x80) :: rest) =
      some (Char.ofNat (value * 64 + m)) :: decodeFrom none rest := by
  have toNat : (UInt8.ofNat (m + 0x80)).toNat = m + 0x80 := by
    rw [UInt8.toNat_ofNat']; omega
  rw [decodeFrom_complete (by omega), toNat]
  congr 3
  omega

theorem decodeFrom_inner {later low high m value : Nat} (h : m < 64)
    (within : low ≤ m + 0x80 ∧ m + 0x80 ≤ high) (rest : List UInt8) :
    decodeFrom (some ⟨later + 1, low, high, value⟩) (UInt8.ofNat (m + 0x80) :: rest) =
      decodeFrom (some ⟨later, 0x80, 0xBF, value * 64 + m⟩) rest := by
  have toNat : (UInt8.ofNat (m + 0x80)).toNat = m + 0x80 := by
    rw [UInt8.toNat_ofNat']; omega
  rw [decodeFrom_next (by omega), toNat]
  congr 4
  omega

theorem decodeFrom_head {n : Nat} {pending : Pending} (h : 0x80 ≤ n ∧ n < 256)
    (lead : Pending.ofLead? n = some pending) (rest : List UInt8) :
    decodeFrom none (UInt8.ofNat n :: rest) = decodeFrom (some pending) rest := by
  have toNat : (UInt8.ofNat n).toNat = n := by
    rw [UInt8.toNat_ofNat']; omega
  rw [decodeFrom_lead (by omega) (by rw [toNat]; exact lead)]

/-- The bytes of a character are decoded to that character. The cases are the lengths of its
form. -/
theorem decodeFrom_utf8EncodeChar (c : Char) (rest : List UInt8) :
    decodeFrom none (String.utf8EncodeChar c ++ rest) = some c :: decodeFrom none rest := by
  have valid : c.val.toNat < 0xD800 ∨ (0xDFFF < c.val.toNat ∧ c.val.toNat < 0x110000) := c.valid
  have itself : ∀ n, n = c.val.toNat → Char.ofNat n = c := by
    rintro _ rfl
    exact Char.ofNat_toNat c
  unfold String.utf8EncodeChar
  generalize c.val.toNat = v at valid itself
  simp only
  split
  · rename_i one
    have toNat : (UInt8.ofNat v).toNat = v := by
      rw [UInt8.toNat_ofNat']; omega
    rw [List.cons_append, decodeFrom_ascii (by omega), toNat, itself v rfl]
    rfl
  · split
    · rename_i two
      have lead := Pending.ofLead?_two (n := v / 64 % 0x20) (by omega)
      simp only [List.cons_append, List.nil_append]
      rw [decodeFrom_head (by omega) lead, decodeFrom_tail (by omega), itself _ (by omega)]
    · split
      · rename_i three
        obtain ⟨low, high, lead, within⟩ :=
          Pending.exists_ofLead?_three (n := v / 4096 % 0x10) (by omega)
        simp only [List.cons_append, List.nil_append]
        rw [decodeFrom_head (by omega) lead,
          decodeFrom_inner (by omega) (within _ (by omega) (by omega) (by omega)),
          decodeFrom_tail (by omega), itself _ (by omega)]
      · obtain ⟨low, high, lead, within⟩ :=
          Pending.exists_ofLead?_four (n := v / 262144 % 0x08) (by omega)
        simp only [List.cons_append, List.nil_append]
        rw [decodeFrom_head (by omega) lead,
          decodeFrom_inner (by omega) (within _ (by omega) (by omega) (by omega)),
          decodeFrom_inner (by omega) (by omega),
          decodeFrom_tail (by omega), itself _ (by omega)]

theorem decode_encode (text : List Char) : decode (encode text) = text.map some := by
  induction text with
  | nil => rfl
  | cons c rest ih =>
    unfold decode at ih ⊢
    have first : encode (c :: rest) = String.utf8EncodeChar c ++ encode rest := by
      simp [encode]
    rw [first, decodeFrom_utf8EncodeChar, ih]
    rfl

/-- The UTF-8 form of a text is decoded to that text. -/
theorem lenient_encode (text : List Char) : lenient (encode text) = text := by
  unfold lenient
  rw [decode_encode, List.map_map]
  exact List.map_id text

end Utf8

end TokenDump
