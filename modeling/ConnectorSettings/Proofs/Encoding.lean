/-
This file proves that decoding is the inverse of encoding: bytes decode to a text exactly where they
are the bytes of that text.

The bytes of a text are those that the string type stores, so that what counts as text is not left
to the decoder. In between stands `Sequence`, the bit layout of one character in one to four bytes,
each in its shortest form. The decoder's table of lead bytes and the encoder's arithmetic are both
compared with it. The rest is an induction on the characters: a character in front of any bytes is
one unit, and a unit that is a character has its bytes in front.
-/

import ConnectorSettings.Text.Utf8

namespace ConnectorSettings

namespace Utf8

/-- The bytes of a text. -/
def encode (text : String) : Bytes :=
  text.toUTF8.data.toList

theorem encode_ofList (characters : List Char) :
    encode (String.ofList characters) = characters.flatMap String.utf8EncodeChar := by
  rw [encode, String.toUTF8, String.toByteArray_ofList, List.utf8Encode,
    List.toList_data_toByteArray]

/-! ### The bit layout of a character -/

/-- The bytes of one code: the lead byte tells their number and holds the highest bits, every other
byte holds six. -/
inductive Sequence (code : Nat) : Bytes → Prop
  | one {lead : UInt8} (leads : lead.toNat = code) (most : code < 0x80) : Sequence code [lead]
  | two {lead second : UInt8} (leads : lead.toNat = code / 64 + 0xC0)
      (seconds : second.toNat = code % 64 + 0x80) (least : 0x80 ≤ code) (most : code < 0x800) :
      Sequence code [lead, second]
  | three {lead second third : UInt8} (leads : lead.toNat = code / 4096 + 0xE0)
      (seconds : second.toNat = code / 64 % 64 + 0x80) (thirds : third.toNat = code % 64 + 0x80)
      (least : 0x800 ≤ code) (most : code < 0x10000)
      (noSurrogate : code < 0xD800 ∨ 0xDFFF < code) : Sequence code [lead, second, third]
  | four {lead second third fourth : UInt8} (leads : lead.toNat = code / 262144 + 0xF0)
      (seconds : second.toNat = code / 4096 % 64 + 0x80)
      (thirds : third.toNat = code / 64 % 64 + 0x80) (fourths : fourth.toNat = code % 64 + 0x80)
      (least : 0x10000 ≤ code) (most : code < 0x110000) :
      Sequence code [lead, second, third, fourth]

theorem Sequence.isValidChar {code : Nat} {bytes : Bytes} (sequence : Sequence code bytes) :
    code.isValidChar := by
  unfold Nat.isValidChar
  cases sequence <;> omega

theorem ofNat_eq_iff {number : Nat} (small : number < 256) (byte : UInt8) :
    UInt8.ofNat number = byte ↔ byte.toNat = number := by
  rw [← UInt8.toNat_inj, UInt8.toNat_ofNat', Nat.mod_eq_of_lt small, eq_comm]

theorem toNat_ofNat {number : Nat} (small : number < 256) : (UInt8.ofNat number).toNat = number :=
  (ofNat_eq_iff small _).mp rfl

theorem sequence_utf8EncodeChar (character : Char) :
    Sequence character.toNat (String.utf8EncodeChar character) := by
  have valid : character.toNat < 0xD800 ∨ 0xDFFF < character.toNat ∧ character.toNat < 0x110000 :=
    character.valid
  have code : character.val.toNat = character.toNat := rfl
  rw [String.utf8EncodeChar, code]
  split
  · exact .one (toNat_ofNat (by omega)) (by omega)
  split
  · refine .two ?_ (toNat_ofNat (by omega)) (by omega) (by omega)
    rw [toNat_ofNat (by omega)]
    omega
  split
  · refine .three ?_ (toNat_ofNat (by omega)) (toNat_ofNat (by omega)) (by omega) (by omega)
      (by omega)
    rw [toNat_ofNat (by omega)]
    omega
  · refine .four ?_ (toNat_ofNat (by omega)) (toNat_ofNat (by omega)) (toNat_ofNat (by omega))
      (by omega) (by omega)
    rw [toNat_ofNat (by omega)]
    omega

theorem utf8EncodeChar_of_sequence {character : Char} {bytes : Bytes}
    (sequence : Sequence character.toNat bytes) : String.utf8EncodeChar character = bytes := by
  have code : character.val.toNat = character.toNat := rfl
  rw [String.utf8EncodeChar, code]
  cases sequence with
  | one leads most => rw [if_pos (by omega), (ofNat_eq_iff (by omega) _).mpr leads]
  | @two lead second leads seconds least most =>
    rw [if_neg (by omega), if_pos (by omega), (ofNat_eq_iff (by omega) lead).mpr (by omega),
      (ofNat_eq_iff (by omega) second).mpr seconds]
  | @three lead second third leads seconds thirds least most _ =>
    rw [if_neg (by omega), if_neg (by omega), if_pos (by omega),
      (ofNat_eq_iff (by omega) lead).mpr (by omega), (ofNat_eq_iff (by omega) second).mpr seconds,
      (ofNat_eq_iff (by omega) third).mpr thirds]
  | @four lead second third fourth leads seconds thirds fourths least most =>
    rw [if_neg (by omega), if_neg (by omega), if_neg (by omega),
      (ofNat_eq_iff (by omega) lead).mpr (by omega), (ofNat_eq_iff (by omega) second).mpr seconds,
      (ofNat_eq_iff (by omega) third).mpr thirds, (ofNat_eq_iff (by omega) fourth).mpr fourths]

/-! ### The table of lead bytes -/

/-- The bounds of the byte after the lead byte of three or four. Shortest form rules out what is
below `least` behind a lead byte without bits; what is above `most` would be a surrogate, or lie
beyond the last code, behind a lead byte with the bits `last`. -/
def secondBounds (least last most bits : Nat) : Nat × Nat :=
  if bits = 0 then (least, 0xBF) else if bits = last then (0x80, most) else (0x80, 0xBF)

theorem within_secondBounds_iff {least last most : Nat} (continues : 0x80 ≤ least)
    (apart : last ≠ 0) (within : most ≤ 0xBF) (bits byte : Nat) :
    (secondBounds least last most bits).1 ≤ byte ∧ byte ≤ (secondBounds least last most bits).2 ↔
      0x80 ≤ byte ∧ byte ≤ 0xBF ∧ (bits = 0 → least ≤ byte) ∧ (bits = last → byte ≤ most) := by
  unfold secondBounds
  split
  · omega
  split <;> omega

/-- The table, one line for each number of bytes. -/
theorem announced_eq_some_iff (lead bits : Nat) (bounds : List (Nat × Nat)) :
    announced lead = some (bits, bounds) ↔
      (lead = bits ∧ bits < 0x80 ∧ bounds = []) ∨
      (lead = bits + 0xC0 ∧ 2 ≤ bits ∧ bits < 0x20 ∧ bounds = [(0x80, 0xBF)]) ∨
      (lead = bits + 0xE0 ∧ bits < 0x10 ∧
        bounds = [secondBounds 0xA0 0xD 0x9F bits, (0x80, 0xBF)]) ∨
      (lead = bits + 0xF0 ∧ bits < 5 ∧
        bounds = [secondBounds 0x90 4 0x8F bits, (0x80, 0xBF), (0x80, 0xBF)]) := by
  unfold announced secondBounds
  constructor
  · intro given
    simp only at given
    -- One goal for each line of the table as it is written, and one for no line.
    repeat' split at given
    all_goals grind
  · rintro (⟨rfl, _, rfl⟩ | ⟨rfl, _, _, rfl⟩ | ⟨rfl, _, rfl⟩ | ⟨rfl, _, rfl⟩)
    all_goals grind

/-! ### Reading one character -/

/-- The bytes keep the bounds, one each, and complete the bits to the code. -/
def Completes : List (Nat × Nat) → Nat → Bytes → Nat → Prop
  | [], bits, tail, code => tail = [] ∧ bits = code
  | bound :: bounds, bits, tail, code =>
    ∃ byte rest, tail = byte :: rest ∧ (bound.1 ≤ byte.toNat ∧ byte.toNat ≤ bound.2) ∧
      Completes bounds (bits * 64 + byte.toNat % 64) rest code

theorem follow_append {bounds : List (Nat × Nat)} {bits code : Nat} {tail : Bytes}
    (completes : Completes bounds bits tail code) (rest : Bytes) :
    follow bounds bits (tail ++ rest) = (some code, rest) := by
  induction bounds generalizing bits tail with
  | nil =>
    obtain ⟨rfl, rfl⟩ := completes
    rfl
  | cons bound bounds inductionHypothesis =>
    obtain ⟨byte, tail, rfl, within, later⟩ := completes
    rw [List.cons_append, follow, if_pos within, inductionHypothesis later]

theorem exists_completes_of_follow {bounds : List (Nat × Nat)} {bits code : Nat} {bytes : Bytes}
    (read : (follow bounds bits bytes).1 = some code) :
    ∃ tail, bytes = tail ++ (follow bounds bits bytes).2 ∧ Completes bounds bits tail code := by
  induction bounds generalizing bits bytes with
  | nil => exact ⟨[], rfl, rfl, Option.some.inj read⟩
  | cons bound bounds inductionHypothesis =>
    cases bytes with
    | nil => cases read
    | cons byte bytes =>
      rw [follow] at read ⊢
      by_cases within : bound.1 ≤ byte.toNat ∧ byte.toNat ≤ bound.2
      · rw [if_pos within] at read ⊢
        obtain ⟨tail, split, completes⟩ := inductionHypothesis read
        exact ⟨byte :: tail, congrArg (byte :: ·) split, byte, tail, rfl, within, completes⟩
      · rw [if_neg within] at read
        cases read

/-- What the table and the bounds let through is the bit layout. -/
theorem announced_completes_iff (lead : UInt8) (tail : Bytes) (code : Nat) :
    (∃ bits bounds, announced lead.toNat = some (bits, bounds) ∧ Completes bounds bits tail code) ↔
      Sequence code (lead :: tail) := by
  constructor
  · rintro ⟨bits, bounds, given, completes⟩
    rcases (announced_eq_some_iff _ _ _).mp given with ⟨leads, most, rfl⟩ |
      ⟨leads, least, most, rfl⟩ | ⟨leads, most, rfl⟩ | ⟨leads, most, rfl⟩
    · obtain ⟨rfl, rfl⟩ := completes
      exact .one leads most
    · obtain ⟨second, _, rfl, seconds, rfl, gathered⟩ := completes
      refine .two ?_ ?_ ?_ ?_ <;> omega
    · obtain ⟨second, _, rfl, seconds, third, _, rfl, thirds, rfl, gathered⟩ := completes
      rw [within_secondBounds_iff (by decide) (by decide) (by decide)] at seconds
      refine .three ?_ ?_ ?_ ?_ ?_ ?_ <;> omega
    · obtain ⟨second, _, rfl, seconds, third, _, rfl, thirds, fourth, _, rfl, fourths, rfl,
        gathered⟩ := completes
      rw [within_secondBounds_iff (by decide) (by decide) (by decide)] at seconds
      refine .four ?_ ?_ ?_ ?_ ?_ ?_ <;> omega
  · intro sequence
    cases sequence with
    | one leads most =>
      exact ⟨code, [], (announced_eq_some_iff _ _ _).mpr (.inl ⟨leads, most, rfl⟩), rfl, rfl⟩
    | @two _ second leads seconds least most =>
      refine ⟨code / 64, _, (announced_eq_some_iff _ _ _).mpr
        (.inr (.inl ⟨leads, by omega, by omega, rfl⟩)), second, _, rfl, ?_, rfl, ?_⟩ <;> omega
    | @three _ second third leads seconds thirds least most noSurrogate =>
      refine ⟨code / 4096, _, (announced_eq_some_iff _ _ _).mpr
        (.inr (.inr (.inl ⟨leads, by omega, rfl⟩))), second, _, rfl,
        (within_secondBounds_iff (by decide) (by decide) (by decide) _ _).mpr ?_, third, _, rfl, ?_,
        rfl, ?_⟩ <;> omega
    | @four _ second third fourth leads seconds thirds fourths least most =>
      refine ⟨code / 262144, _, (announced_eq_some_iff _ _ _).mpr
        (.inr (.inr (.inr ⟨leads, by omega, rfl⟩))), second, _, rfl,
        (within_secondBounds_iff (by decide) (by decide) (by decide) _ _).mpr ?_, third, _, rfl, ?_,
        fourth, _, rfl, ?_, rfl, ?_⟩ <;> omega

theorem units_utf8EncodeChar_append (character : Char) (bytes : Bytes) :
    units (String.utf8EncodeChar character ++ bytes) = some character :: units bytes := by
  have sequence := sequence_utf8EncodeChar character
  obtain ⟨lead, tail, spelled⟩ :=
    List.exists_cons_of_ne_nil (String.utf8EncodeChar_ne_nil (c := character))
  rw [spelled] at sequence ⊢
  obtain ⟨bits, bounds, given, completes⟩ := (announced_completes_iff _ _ _).mpr sequence
  rw [List.cons_append, units, given]
  simp only [follow_append completes, Option.map_some, Char.ofNat_toNat]

theorem exists_of_units_eq_cons {bytes : Bytes} {character : Char} {rest : List (Option Char)}
    (read : units bytes = some character :: rest) :
    ∃ left, bytes = String.utf8EncodeChar character ++ left ∧ units left = rest := by
  cases bytes with
  | nil => rw [units] at read; cases read
  | cons lead bytes =>
    rw [units] at read
    cases given : announced lead.toNat with
    | none => rw [given] at read; cases read
    | some announcement =>
      obtain ⟨bits, bounds⟩ := announcement
      simp only [given, List.cons.injEq, Option.map_eq_some_iff] at read
      obtain ⟨⟨code, followed, rfl⟩, later⟩ := read
      obtain ⟨tail, split, completes⟩ := exists_completes_of_follow followed
      have sequence := (announced_completes_iff _ _ _).mp ⟨bits, bounds, given, completes⟩
      have same : (Char.ofNat code).toNat = code := by
        rw [Char.ofNat, dif_pos sequence.isValidChar]
        rfl
      rw [utf8EncodeChar_of_sequence (same.symm ▸ sequence)]
      exact ⟨_, congrArg (lead :: ·) split, later⟩

/-! ### Reading a text -/

theorem units_eq_map_some_iff (bytes : Bytes) (characters : List Char) :
    units bytes = characters.map some ↔ bytes = characters.flatMap String.utf8EncodeChar := by
  induction characters generalizing bytes with
  | nil =>
    cases bytes with
    | nil => simp [units]
    | cons lead bytes =>
      rw [units]
      cases announced lead.toNat <;> simp
  | cons character characters inductionHypothesis =>
    rw [List.map_cons, List.flatMap_cons]
    constructor
    · intro read
      obtain ⟨left, rfl, later⟩ := exists_of_units_eq_cons read
      rw [(inductionHypothesis left).mp later]
    · rintro rfl
      rw [units_utf8EncodeChar_append, (inductionHypothesis _).mpr rfl]

theorem mapM_id_eq_some_iff (units : List (Option Char)) (characters : List Char) :
    units.mapM id = some characters ↔ units = characters.map some := by
  constructor
  · intro passed
    induction units generalizing characters with
    | nil =>
      cases passed
      rfl
    | cons unit units inductionHypothesis =>
      simp only [List.mapM_cons, Option.bind_eq_bind, Option.bind_eq_some_iff] at passed
      obtain ⟨character, rfl, others, given, same⟩ := passed
      cases same
      rw [List.map_cons, ← inductionHypothesis others given]
  · rintro rfl
    induction characters with
    | nil => rfl
    | cons character characters inductionHypothesis =>
      rw [List.map_cons, List.mapM_cons, inductionHypothesis]
      rfl

/-- Bytes decode to a text exactly where they are the bytes of that text. -/
theorem decode?_eq_some_iff (bytes : Bytes) (text : String) :
    decode? bytes = some text ↔ bytes = encode text := by
  rw [← @String.ofList_toList text, encode_ofList, ← units_eq_map_some_iff, ← mapM_id_eq_some_iff,
    decode?, Option.map_eq_some_iff]
  constructor
  · rintro ⟨characters, decoded, same⟩
    rw [decoded, String.ofList_injective same]
  · intro decoded
    exact ⟨_, decoded, rfl⟩

theorem decode?_eq_none_iff (bytes : Bytes) :
    decode? bytes = none ↔ ∀ text, bytes ≠ encode text := by
  simp only [Option.eq_none_iff_forall_ne_some, ne_eq, decode?_eq_some_iff]

end Utf8

end ConnectorSettings
