/-
This file proves that the reader takes a quoted text for what the grammar of JSON spells, in every
spelling of it, and that it takes nothing else for a text.

The grammar gives a character by its UTF-16 code units and the reader puts characters together from
code units, so the two meet in what a list of one unit or of two says about the character. From
there a text is read one character after the other: whatever stands behind the spelling of a
character does not matter to how it is read, and where the reader goes on, it has passed such a
spelling.
-/

import ConnectorSettings.Json.Grammar
import ConnectorSettings.Proofs.Ascii
import ConnectorSettings.Proofs.JsonText

namespace ConnectorSettings

namespace Json

open Properties (codeUnits)

/-! ### Characters by number -/

theorem unit?_eq_some_iff {a b c d : Char} {unit : Nat} :
    unit? a b c d = some unit ↔ SpellsUnit unit ['\\', 'u', a, b, c, d] := by
  rw [unit?, Text.readDigits?_eq_some_iff, and_iff_right (List.cons_ne_nil _ _)]
  constructor
  · rintro ⟨values, spells, rfl⟩
    rcases spells with _ | ⟨first, _ | ⟨second, _ | ⟨third, _ | ⟨fourth, _ | _⟩⟩⟩⟩
    simpa using SpellsUnit.digits first second third fourth
  · rintro ⟨first, second, third, fourth⟩
    exact ⟨_, .cons first (.cons second (.cons third (.cons fourth .nil))), by simp⟩

theorem SpellsUnit.lt {unit : Nat} {written : List Char} (spelled : SpellsUnit unit written) :
    unit < 0x10000 := by
  obtain ⟨first, second, third, fourth⟩ := spelled
  have w := Text.hexValue?_lt first
  have x := Text.hexValue?_lt second
  have y := Text.hexValue?_lt third
  have z := Text.hexValue?_lt fourth
  omega

theorem isHighSurrogate_iff {unit : Nat} :
    isHighSurrogate unit = true ↔ 0xD800 ≤ unit ∧ unit ≤ 0xDBFF := by
  simp [isHighSurrogate]

theorem isLowSurrogate_iff {unit : Nat} :
    isLowSurrogate unit = true ↔ 0xDC00 ≤ unit ∧ unit ≤ 0xDFFF := by
  simp [isLowSurrogate]

theorem toNat_ofNat {number : Nat} (valid : number.isValidChar) :
    (Char.ofNat number).toNat = number := by
  rw [Char.ofNat, dif_pos valid]
  rfl

/-- One code unit is the number of its character, and no half of a pair. -/
theorem codeUnits_eq_single_iff {char : Char} {unit : Nat} :
    codeUnits char = [unit] ↔ unit < 0x10000 ∧ isHighSurrogate unit = false ∧
      isLowSurrogate unit = false ∧ Char.ofNat unit = char := by
  rw [← Bool.not_eq_true, ← Bool.not_eq_true, isHighSurrogate_iff, isLowSurrogate_iff]
  constructor
  · intro units
    by_cases basic : Properties.InBasicPlane char
    · rw [Properties.codeUnits_of_basic basic] at units
      obtain rfl := List.singleton_inj.mp units
      have valid : char.toNat.isValidChar := char.valid
      exact ⟨basic, by omega, by omega, Char.ofNat_toNat char⟩
    · obtain ⟨high, low, pair, -⟩ := Properties.codeUnits_of_not_basic basic
      rw [pair] at units
      cases units
  · rintro ⟨small, notHigh, notLow, rfl⟩
    have valid : unit.isValidChar := by
      unfold Nat.isValidChar
      omega
    rw [Properties.codeUnits_of_basic, toNat_ofNat valid]
    rwa [Properties.InBasicPlane, toNat_ofNat valid]

/-- Two code units are the halves of a pair, and the pair encodes the character. -/
theorem codeUnits_eq_pair_iff {char : Char} {high low : Nat} :
    codeUnits char = [high, low] ↔ isHighSurrogate high = true ∧ isLowSurrogate low = true ∧
      pairedChar high low = char := by
  rw [isHighSurrogate_iff, isLowSurrogate_iff]
  constructor
  · intro units
    by_cases basic : Properties.InBasicPlane char
    · rw [Properties.codeUnits_of_basic basic] at units
      cases units
    · have valid : char.toNat.isValidChar := char.valid
      unfold Nat.isValidChar at valid
      unfold Properties.InBasicPlane at basic
      rw [codeUnits, if_neg basic] at units
      simp only [List.cons.injEq, and_true] at units
      obtain ⟨rfl, rfl⟩ := units
      refine ⟨by omega, by omega, ?_⟩
      have number : 0x10000 + (0xD800 + (char.toNat - 0x10000) / 0x400 - 0xD800) * 0x400 +
          (0xDC00 + (char.toNat - 0x10000) % 0x400 - 0xDC00) = char.toNat := by omega
      rw [pairedChar, number, Char.ofNat_toNat]
  · rintro ⟨highs, lows, rfl⟩
    have valid : (0x10000 + (high - 0xD800) * 0x400 + (low - 0xDC00)).isValidChar := by
      unfold Nat.isValidChar
      omega
    rw [pairedChar, codeUnits, toNat_ofNat valid, if_neg (by omega)]
    simp only [List.cons.injEq, and_true]
    omega

/-! ### Texts -/

theorem escapedChar?_eq_some_iff {letter char : Char} :
    escapedChar? letter = some char ↔ (letter, char) ∈ letterEscapes := by
  unfold escapedChar?
  split <;> simp_all [letterEscapes, eq_comm]

theorem SpellsUnit.exists_digits {unit : Nat} {written : List Char}
    (spelled : SpellsUnit unit written) : ∃ a b c d, written = ['\\', 'u', a, b, c, d] ∧
      unit? a b c d = some unit := by
  cases spelled with
  | digits first second third fourth =>
    exact ⟨_, _, _, _, rfl, unit?_eq_some_iff.mpr (.digits first second third fourth)⟩

/-- A character is read from each of its spellings, whatever follows. -/
theorem SpellsChar.readText_append {char : Char} {written : List Char}
    (spelled : SpellsChar char written) (text : List Char) :
    readText (written ++ text) = consText char (readText text) := by
  cases spelled with
  | itself notQuote notBackslash noControl =>
    exact (WrittenAs.itself notQuote notBackslash noControl).readText_append text
  | letter listed =>
    exact (WrittenAs.letter _ (escapedChar?_eq_some_iff.mpr listed)).readText_append text
  | number units spelled =>
    obtain ⟨-, notHigh, notLow, rfl⟩ := codeUnits_eq_single_iff.mp units
    obtain ⟨a, b, c, d, rfl, read⟩ := spelled.exists_digits
    simp [readText, read, notHigh, notLow]
  | pair units spelledHigh spelledLow =>
    obtain ⟨isHigh, isLow, rfl⟩ := codeUnits_eq_pair_iff.mp units
    obtain ⟨a, b, c, d, rfl, read⟩ := spelledHigh.exists_digits
    obtain ⟨e, f, g, h, rfl, readLow⟩ := spelledLow.exists_digits
    simp [readText, read, readLow, isHigh, isLow]

/-- A text is read up to its closing quote, behind the opening one. -/
theorem SpellsText.readText_append {value inside : List Char} (spelled : SpellsText value inside)
    (tail : List Char) : readText (inside ++ '\x22' :: tail) = some (value, tail) := by
  induction spelled with
  | nil => simp [readText]
  | cons first _ inductionHypothesis =>
    rw [List.append_assoc, first.readText_append, inductionHypothesis]
    rfl

theorem consText_eq_some {char : Char} {read : Option (List Char × List Char)}
    {value rest : List Char} (taken : consText char read = some (value, rest)) :
    ∃ text, read = some (text, rest) ∧ value = char :: text := by
  obtain ⟨⟨text, tail⟩, given, same⟩ := Option.map_eq_some_iff.mp taken
  cases same
  exact ⟨text, given, rfl⟩

/-- What has been read as a text was a spelling of it and a quote. -/
theorem exists_spellsText_of_readText {input value rest : List Char}
    (read : readText input = some (value, rest)) :
    ∃ inside, SpellsText value inside ∧ input = inside ++ '\x22' :: rest := by
  -- Every case that goes on begins with a spelling of one character.
  have goesOn {char : Char} {written text : List Char} (spelled : SpellsChar char written)
      (inductionHypothesis : ∀ {value}, readText text = some (value, rest) →
        ∃ inside, SpellsText value inside ∧ text = inside ++ '\x22' :: rest)
      {value : List Char} (taken : consText char (readText text) = some (value, rest)) :
      ∃ inside, SpellsText value inside ∧ written ++ text = inside ++ '\x22' :: rest := by
    obtain ⟨others, read, rfl⟩ := consText_eq_some taken
    obtain ⟨inside, spelledOthers, rfl⟩ := inductionHypothesis read
    exact ⟨written ++ inside, .cons spelled spelledOthers, (List.append_assoc _ _ _).symm⟩
  fun_induction readText input generalizing value with
  | case2 rest =>
    cases read
    exact ⟨[], .nil, rfl⟩
  | case5 a b c d high first isHigh e f g h text low second isLow inductionHypothesis =>
    exact goesOn (.pair (codeUnits_eq_pair_iff.mpr ⟨isHigh, isLow, rfl⟩)
      (unit?_eq_some_iff.mp first) (unit?_eq_some_iff.mp second)) inductionHypothesis read
  | case9 a b c d text unit first notHigh notLow inductionHypothesis =>
    have spelled := unit?_eq_some_iff.mp first
    exact goesOn (.number (codeUnits_eq_single_iff.mpr ⟨spelled.lt, Bool.not_eq_true _ ▸ notHigh,
      Bool.not_eq_true _ ▸ notLow, rfl⟩) spelled) inductionHypothesis read
  | case10 letter text _ meant stands inductionHypothesis =>
    exact goesOn (.letter (escapedChar?_eq_some_iff.mp stands)) inductionHypothesis read
  | case13 char text notQuote _ _ printed inductionHypothesis =>
    simp only [Bool.or_eq_true, decide_eq_true_eq, beq_iff_eq, not_or, Nat.not_lt] at printed
    exact goesOn (.itself notQuote printed.2 printed.1) inductionHypothesis read
  | case1 | case3 | case4 | case6 | case7 | case8 | case11 | case12 => cases read

end Json

end ConnectorSettings
